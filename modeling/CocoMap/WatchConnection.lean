import CocoMap.View
import CocoMap.Lib.Transition
import Mathlib.Data.List.Chain

/-!
# The online state

Whether a read has to wait for the server is decided by the online state.  The tracker
(`FSTOnlineStateTracker`) makes it up from what happens to the watch stream: a client that tries to
connect is offline after two failures in a row, or when a timer elapses.  `WatchConnection` is the
watch side of the remote store, which drives the tracker.

Left out are the requests and the messages of the watch stream, its backoff, and the shutdown of the
client.
-/

namespace CocoMap

open Transition

/-! ## The tracker -/

/-- To deal with transient failures, we allow multiple stream attempts before giving up. -/
def kMaxWatchStreamFailures : ℕ := 2

/-- `FSTOnlineStateTracker`, with the log of what its delegate was told, and the number of warnings. -/
structure OnlineStateTracker where
  state : OnlineState
  watchStreamFailures : ℕ
  /-- The timer has been started, and has neither elapsed nor been cancelled. -/
  onlineStateTimer : Bool
  shouldWarnClientIsOffline : Bool
  told : List OnlineState
  warnings : ℕ

namespace OnlineStateTracker

def init : OnlineStateTracker where
  state := .unknown
  watchStreamFailures := 0
  onlineStateTimer := false
  shouldWarnClientIsOffline := true
  told := []
  warnings := 0

def setAndBroadcastState (t : OnlineStateTracker) (newState : OnlineState) : OnlineStateTracker :=
  if newState ≠ t.state then { t with state := newState, told := t.told ++ [newState] } else t

def logClientOfflineWarningIfNecessary (t : OnlineStateTracker) : OnlineStateTracker :=
  if t.shouldWarnClientIsOffline then
    { t with shouldWarnClientIsOffline := false, warnings := t.warnings + 1 }
  else t

def clearOnlineStateTimer (t : OnlineStateTracker) : OnlineStateTracker :=
  { t with onlineStateTimer := false }

def handleWatchStreamStart (t : OnlineStateTracker) : Option OnlineStateTracker :=
  if t.watchStreamFailures = 0 then
    let t := t.setAndBroadcastState .unknown
    -- onlineStateTimer shouldn't be started yet
    if t.onlineStateTimer then none else some { t with onlineStateTimer := true }
  else some t

/-- The block of the timer.  It should be cancelled if we transitioned to a different state. -/
def onlineStateTimeout (t : OnlineStateTracker) : Option OnlineStateTracker :=
  let t := { t with onlineStateTimer := false }
  if t.state = .unknown then
    some (t.logClientOfflineWarningIfNecessary.setAndBroadcastState .offline)
  else none

def handleWatchStreamFailure (t : OnlineStateTracker) : Option OnlineStateTracker :=
  if t.state = .online then
    let t := t.setAndBroadcastState .unknown
    -- updateState: must have been called which would have reset our heuristics
    if t.watchStreamFailures = 0 ∧ t.onlineStateTimer = false then some t else none
  else
    let t := { t with watchStreamFailures := t.watchStreamFailures + 1 }
    if kMaxWatchStreamFailures ≤ t.watchStreamFailures then
      some (t.clearOnlineStateTimer.logClientOfflineWarningIfNecessary.setAndBroadcastState .offline)
    else some t

def updateState (t : OnlineStateTracker) (newState : OnlineState) : OnlineStateTracker :=
  let t := { t.clearOnlineStateTimer with watchStreamFailures := 0 }
  let t := if newState = .online then { t with shouldWarnClientIsOffline := false } else t
  t.setAndBroadcastState newState

/-! ## What the tracker tells -/

variable {t t' : OnlineStateTracker} {newState : OnlineState}

/-- The delegate has been told of every change of the state, and of nothing else; the developer has
been warned at most once. -/
structure Faithful (t : OnlineStateTracker) : Prop where
  last : (OnlineState.unknown :: t.told).getLast? = some t.state
  changes : (OnlineState.unknown :: t.told).IsChain (· ≠ ·)
  warnings : t.warnings + (if t.shouldWarnClientIsOffline then 1 else 0) ≤ 1

theorem faithful_init : Faithful init := ⟨rfl, .singleton _, le_rfl⟩

/-- Only the state, the log and the warnings matter. -/
theorem Faithful.congr (h : t.Faithful) (hstate : t'.state = t.state) (htold : t'.told = t.told)
    (hwarnings : t'.warnings = t.warnings)
    (hwarn : t'.shouldWarnClientIsOffline = true → t.shouldWarnClientIsOffline = true) :
    t'.Faithful where
  last := by
    rw [htold, hstate]
    exact h.last
  changes := by
    rw [htold]
    exact h.changes
  warnings := by
    rw [hwarnings]
    refine le_trans (Nat.add_le_add_left ?_ _) h.warnings
    split
    · rename_i h'
      rw [if_pos (hwarn h')]
    · exact Nat.zero_le _

@[simp] theorem state_setAndBroadcastState : (t.setAndBroadcastState newState).state = newState := by
  unfold setAndBroadcastState
  split
  · rfl
  · rename_i h
    exact (not_not.mp h).symm

@[simp] theorem watchStreamFailures_setAndBroadcastState :
    (t.setAndBroadcastState newState).watchStreamFailures = t.watchStreamFailures := by
  unfold setAndBroadcastState
  split <;> rfl

@[simp] theorem onlineStateTimer_setAndBroadcastState :
    (t.setAndBroadcastState newState).onlineStateTimer = t.onlineStateTimer := by
  unfold setAndBroadcastState
  split <;> rfl

theorem Faithful.setAndBroadcastState (h : t.Faithful) (newState : OnlineState) :
    (t.setAndBroadcastState newState).Faithful := by
  unfold OnlineStateTracker.setAndBroadcastState
  split
  · rename_i hne
    refine ⟨?_, ?_, h.warnings⟩
    · rw [← List.cons_append, List.getLast?_concat]
    · rw [← List.cons_append]
      refine h.changes.append (.singleton newState) fun state hstate state' hstate' => ?_
      rw [Option.mem_def, h.last, Option.some_inj] at hstate
      obtain rfl : newState = state' := Option.some_inj.mp hstate'
      exact hstate ▸ hne.symm
  · exact h

@[simp] theorem watchStreamFailures_logClientOfflineWarningIfNecessary :
    t.logClientOfflineWarningIfNecessary.watchStreamFailures = t.watchStreamFailures := by
  unfold logClientOfflineWarningIfNecessary
  split <;> rfl

@[simp] theorem onlineStateTimer_logClientOfflineWarningIfNecessary :
    t.logClientOfflineWarningIfNecessary.onlineStateTimer = t.onlineStateTimer := by
  unfold logClientOfflineWarningIfNecessary
  split <;> rfl

theorem Faithful.logClientOfflineWarningIfNecessary (h : t.Faithful) :
    t.logClientOfflineWarningIfNecessary.Faithful := by
  unfold OnlineStateTracker.logClientOfflineWarningIfNecessary
  split
  · rename_i hwarn
    have hwarnings := h.warnings
    rw [if_pos hwarn] at hwarnings
    exact ⟨h.last, h.changes, hwarnings⟩
  · exact h

@[simp] theorem state_updateState : (t.updateState newState).state = newState :=
  state_setAndBroadcastState

@[simp] theorem watchStreamFailures_updateState :
    (t.updateState newState).watchStreamFailures = 0 := by
  unfold updateState
  rw [watchStreamFailures_setAndBroadcastState]
  split <;> rfl

@[simp] theorem onlineStateTimer_updateState :
    (t.updateState newState).onlineStateTimer = false := by
  unfold updateState
  rw [onlineStateTimer_setAndBroadcastState]
  split <;> rfl

theorem Faithful.updateState (h : t.Faithful) (newState : OnlineState) :
    (t.updateState newState).Faithful := by
  refine Faithful.setAndBroadcastState ?_ newState
  split
  · exact h.congr rfl rfl rfl fun hwarn => nomatch hwarn
  · exact h.congr rfl rfl rfl id

/-- A first attempt to connect starts the timer; a later one changes nothing. -/
theorem handleWatchStreamStart_spec (h : t.Faithful)
    (htimer : t.watchStreamFailures = 0 → t.onlineStateTimer = false) :
    ∃ t', t.handleWatchStreamStart = some t' ∧ t'.Faithful ∧
      t'.watchStreamFailures = t.watchStreamFailures ∧
      (t.watchStreamFailures = 0 → t'.state = .unknown ∧ t'.onlineStateTimer = true) ∧
      (t.watchStreamFailures ≠ 0 → t' = t) := by
  unfold handleWatchStreamStart
  by_cases hfailures : t.watchStreamFailures = 0
  · rw [if_pos hfailures]
    dsimp only
    rw [onlineStateTimer_setAndBroadcastState, htimer hfailures, if_neg Bool.false_ne_true]
    exact ⟨_, rfl, (h.setAndBroadcastState .unknown).congr rfl rfl rfl id,
      watchStreamFailures_setAndBroadcastState, fun _ => ⟨state_setAndBroadcastState, rfl⟩,
      fun hne => absurd hfailures hne⟩
  · rw [if_neg hfailures]
    exact ⟨t, rfl, h, rfl, fun hzero => absurd hzero hfailures, fun _ => rfl⟩

/-- When the timer elapses, the client is offline. -/
theorem onlineStateTimeout_spec (h : t.Faithful) (hunknown : t.state = .unknown) :
    ∃ t', t.onlineStateTimeout = some t' ∧ t'.Faithful ∧ t'.state = .offline ∧
      t'.onlineStateTimer = false := by
  have hcleared : ({ t with onlineStateTimer := false } : OnlineStateTracker).Faithful :=
    h.congr rfl rfl rfl id
  refine ⟨_, if_pos hunknown,
    hcleared.logClientOfflineWarningIfNecessary.setAndBroadcastState .offline,
    state_setAndBroadcastState, ?_⟩
  rw [onlineStateTimer_setAndBroadcastState, onlineStateTimer_logClientOfflineWarningIfNecessary]

theorem told_setAndBroadcastState : t.told <+: (t.setAndBroadcastState newState).told := by
  unfold setAndBroadcastState
  split
  · exact List.prefix_append _ _
  · exact List.prefix_rfl

theorem told_logClientOfflineWarningIfNecessary :
    t.logClientOfflineWarningIfNecessary.told = t.told := by
  unfold logClientOfflineWarningIfNecessary
  split <;> rfl

theorem told_updateState : t.told <+: (t.updateState newState).told := by
  unfold updateState
  refine List.IsPrefix.trans ?_ told_setAndBroadcastState
  split <;> exact List.prefix_rfl

theorem told_handleWatchStreamStart (h : t.handleWatchStreamStart = some t') :
    t.told <+: t'.told := by
  unfold handleWatchStreamStart at h
  split at h
  · dsimp only at h
    split at h
    · cases h
    · cases h
      exact told_setAndBroadcastState
  · cases h
    exact List.prefix_rfl

theorem told_onlineStateTimeout (h : t.onlineStateTimeout = some t') : t.told <+: t'.told := by
  unfold onlineStateTimeout at h
  dsimp only at h
  split at h
  · cases h
    refine List.IsPrefix.trans ?_ told_setAndBroadcastState
    rw [told_logClientOfflineWarningIfNecessary]
  · cases h

theorem told_handleWatchStreamFailure (h : t.handleWatchStreamFailure = some t') :
    t.told <+: t'.told := by
  unfold handleWatchStreamFailure at h
  split at h
  · dsimp only at h
    split at h
    · cases h
      exact told_setAndBroadcastState
    · cases h
  · dsimp only at h
    split at h
    · cases h
      refine List.IsPrefix.trans ?_ told_setAndBroadcastState
      rw [told_logClientOfflineWarningIfNecessary]
      exact List.prefix_rfl
    · cases h
      exact List.prefix_rfl

/-- What the delegate has been told since makes up for the change of the state. -/
theorem Faithful.state_eq (h : t.Faithful) (h' : t'.Faithful) {states : List OnlineState}
    (htold : t'.told = t.told ++ states) : t'.state = states.getLast?.getD t.state := by
  have hlast := h.last
  have hlast' := h'.last
  rw [List.getLast?_cons, Option.some_inj] at hlast hlast'
  rw [← hlast, ← hlast', htold, List.getLast?_append]
  cases states.getLast? <;> rfl

end OnlineStateTracker

/-! ## The watch side of the remote store -/

/-- `FSTRemoteStore`, as far as it watches: whether the network is enabled, whether the watch stream
is started, and the targets it is to watch. -/
structure WatchConnection where
  tracker : OnlineStateTracker
  isNetworkEnabled : Bool
  isStarted : Bool
  listenTargets : Finset ℤ

inductive ConnectionEvent
  | enableNetwork
  | disableNetwork
  | userDidChange
  | listenToTarget (targetID : ℤ)
  | stopListeningToTargetID (targetID : ℤ)
  | watchStreamDidChange
  | processTargetError (targetID : ℤ)
  | watchStreamWasInterrupted
  | onlineStateTimeout

namespace WatchConnection

def init : WatchConnection where
  tracker := .init
  isNetworkEnabled := false
  isStarted := false
  listenTargets := ∅

def shouldStartWatchStream (c : WatchConnection) : Bool :=
  c.isNetworkEnabled && !c.isStarted && decide (c.listenTargets ≠ ∅)

def startWatchStream (c : WatchConnection) : Option WatchConnection :=
  if c.shouldStartWatchStream then
    c.tracker.handleWatchStreamStart.map fun tracker => { c with tracker, isStarted := true }
  else none

/-- The stream is started where it should be, or else the state becomes unknown: there is no active
attempt at establishing a connection. -/
def restart (c : WatchConnection) : Option WatchConnection :=
  if c.shouldStartWatchStream then c.startWatchStream
  else some { c with tracker := c.tracker.updateState .unknown }

def enableNetwork (c : WatchConnection) : Option WatchConnection :=
  if c.isNetworkEnabled then some c
  else { c with isNetworkEnabled := true, isStarted := false }.restart

def disableNetworkInternal (c : WatchConnection) : WatchConnection :=
  if c.isNetworkEnabled then { c with isNetworkEnabled := false, isStarted := false } else c

def disableNetwork (c : WatchConnection) : WatchConnection :=
  { c.disableNetworkInternal with tracker := c.disableNetworkInternal.tracker.updateState .offline }

def userDidChange (c : WatchConnection) : Option WatchConnection :=
  if c.isNetworkEnabled then
    let c := c.disableNetworkInternal
    { c with tracker := c.tracker.updateState .unknown }.enableNetwork
  else some c

def listenToTarget (c : WatchConnection) (targetID : ℤ) : Option WatchConnection :=
  if targetID ∈ c.listenTargets then none
  else
    let c := { c with listenTargets := insert targetID c.listenTargets }
    if c.shouldStartWatchStream then c.startWatchStream else some c

def stopListeningToTargetID (c : WatchConnection) (targetID : ℤ) : Option WatchConnection :=
  if targetID ∈ c.listenTargets then
    some { c with listenTargets := c.listenTargets.erase targetID }
  else none

/-- Mark the connection as online because we got a message from the server. -/
def watchStreamDidChange (c : WatchConnection) : WatchConnection :=
  { c with tracker := c.tracker.updateState .online }

/-- `processTargetErrorForWatchChange:` — the target is removed on the side of the server. -/
def processTargetError (c : WatchConnection) (targetID : ℤ) : WatchConnection :=
  { c.watchStreamDidChange with listenTargets := c.listenTargets.erase targetID }

/-- The stream has been closed, by an error or because it was idle. -/
def watchStreamWasInterrupted (c : WatchConnection) : Option WatchConnection :=
  if c.isNetworkEnabled then
    c.tracker.handleWatchStreamFailure.bind fun tracker =>
      { c with tracker, isStarted := false }.restart
  else none

def step (c : WatchConnection) : ConnectionEvent → Option WatchConnection
  | .enableNetwork => c.enableNetwork
  | .disableNetwork => some c.disableNetwork
  | .userDidChange => c.userDidChange
  | .listenToTarget targetID => c.listenToTarget targetID
  | .stopListeningToTargetID targetID => c.stopListeningToTargetID targetID
  | .watchStreamDidChange => some c.watchStreamDidChange
  | .processTargetError targetID => some (c.processTargetError targetID)
  | .watchStreamWasInterrupted => c.watchStreamWasInterrupted
  | .onlineStateTimeout => c.tracker.onlineStateTimeout.map fun tracker => { c with tracker }

/-- When an event can happen: only a stream that is started brings messages or is closed. -/
def Enabled (c : WatchConnection) : ConnectionEvent → Prop
  | .listenToTarget targetID => targetID ∉ c.listenTargets
  | .stopListeningToTargetID targetID => targetID ∈ c.listenTargets
  | .watchStreamDidChange => c.isStarted = true
  | .processTargetError targetID => c.isStarted = true ∧ targetID ∈ c.listenTargets
  | .watchStreamWasInterrupted => c.isStarted = true
  | .onlineStateTimeout => c.tracker.onlineStateTimer = true
  | _ => True

instance (c : WatchConnection) : ∀ e, Decidable (c.Enabled e)
  | .enableNetwork => isTrue trivial
  | .disableNetwork => isTrue trivial
  | .userDidChange => isTrue trivial
  | .listenToTarget targetID => inferInstanceAs (Decidable (targetID ∉ c.listenTargets))
  | .stopListeningToTargetID targetID => inferInstanceAs (Decidable (targetID ∈ c.listenTargets))
  | .watchStreamDidChange => inferInstanceAs (Decidable (c.isStarted = true))
  | .processTargetError targetID =>
      inferInstanceAs (Decidable (c.isStarted = true ∧ targetID ∈ c.listenTargets))
  | .watchStreamWasInterrupted => inferInstanceAs (Decidable (c.isStarted = true))
  | .onlineStateTimeout => inferInstanceAs (Decidable (c.tracker.onlineStateTimer = true))

/-! ## The invariant -/

variable {c : WatchConnection}

/-- **What holds between two events**: an attempt to connect that has neither succeeded nor failed
is watched by the timer. -/
structure Valid (c : WatchConnection) : Prop where
  timer : c.tracker.onlineStateTimer = true → c.tracker.state = .unknown ∧ c.isStarted = true
  online : c.tracker.state = .online → c.tracker.watchStreamFailures = 0 ∧ c.isStarted = true
  waiting : c.isStarted = true → c.tracker.state = .unknown → c.tracker.onlineStateTimer = true
  stopped : c.isStarted = false → c.tracker.watchStreamFailures = 0
  started : c.isNetworkEnabled = true → c.listenTargets ≠ ∅ → c.isStarted = true
  enabled : c.isStarted = true → c.isNetworkEnabled = true
  faithful : c.tracker.Faithful

theorem valid_init : Valid init where
  timer := fun h => nomatch h
  online := fun h => nomatch h
  waiting := fun h => nomatch h
  stopped := fun _ => rfl
  started := fun h => nomatch h
  enabled := fun h => nomatch h
  faithful := OnlineStateTracker.faithful_init

theorem shouldStartWatchStream_iff : c.shouldStartWatchStream = true ↔
    c.isNetworkEnabled = true ∧ c.isStarted = false ∧ c.listenTargets ≠ ∅ := by
  simp [shouldStartWatchStream, and_assoc]

/-- A connection whose stream is not started, with what is left of the last attempt. -/
structure Startable (c : WatchConnection) : Prop where
  notStarted : c.isStarted = false
  notOnline : c.tracker.state ≠ .online
  fresh : c.tracker.watchStreamFailures = 0 → c.tracker.onlineStateTimer = false
  timer : c.tracker.onlineStateTimer = true → c.tracker.state = .unknown
  waiting : c.tracker.watchStreamFailures ≠ 0 → c.tracker.state = .unknown →
    c.tracker.onlineStateTimer = true
  faithful : c.tracker.Faithful

theorem Startable.startWatchStream (h : c.Startable) (hshould : c.shouldStartWatchStream = true) :
    ∃ c', c.startWatchStream = some c' ∧ c'.Valid := by
  obtain ⟨hnetwork, -, htargets⟩ := shouldStartWatchStream_iff.mp hshould
  obtain ⟨t, hstart, hfaithful, hfailures, hfirst, hlater⟩ :=
    OnlineStateTracker.handleWatchStreamStart_spec h.faithful h.fresh
  refine ⟨{ c with tracker := t, isStarted := true }, ?_, ?_⟩
  · rw [WatchConnection.startWatchStream, if_pos hshould, hstart]
    rfl
  · by_cases hzero : c.tracker.watchStreamFailures = 0
    · obtain ⟨hstate, htimer⟩ := hfirst hzero
      exact {
        timer := fun _ => ⟨hstate, rfl⟩
        online := fun honline => ⟨hfailures.trans hzero, rfl⟩
        waiting := fun _ _ => htimer
        stopped := fun hnot => nomatch hnot
        started := fun _ _ => rfl
        enabled := fun _ => hnetwork
        faithful := hfaithful }
    · obtain rfl := hlater hzero
      exact {
        timer := fun htimer => ⟨h.timer htimer, rfl⟩
        online := fun honline => absurd honline h.notOnline
        waiting := fun _ hunknown => h.waiting hzero hunknown
        stopped := fun hnot => nomatch hnot
        started := fun _ _ => rfl
        enabled := fun _ => hnetwork
        faithful := hfaithful }

theorem Startable.restart (h : c.Startable) : ∃ c', c.restart = some c' ∧ c'.Valid := by
  unfold WatchConnection.restart
  split
  · rename_i hshould
    exact h.startWatchStream hshould
  · rename_i hshould
    rw [shouldStartWatchStream_iff] at hshould
    refine ⟨_, rfl, ?_⟩
    exact {
      timer := fun htimer => by
        rw [OnlineStateTracker.onlineStateTimer_updateState] at htimer
        cases htimer
      online := fun honline => by
        rw [OnlineStateTracker.state_updateState] at honline
        cases honline
      waiting := fun hstarted => absurd (h.notStarted.symm.trans hstarted) Bool.false_ne_true
      stopped := fun _ => OnlineStateTracker.watchStreamFailures_updateState
      started := fun hnetwork htargets => absurd ⟨hnetwork, h.notStarted, htargets⟩ hshould
      enabled := fun hstarted => absurd (h.notStarted.symm.trans hstarted) Bool.false_ne_true
      faithful := h.faithful.updateState .unknown }

/-- Nothing is left of an attempt when the stream is not started. -/
theorem Valid.startable (h : c.Valid) (hstarted : c.isStarted = false) : c.Startable where
  notStarted := hstarted
  notOnline := fun honline => by
    rw [(h.online honline).2] at hstarted
    cases hstarted
  fresh := fun _ => Bool.eq_false_iff.mpr fun htimer => by
    rw [(h.timer htimer).2] at hstarted
    cases hstarted
  timer := fun htimer => (h.timer htimer).1
  waiting := fun hfailures => absurd (h.stopped hstarted) hfailures
  faithful := h.faithful

/-- The network is gone, and with it the stream. -/
theorem Valid.updateState_disabled (h : c.Valid) {newState : OnlineState} (hnew : newState ≠ .online) :
    Valid { c with
      isNetworkEnabled := false
      isStarted := false
      tracker := c.tracker.updateState newState } where
  timer := fun htimer => by
    rw [OnlineStateTracker.onlineStateTimer_updateState] at htimer
    cases htimer
  online := fun honline => by
    rw [OnlineStateTracker.state_updateState] at honline
    exact absurd honline hnew
  waiting := fun hstarted => nomatch hstarted
  stopped := fun _ => OnlineStateTracker.watchStreamFailures_updateState
  started := fun hnetwork => nomatch hnetwork
  enabled := fun hstarted => nomatch hstarted
  faithful := h.faithful.updateState newState

theorem Valid.disableNetworkInternal_eq (h : c.Valid) :
    c.disableNetworkInternal = { c with isNetworkEnabled := false, isStarted := false } := by
  unfold disableNetworkInternal
  split
  · rfl
  · rename_i hnetwork
    have hnetwork := Bool.eq_false_iff.mpr hnetwork
    have hstarted : c.isStarted = false := Bool.eq_false_iff.mpr fun hstarted => by
      rw [h.enabled hstarted] at hnetwork
      cases hnetwork
    obtain ⟨tracker, isNetworkEnabled, isStarted, listenTargets⟩ := c
    obtain rfl : isNetworkEnabled = false := hnetwork
    obtain rfl : isStarted = false := hstarted
    rfl

theorem enableNetwork_valid (h : c.Valid) : ∃ c', c.enableNetwork = some c' ∧ c'.Valid := by
  unfold enableNetwork
  split
  · exact ⟨c, rfl, h⟩
  · rename_i hnetwork
    have hstarted : c.isStarted = false :=
      Bool.eq_false_iff.mpr fun hstarted => hnetwork (h.enabled hstarted)
    have hstartable := h.startable hstarted
    exact Startable.restart ⟨rfl, hstartable.notOnline, hstartable.fresh, hstartable.timer,
      hstartable.waiting, hstartable.faithful⟩

theorem userDidChange_valid (h : c.Valid) : ∃ c', c.userDidChange = some c' ∧ c'.Valid := by
  unfold userDidChange
  split
  · dsimp only
    rw [h.disableNetworkInternal_eq]
    exact enableNetwork_valid (h.updateState_disabled (by decide))
  · exact ⟨c, rfl, h⟩

theorem listenToTarget_valid (h : c.Valid) {targetID : ℤ} (hnew : targetID ∉ c.listenTargets) :
    ∃ c', c.listenToTarget targetID = some c' ∧ c'.Valid := by
  unfold listenToTarget
  rw [if_neg hnew]
  dsimp only
  split
  · rename_i hshould
    obtain ⟨-, hstarted, -⟩ := shouldStartWatchStream_iff.mp hshould
    have hstartable := h.startable hstarted
    exact Startable.startWatchStream ⟨hstarted, hstartable.notOnline, hstartable.fresh,
      hstartable.timer, hstartable.waiting, hstartable.faithful⟩ hshould
  · rename_i hshould
    refine ⟨_, rfl, h.timer, h.online, h.waiting, h.stopped, fun hnetwork htargets => ?_, h.enabled,
      h.faithful⟩
    rw [shouldStartWatchStream_iff] at hshould
    by_contra hstarted
    exact hshould ⟨hnetwork, Bool.eq_false_iff.mpr hstarted, htargets⟩

theorem Valid.erase (h : c.Valid) (targetID : ℤ) :
    Valid { c with listenTargets := c.listenTargets.erase targetID } :=
  ⟨h.timer, h.online, h.waiting, h.stopped, fun hnetwork htargets =>
    h.started hnetwork fun hempty => htargets (by
      change c.listenTargets.erase targetID = ∅
      rw [hempty, Finset.erase_empty]), h.enabled, h.faithful⟩

theorem watchStreamDidChange_valid (h : c.Valid) (hstarted : c.isStarted = true) :
    ∃ c', some c.watchStreamDidChange = some c' ∧ c'.Valid := by
  refine ⟨_, rfl, ?_⟩
  exact {
    timer := fun htimer => by
      rw [watchStreamDidChange, OnlineStateTracker.onlineStateTimer_updateState] at htimer
      cases htimer
    online := fun _ => ⟨OnlineStateTracker.watchStreamFailures_updateState, hstarted⟩
    waiting := fun _ hunknown => by
      rw [watchStreamDidChange, OnlineStateTracker.state_updateState] at hunknown
      cases hunknown
    stopped := fun _ => OnlineStateTracker.watchStreamFailures_updateState
    started := h.started
    enabled := h.enabled
    faithful := h.faithful.updateState .online }

/-- A failure leaves an attempt that is watched by the timer, or the client is offline. -/
theorem watchStreamWasInterrupted_valid (h : c.Valid) (hstarted : c.isStarted = true) :
    ∃ c', c.watchStreamWasInterrupted = some c' ∧ c'.Valid := by
  obtain ⟨t, hfailure, hnotOnline, hfresh, htimer, hwaiting, hfaithful⟩ :
      ∃ t, c.tracker.handleWatchStreamFailure = some t ∧ t.state ≠ .online ∧
        (t.watchStreamFailures = 0 → t.onlineStateTimer = false) ∧
        (t.onlineStateTimer = true → t.state = .unknown) ∧
        (t.watchStreamFailures ≠ 0 → t.state = .unknown → t.onlineStateTimer = true) ∧
        t.Faithful := by
    unfold OnlineStateTracker.handleWatchStreamFailure
    split
    · rename_i honline
      have hzero := (h.online honline).1
      have htimer : c.tracker.onlineStateTimer = false := Bool.eq_false_iff.mpr fun htimer => by
        rw [(h.timer htimer).1] at honline
        cases honline
      dsimp only
      rw [OnlineStateTracker.watchStreamFailures_setAndBroadcastState,
        OnlineStateTracker.onlineStateTimer_setAndBroadcastState, if_pos ⟨hzero, htimer⟩]
      refine ⟨_, rfl, ?_⟩
      simpa [hzero, htimer] using h.faithful.setAndBroadcastState .unknown
    · rename_i honline
      dsimp only
      split
      · refine ⟨_, rfl, ?_⟩
        have hfaithful : (({ c.tracker with
            watchStreamFailures := c.tracker.watchStreamFailures + 1 } :
              OnlineStateTracker).clearOnlineStateTimer).Faithful :=
          h.faithful.congr rfl rfl rfl id
        simpa [OnlineStateTracker.clearOnlineStateTimer] using
          hfaithful.logClientOfflineWarningIfNecessary.setAndBroadcastState .offline
      · exact ⟨_, rfl, honline, fun hzero => absurd hzero (Nat.succ_ne_zero _),
          fun htimer => (h.timer htimer).1, fun _ => h.waiting hstarted,
          h.faithful.congr rfl rfl rfl id⟩
  obtain ⟨c', hrestart, hvalid⟩ := Startable.restart (c := { c with tracker := t, isStarted := false })
    ⟨rfl, hnotOnline, hfresh, htimer, hwaiting, hfaithful⟩
  refine ⟨c', ?_, hvalid⟩
  rw [watchStreamWasInterrupted, if_pos (h.enabled hstarted), hfailure]
  exact hrestart

/-- **On every event that can happen** no assertion fails, and the invariant is kept. -/
theorem step_valid (h : c.Valid) {e : ConnectionEvent} (he : c.Enabled e) :
    ∃ c', c.step e = some c' ∧ c'.Valid := by
  cases e with
  | enableNetwork => exact enableNetwork_valid h
  | disableNetwork =>
      refine ⟨_, rfl, ?_⟩
      rw [disableNetwork, h.disableNetworkInternal_eq]
      exact h.updateState_disabled (by decide)
  | userDidChange => exact userDidChange_valid h
  | listenToTarget targetID => exact listenToTarget_valid h he
  | stopListeningToTargetID targetID => exact ⟨_, if_pos he, h.erase targetID⟩
  | watchStreamDidChange => exact watchStreamDidChange_valid h he
  | processTargetError targetID =>
      obtain ⟨_, hmessage, hvalid⟩ := watchStreamDidChange_valid h he.1
      obtain rfl := Option.some_inj.mp hmessage
      exact ⟨_, rfl, hvalid.erase targetID⟩
  | watchStreamWasInterrupted => exact watchStreamWasInterrupted_valid h he
  | onlineStateTimeout =>
      obtain ⟨hunknown, hstarted⟩ := h.timer he
      obtain ⟨t, htimeout, hfaithful, hoffline, htimer⟩ :=
        OnlineStateTracker.onlineStateTimeout_spec h.faithful hunknown
      refine ⟨{ c with tracker := t }, by rw [step, htimeout]; rfl, ?_⟩
      exact {
        timer := fun hruns => absurd (htimer.symm.trans hruns) Bool.noConfusion
        online := fun honline => nomatch hoffline.symm.trans honline
        waiting := fun _ hunknown => nomatch hoffline.symm.trans hunknown
        stopped := fun hnot => absurd (hstarted.symm.trans hnot) Bool.noConfusion
        started := h.started
        enabled := h.enabled
        faithful := hfaithful }

/-! ## What an event changes -/

/-- The targets after an event. -/
def targetsAfter (targets : Finset ℤ) : ConnectionEvent → Finset ℤ
  | .listenToTarget targetID => insert targetID targets
  | .stopListeningToTargetID targetID | .processTargetError targetID => targets.erase targetID
  | _ => targets

/-- Whether the network is enabled after an event. -/
def networkAfter (isNetworkEnabled : Bool) : ConnectionEvent → Bool
  | .enableNetwork => true
  | .disableNetwork => false
  | _ => isNetworkEnabled

/-- The delegate is told more, and the targets and the network are what was asked for. -/
structure Moves (c c' : WatchConnection) (targets : Finset ℤ) (network : Bool) : Prop where
  told : c.tracker.told <+: c'.tracker.told
  listenTargets : c'.listenTargets = targets
  isNetworkEnabled : c'.isNetworkEnabled = network

variable {c' : WatchConnection}

theorem moves_startWatchStream (h : c.startWatchStream = some c') :
    c.Moves c' c.listenTargets c.isNetworkEnabled := by
  unfold startWatchStream at h
  split at h
  · obtain ⟨t, hstart, rfl⟩ := Option.map_eq_some_iff.mp h
    exact ⟨OnlineStateTracker.told_handleWatchStreamStart hstart, rfl, rfl⟩
  · cases h

theorem moves_restart (h : c.restart = some c') :
    c.Moves c' c.listenTargets c.isNetworkEnabled := by
  unfold restart at h
  split at h
  · exact moves_startWatchStream h
  · cases h
    exact ⟨OnlineStateTracker.told_updateState, rfl, rfl⟩

theorem moves_enableNetwork (h : c.enableNetwork = some c') : c.Moves c' c.listenTargets true := by
  unfold enableNetwork at h
  split at h
  · rename_i hnetwork
    cases h
    exact ⟨List.prefix_rfl, rfl, hnetwork⟩
  · obtain ⟨htold, htargets, hnetwork⟩ := moves_restart h
    exact ⟨htold, htargets, hnetwork⟩

theorem disableNetworkInternal_frame (c : WatchConnection) :
    c.disableNetworkInternal.tracker = c.tracker ∧
      c.disableNetworkInternal.listenTargets = c.listenTargets ∧
      c.disableNetworkInternal.isNetworkEnabled = false := by
  unfold disableNetworkInternal
  split
  · exact ⟨rfl, rfl, rfl⟩
  · rename_i hnetwork
    exact ⟨rfl, rfl, Bool.eq_false_iff.mpr hnetwork⟩

theorem step_moves {e : ConnectionEvent} (h : c.step e = some c') :
    c.Moves c' (targetsAfter c.listenTargets e) (networkAfter c.isNetworkEnabled e) := by
  obtain ⟨htracker, htargets, hdisabled⟩ := c.disableNetworkInternal_frame
  cases e with
  | enableNetwork => exact moves_enableNetwork h
  | disableNetwork =>
      cases h
      refine ⟨?_, htargets, hdisabled⟩
      rw [← htracker]
      exact OnlineStateTracker.told_updateState
  | userDidChange =>
      have h : c.userDidChange = some c' := h
      unfold userDidChange at h
      split at h
      · rename_i hnetwork
        obtain ⟨htold, hlisten, henabled⟩ := moves_enableNetwork h
        refine ⟨List.IsPrefix.trans ?_ htold, hlisten.trans htargets, henabled.trans hnetwork.symm⟩
        dsimp only
        rw [htracker]
        exact OnlineStateTracker.told_updateState
      · cases h
        exact ⟨List.prefix_rfl, rfl, rfl⟩
  | listenToTarget targetID =>
      have h : c.listenToTarget targetID = some c' := h
      unfold listenToTarget at h
      split at h
      · cases h
      · dsimp only at h
        split at h
        · obtain ⟨htold, hlisten, hnetwork⟩ := moves_startWatchStream h
          exact ⟨htold, hlisten, hnetwork⟩
        · cases h
          exact ⟨List.prefix_rfl, rfl, rfl⟩
  | stopListeningToTargetID targetID =>
      have h : c.stopListeningToTargetID targetID = some c' := h
      unfold stopListeningToTargetID at h
      split at h
      · cases h
        exact ⟨List.prefix_rfl, rfl, rfl⟩
      · cases h
  | watchStreamDidChange =>
      cases h
      exact ⟨OnlineStateTracker.told_updateState, rfl, rfl⟩
  | processTargetError targetID =>
      cases h
      exact ⟨OnlineStateTracker.told_updateState, rfl, rfl⟩
  | watchStreamWasInterrupted =>
      have h : c.watchStreamWasInterrupted = some c' := h
      unfold watchStreamWasInterrupted at h
      split at h
      · obtain ⟨t, hfailure, hrestart⟩ := Option.bind_eq_some_iff.mp h
        obtain ⟨htold, hlisten, hnetwork⟩ := moves_restart hrestart
        exact ⟨(OnlineStateTracker.told_handleWatchStreamFailure hfailure).trans htold, hlisten,
          hnetwork⟩
      · cases h
  | onlineStateTimeout =>
      obtain ⟨t, htimeout, rfl⟩ := Option.map_eq_some_iff.mp h
      exact ⟨OnlineStateTracker.told_onlineStateTimeout htimeout, rfl, rfl⟩

/-! ## Results about runs -/

variable {es : List ConnectionEvent}

/-- **Every run reaches a state** in which the invariant holds. -/
theorem exists_reached (h : Permitted step Enabled init es) :
    ∃ c, run step init es = some c ∧ c.Valid :=
  run_permitted (P := fun _ c => c.Valid) valid_init
    (fun _ _ _ _ hvalid henabled => step_valid hvalid henabled) h

/-- The client connects, fails, hears of the server, is interrupted, and gives up when the timer
elapses; then its user changes. -/
def connects : List ConnectionEvent :=
  [.enableNetwork, .listenToTarget 2, .watchStreamWasInterrupted, .watchStreamDidChange,
   .watchStreamWasInterrupted, .onlineStateTimeout, .listenToTarget 4, .userDidChange,
   .watchStreamWasInterrupted, .watchStreamWasInterrupted, .stopListeningToTargetID 2]

theorem permitted_connects : Permitted step Enabled init connects := by decide

/-- **The delegate knows the online state.**  Along every run no assertion fails, the delegate is
told of every change and of nothing else, and the developer is warned at most once. -/
theorem states_told (h : Permitted step Enabled init es) :
    ∃ c, run step init es = some c ∧
      (OnlineState.unknown :: c.tracker.told).getLast? = some c.tracker.state ∧
      (OnlineState.unknown :: c.tracker.told).IsChain (· ≠ ·) ∧ c.tracker.warnings ≤ 1 := by
  obtain ⟨c, hrun, hvalid⟩ := exists_reached h
  exact ⟨c, hrun, hvalid.faithful.last, hvalid.faithful.changes,
    Nat.le_of_add_right_le hvalid.faithful.warnings⟩

theorem states_told_connects :
    ∃ c, run step init connects = some c ∧
      (OnlineState.unknown :: c.tracker.told).getLast? = some c.tracker.state ∧
      (OnlineState.unknown :: c.tracker.told).IsChain (· ≠ ·) ∧ c.tracker.warnings ≤ 1 :=
  states_told permitted_connects

/-- **Nobody waits for a connection forever.**  In every state that a run reaches in which a target
is to be watched and the network is enabled, the online state is known, or the timer runs, which
makes the client offline when it elapses.  The client is online only while its stream is started. -/
theorem attempts_settle (h : Permitted step Enabled init es) :
    ∃ c, run step init es = some c ∧
      (c.isNetworkEnabled = true → c.listenTargets ≠ ∅ → c.tracker.state = .unknown →
        c.Enabled .onlineStateTimeout ∧
          ∃ c', c.step .onlineStateTimeout = some c' ∧ c'.tracker.state = .offline) ∧
      (c.tracker.state = .online → c.isStarted = true) := by
  obtain ⟨c, hrun, hvalid⟩ := exists_reached h
  refine ⟨c, hrun, fun hnetwork htargets hunknown => ?_, fun honline => (hvalid.online honline).2⟩
  obtain ⟨t, htimeout, -, hoffline, -⟩ :=
    OnlineStateTracker.onlineStateTimeout_spec hvalid.faithful hunknown
  refine ⟨hvalid.waiting (hvalid.started hnetwork htargets) hunknown, { c with tracker := t }, ?_,
    hoffline⟩
  rw [step, htimeout]
  rfl

theorem attempts_settle_connects :
    ∃ c, run step init connects = some c ∧
      (c.isNetworkEnabled = true → c.listenTargets ≠ ∅ → c.tracker.state = .unknown →
        c.Enabled .onlineStateTimeout ∧
          ∃ c', c.step .onlineStateTimeout = some c' ∧ c'.tracker.state = .offline) ∧
      (c.tracker.state = .online → c.isStarted = true) :=
  attempts_settle permitted_connects

end WatchConnection

end CocoMap
