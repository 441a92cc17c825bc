import CocoMap.BehindReads
import CocoMap.WatchConnection

/-!
# A client and its connection

The online state comes from the connection, and the connection watches what is read.  The two are
put together as the sync engine has them: a listen is passed on to the remote store, a message of
the server makes the client online before it reaches the views, and the sync engine is told of every
change of the online state.
-/

namespace CocoMap

open Transition

structure ConnectedClient (κ υ Q γ : Type) [LinearOrder κ] where
  reading : ReadingClient κ υ Q γ
  connection : WatchConnection

/-- Something happens to the client, or to its watch stream alone. -/
inductive ConnectedEvent (κ υ γ : Type) [LinearOrder κ]
  | reading (e : ReadingEvent κ υ γ)
  | watchStreamDidChange
  | watchStreamWasInterrupted
  | onlineStateTimeout

variable {κ υ Q γ : Type} [LinearOrder κ]

namespace ReadingClient

/-- The target of the query that loses its last listener. -/
def lastListen (c : ReadingClient κ υ Q γ) : Option ℤ := do
  let n ← c.removals.head?
  let query ← c.reads[n]?
  if (c.eventManager.removeListener query n).2 then
    (c.queryViews.lookup query).map QueryView.targetID
  else none

/-- What the remote store hears before an event reaches the sync engine. -/
def heardBefore : ReadingEvent κ υ γ → Option ConnectionEvent
  | .remoteEvent _ _ _ => some .watchStreamDidChange
  | .rejectListen targetID _ => some (.processTargetError targetID)
  | _ => none

/-- What the remote store is asked for after an event. -/
def askedAfter (c : ReadingClient κ υ Q γ) : ReadingEvent κ υ γ → Option ConnectionEvent
  | .client .enableNetwork => some .enableNetwork
  | .client .disableNetwork => some .disableNetwork
  | .client (.userDidChange _) => some .userDidChange
  | .client (.launch _) => some .enableNetwork
  | .getDocument key =>
      if (c.eventManager.queries.lookup key).isNone then
        some (.listenToTarget (c.queryCache.allocateQuery key).1)
      else none
  | .removeListener => c.lastListen.map .stopListeningToTargetID
  | _ => none

end ReadingClient

namespace ConnectedClient

/-- The connection takes a step, and the sync engine is told of the online states. -/
def connect (c : ConnectedClient κ υ Q γ) (e : ConnectionEvent) : Option (ConnectedClient κ υ Q γ) := do
  let connection ← c.connection.step e
  let reading ← (connection.tracker.told.drop c.connection.tracker.told.length).foldlM
    ReadingClient.applyChangedOnlineState c.reading
  return { reading, connection }

variable [DecidableEq υ] [MutationQueue κ Q] [UserQueues υ Q]

/-- The client takes a step.  A new process has a new connection. -/
def read (c : ConnectedClient κ υ Q γ) (e : ReadingEvent κ υ γ) : Option (ConnectedClient κ υ Q γ) :=
  (c.reading.step e).map fun reading =>
    { reading
      connection := match e with
        | .client (.launch _) => .init
        | _ => c.connection }

def step (c : ConnectedClient κ υ Q γ) : ConnectedEvent κ υ γ → Option (ConnectedClient κ υ Q γ)
  | .reading e => do
      let c ← (ReadingClient.heardBefore e).elim (some c) c.connect
      let c' ← c.read e
      (c.reading.askedAfter e).elim (some c') c'.connect
  | .watchStreamDidChange => c.connect .watchStreamDidChange
  | .watchStreamWasInterrupted => c.connect .watchStreamWasInterrupted
  | .onlineStateTimeout => c.connect .onlineStateTimeout

/-- Only a stream that is started brings anything, and the online state is the tracker's. -/
def allows (c : ConnectedClient κ υ Q γ) : ReadingEvent κ υ γ → Bool
  | .remoteEvent _ _ _ | .rejectListen _ _ => c.connection.isStarted
  | .applyChangedOnlineState _ => false
  | _ => true

def Enabled (c : ConnectedClient κ υ Q γ) : ConnectedEvent κ υ γ → Prop
  | .reading e => c.reading.Enabled e ∧ c.allows e = true
  | .watchStreamDidChange => c.connection.Enabled .watchStreamDidChange
  | .watchStreamWasInterrupted => c.connection.Enabled .watchStreamWasInterrupted
  | .onlineStateTimeout => c.connection.Enabled .onlineStateTimeout

instance (c : ConnectedClient κ υ Q γ) : ∀ e, Decidable (c.Enabled e)
  | .reading e => inferInstanceAs (Decidable (c.reading.Enabled e ∧ c.allows e = true))
  | .watchStreamDidChange => inferInstanceAs (Decidable (c.connection.Enabled .watchStreamDidChange))
  | .watchStreamWasInterrupted =>
      inferInstanceAs (Decidable (c.connection.Enabled .watchStreamWasInterrupted))
  | .onlineStateTimeout => inferInstanceAs (Decidable (c.connection.Enabled .onlineStateTimeout))

end ConnectedClient

/-! ## The online state is told -/

namespace EventManager

theorem onlineState_handleViewSnapshot {m : EventManager κ} {s : ViewSnapshot κ}
    {told : EventManager κ × List (ℕ × ViewEvent κ)} (h : m.handleViewSnapshot s = some told) :
    told.1.onlineState = m.onlineState := by
  unfold handleViewSnapshot at h
  split at h
  · cases h
    rfl
  · split at h
    · cases h
    · cases h
      rfl

theorem onlineState_handleViewSnapshots {snapshots : List (ViewSnapshot κ)} {m : EventManager κ}
    {told : EventManager κ × List (ℕ × ViewEvent κ)} (h : m.handleViewSnapshots snapshots = some told) :
    told.1.onlineState = m.onlineState := by
  induction snapshots generalizing m told with
  | nil =>
      cases h
      rfl
  | cons s snapshots ih =>
      obtain ⟨told₁, hfirst, h⟩ := Option.bind_eq_some_iff.mp h
      obtain ⟨told₂, hrest, h⟩ := Option.bind_eq_some_iff.mp h
      cases h
      exact (ih hrest).trans (onlineState_handleViewSnapshot hfirst)

theorem onlineState_addListener {m : EventManager κ} {query : κ} {l : QueryListener κ}
    {told : EventManager κ × List (ℕ × ViewEvent κ)} (h : m.addListener query l = some told) :
    told.1.onlineState = m.onlineState := by
  unfold addListener at h
  dsimp only at h
  split at h
  · cases h
  · cases h
    rfl

end EventManager

namespace ReadingClient

variable {c c' : ReadingClient κ υ Q γ}

/-- The online state of the listeners. -/
def onlineState (c : ReadingClient κ υ Q γ) : OnlineState := c.eventManager.onlineState

theorem onlineState_handleViewSnapshots {snapshots : List (ViewSnapshot κ)}
    (h : c.handleViewSnapshots snapshots = some c') : c'.onlineState = c.onlineState := by
  obtain ⟨told, htold, rfl⟩ := Option.map_eq_some_iff.mp h
  exact EventManager.onlineState_handleViewSnapshots htold

section Frame

variable [DecidableEq υ] [MutationQueue κ Q] [UserQueues υ Q]

theorem onlineState_stepClient {e : ClientEvent κ υ γ} {targetChanges : SortedMap ℤ (TargetChange κ)}
    (h : c.stepClient e targetChanges = some c') : c'.onlineState = c.onlineState := by
  obtain ⟨client, -, hemit⟩ := Option.bind_eq_some_iff.mp h
  have hsame : ∀ (changes : List (Changes κ)) (c₁ : ReadingClient κ υ Q γ),
      changes.foldlM (emitNewSnapshots targetChanges) c₁ = some c' →
        c'.onlineState = c₁.onlineState := by
    intro changes
    induction changes with
    | nil =>
        intro c₁ h
        cases h
        rfl
    | cons changes rest ih =>
        intro c₁ h
        obtain ⟨c₂, hadvance, hrest⟩ := Option.bind_eq_some_iff.mp h
        have hfirst := onlineState_handleViewSnapshots
          (show handleViewSnapshots _ _ = some c₂ from hadvance)
        exact (ih c₂ hrest).trans hfirst
  have hall := hsame _ _ hemit
  exact hall

theorem onlineState_listenToQuery {query : κ} (h : c.listenToQuery query = some c') :
    c'.onlineState = c.onlineState := by
  unfold listenToQuery at h
  cases hview : c.queryViews.lookup query with
  | some queryView =>
      rw [hview] at h
      cases h
  | none =>
      rw [hview] at h
      obtain ⟨client, -, h⟩ := Option.bind_eq_some_iff.mp h
      obtain ⟨docs, -, h⟩ := Option.bind_eq_some_iff.mp h
      obtain ⟨s, -, h⟩ := Option.bind_eq_some_iff.mp h
      have hsame := onlineState_handleViewSnapshots h
      exact hsame

theorem onlineState_releaseQuery {query : κ} (h : c.releaseQuery query = some c') :
    c'.onlineState = c.onlineState := by
  obtain ⟨targetID, -, h⟩ := Option.bind_eq_some_iff.mp h
  obtain ⟨client, -, h⟩ := Option.bind_eq_some_iff.mp h
  cases h
  rfl

/-- Apart from a new process, only the tracker changes the online state. -/
theorem onlineState_step {e : ReadingEvent κ υ γ} (h : c.step e = some c')
    (hlaunch : ∀ user, e ≠ .client (.launch user)) (honline : ∀ s, e ≠ .applyChangedOnlineState s) :
    c'.onlineState = c.onlineState := by
  cases e with
  | client e =>
      cases e with
      | launch user => exact absurd rfl (hlaunch user)
      | _ => exact onlineState_stepClient h
  | getDocument key =>
      obtain ⟨told, hadd, h'⟩ := Option.bind_eq_some_iff.mp h
      have hsame := EventManager.onlineState_addListener hadd
      dsimp only at h'
      split at h'
      · exact (onlineState_listenToQuery h').trans hsame
      · cases h'
        exact hsame
  | removeListener =>
      obtain ⟨n, -, h'⟩ := Option.bind_eq_some_iff.mp h
      obtain ⟨query, -, h'⟩ := Option.bind_eq_some_iff.mp h'
      have hsame := EventManager.onlineState_removeListener c.eventManager query n
      dsimp only at h'
      split at h'
      · unfold stopListeningToQuery at h'
        split at h'
        · exact (onlineState_releaseQuery h').trans hsame
        · cases h'
      · cases h'
        exact hsame
  | deliver => exact congrArg EventManager.onlineState (deliver_frame h).2.2.1
  | remoteEvent snapshotVersion documentUpdates targetChanges =>
      rw [step, applyRemoteEvent] at h
      split at h
      · cases h
      · have hsame := onlineState_stepClient h
        exact hsame
  | rejectListen targetID error =>
      obtain ⟨queryView, -, h'⟩ := Option.bind_eq_some_iff.mp h
      obtain ⟨c₁, hrelease, h'⟩ := Option.bind_eq_some_iff.mp h'
      have hsame := onlineState_releaseQuery hrelease
      cases h'
      exact hsame
  | applyChangedOnlineState s => exact absurd rfl (honline s)

omit [DecidableEq υ] [MutationQueue κ Q] [UserQueues υ Q] in
theorem client_applyChangedOnlineState {state : OnlineState}
    (h : c.applyChangedOnlineState state = some c') : c'.client = c.client := by
  obtain ⟨c₁, hadvance, rfl⟩ := Option.map_eq_some_iff.mp h
  have hclient := client_advanceViews hadvance
  exact hclient

end Frame

/-! ## The targets -/

/-- The targets that the local store has. -/
def targets (c : ReadingClient κ υ Q γ) : Finset ℤ := c.client.localStore.targetIDs.toFinset

/-- What the remote store hears and is asked for makes up for the change of the targets. -/
def targetsAfter (c : ReadingClient κ υ Q γ) (e : ReadingEvent κ υ γ) : Finset ℤ :=
  let heard := (heardBefore e).elim c.targets (WatchConnection.targetsAfter c.targets)
  (c.askedAfter e).elim heard (WatchConnection.targetsAfter heard)

/-- Where nobody listens there is no view. -/
theorem Following.lookup_eq_none {doc : κ → Option ExistingDocument} (h : c.Following doc)
    {query : κ} (hnone : c.eventManager.queries.lookup query = none) :
    c.queryViews.lookup query = none := by
  have hfollows := h query
  rw [hnone] at hfollows
  generalize c.queryViews.lookup query = view at hfollows
  cases hfollows
  rfl

section Targets

variable [DecidableEq υ] [MutationQueue κ Q] [UserQueues υ Q] [LawfulUserQueues κ υ Q]
  {pending : υ → Pending κ}

omit [LawfulUserQueues κ υ Q] in
theorem targets_releaseQuery (h : c.Targeted) {targetID : ℤ}
    (hstep : c.client.step (.releaseQuery targetID) = some c'.client) :
    c'.targets = c.targets.erase targetID := by
  obtain ⟨s, hs, hclient⟩ := Option.map_eq_some_iff.mp hstep
  have htargets : c'.client.localStore.targetIDs = c.client.localStore.targetIDs.erase targetID := by
    rw [← hclient]
    exact LocalStore.targetIDs_releaseQuery hs
  ext t
  rw [targets, htargets, List.mem_toFinset, h.nodup.mem_erase_iff, Finset.mem_erase, targets,
    List.mem_toFinset]

omit [DecidableEq υ] [MutationQueue κ Q] [UserQueues υ Q] [LawfulUserQueues κ υ Q] in
/-- The target of a view that is listened to. -/
theorem Targeted.isSome_queryViewByTarget (h : c.Targeted) (targetID : ℤ) :
    (c.queryViewByTarget targetID).isSome = true ↔ targetID ∈ c.targets := by
  rw [targets, List.mem_toFinset, h.mem_iff, queryViewByTarget, Option.isSome_map,
    List.find?_isSome]
  constructor
  · rintro ⟨entry, hentry, htarget⟩
    exact ⟨entry.1, entry.2, SortedMap.lookup_eq_some_iff.mpr hentry, of_decide_eq_true htarget⟩
  · rintro ⟨query, queryView, hview, htarget⟩
    exact ⟨(query, queryView), SortedMap.lookup_eq_some_iff.mp hview, decide_eq_true htarget⟩

omit [DecidableEq υ] in
/-- The target of the query that loses its last listener is one of them. -/
theorem Invariant.lastListen_mem (h : c.Invariant pending) {targetID : ℤ}
    (hlast : c.lastListen = some targetID) : targetID ∈ c.targets := by
  obtain ⟨n, -, hlast⟩ := Option.bind_eq_some_iff.mp hlast
  obtain ⟨query, -, hlast⟩ := Option.bind_eq_some_iff.mp hlast
  split at hlast
  · rename_i hgone
    obtain ⟨⟨info, hinfo⟩, -⟩ := EventManager.removeListener_last hgone
    obtain ⟨queryView, hview⟩ := h.following.exists_view hinfo
    rw [hview, Option.map_some, Option.some_inj] at hlast
    rw [targets, List.mem_toFinset, h.targeted.mem_iff]
    exact ⟨query, queryView, hview, hlast⟩
  · cases hlast

/-- **The remote store hears of every target** that comes or goes. -/
theorem targets_step (h : c.Invariant pending) {e : ReadingEvent κ υ γ} (he : c.Enabled e)
    (hstep : c.step e = some c') (hlaunch : ∀ user, e ≠ .client (.launch user)) :
    c'.targets = c.targetsAfter e := by
  have hsame : c'.client.localStore.targetIDs = c.client.localStore.targetIDs →
      c'.targets = c.targets := fun heq => by rw [targets, heq, targets]
  cases e with
  | client e =>
      obtain ⟨he, hown⟩ := he
      have hnot : ∀ user, e ≠ .launch user := fun user heq => hlaunch user (heq ▸ rfl)
      have hclient : c.client.step e = some c'.client := by
        cases e with
        | launch user => exact absurd rfl (hnot user)
        | _ => exact client_stepClient hstep
      have htold := FirestoreClient.step_told h.client he hnot
        (fun _ heq => by rw [heq] at hown; cases hown) (fun _ heq => by rw [heq] at hown; cases hown)
        hclient
      rw [hsame (targetIDs_of_told htold)]
      cases e <;> rfl
  | getDocument key =>
      obtain ⟨told, -, h'⟩ := Option.bind_eq_some_iff.mp hstep
      dsimp only at h'
      split at h'
      · rename_i hfirst
        obtain ⟨hview, hclient⟩ := client_listenToQuery h'
        obtain ⟨targetID, cache, hallocate, htarget, -⟩ := h.targeted.allocateQuery hview
        dsimp only at hclient
        rw [hallocate, FirestoreClient.step,
          (LocalStore.allocateQuery_spec h.client.store htarget).1] at hclient
        have htargets : c'.client.localStore.targetIDs =
            targetID :: c.client.localStore.targetIDs := by
          rw [← Option.some_inj.mp hclient]
        rw [targetsAfter, askedAfter, if_pos hfirst, hallocate, targets, htargets,
          List.toFinset_cons]
        rfl
      · rename_i hlisted
        cases h'
        rw [targetsAfter, askedAfter, if_neg hlisted]
        rfl
  | removeListener =>
      obtain ⟨n, hn, h'⟩ := Option.bind_eq_some_iff.mp hstep
      obtain ⟨query, hquery, h'⟩ := Option.bind_eq_some_iff.mp h'
      have hlast : c.lastListen = if (c.eventManager.removeListener query n).2 then
          (c.queryViews.lookup query).map QueryView.targetID else none := by
        rw [lastListen, hn, Option.bind_eq_bind, Option.bind_some, hquery]
        rfl
      dsimp only at h'
      split at h'
      · rename_i hgone
        unfold stopListeningToQuery at h'
        split at h'
        · rename_i hlisted
          obtain ⟨queryView, hview⟩ := Option.isSome_iff_exists.mp hlisted
          have hview : c.queryViews.lookup query = some queryView := hview
          obtain ⟨targetID, htarget, hclient⟩ := client_releaseQuery h'
          have heq := (h.targeted.allocated query queryView hview).symm.trans htarget
          have htargets := targets_releaseQuery h.targeted hclient
          rw [htargets, targetsAfter, askedAfter, hlast, if_pos hgone, hview, Option.map_some, heq]
          rfl
        · cases h'
      · rename_i hlisted
        cases h'
        rw [targetsAfter, askedAfter, hlast, if_neg hlisted]
        rfl
  | deliver =>
      rw [hsame (by rw [(deliver_frame hstep).1])]
      rfl
  | remoteEvent snapshotVersion documentUpdates targetChanges =>
      rw [step, applyRemoteEvent] at hstep
      split at hstep
      · cases hstep
      · have hclient := client_stepClient hstep
        have htold := FirestoreClient.step_told h.client he.1 (fun _ heq => by cases heq)
          (fun _ heq => by cases heq) (fun _ heq => by cases heq) hclient
        rw [hsame (targetIDs_of_told htold)]
        rfl
  | rejectListen targetID error =>
      obtain ⟨queryView, hview, h'⟩ := Option.bind_eq_some_iff.mp hstep
      obtain ⟨c₁, hrelease, h'⟩ := Option.bind_eq_some_iff.mp h'
      obtain ⟨⟨query, _⟩, hfind, rfl⟩ := Option.map_eq_some_iff.mp hview
      have hlookup := SortedMap.lookup_eq_some_iff.mpr (List.mem_of_find?_eq_some hfind)
      obtain ⟨targetID', htarget, hclient⟩ := client_releaseQuery hrelease
      rw [h.following.query_eq hlookup, h.targeted.allocated _ _ hlookup, Option.some_inj] at htarget
      have heq : targetID' = targetID := htarget.symm.trans (by simpa using List.find?_some hfind)
      have htargets := targets_releaseQuery h.targeted hclient
      cases h'
      rw [heq] at htargets
      exact htargets
  | applyChangedOnlineState state =>
      rw [hsame (by rw [client_applyChangedOnlineState hstep])]
      rfl

/-! ## The sync engine is told -/

omit [DecidableEq υ] in
/-- The sync engine is told of one state after the other. -/
theorem tell_spec (states : List OnlineState) (h : c.Invariant pending) :
    ∃ c', states.foldlM applyChangedOnlineState c = some c' ∧ c'.Invariant pending ∧
      c'.client = c.client ∧ c'.reads = c.reads ∧ c'.begun = c.begun ∧
      c'.onlineState = states.getLast?.getD c.onlineState := by
  induction states generalizing c with
  | nil => exact ⟨c, rfl, h, rfl, rfl, rfl, rfl⟩
  | cons state states ih =>
      obtain ⟨c₁, hstep, hinvariant, -⟩ := applyChangedOnlineState_safe h state
      obtain ⟨hstate, hreads, hbegun⟩ := applyChangedOnlineState_frame hstep
      obtain ⟨c', hrest, hinvariant', hclient', hreads', hbegun', honline'⟩ := ih hinvariant
      refine ⟨c', ?_, hinvariant', hclient'.trans (client_applyChangedOnlineState hstep),
        hreads'.trans hreads, hbegun'.trans hbegun, ?_⟩
      · rw [List.foldlM_cons, hstep]
        exact hrest
      · rw [honline', onlineState, hstate, List.getLast?_cons]
        rfl

/-- A new process watches nothing. -/
theorem launch_spec (h : c.Invariant pending) (user : υ) :
    ∃ c' pending', c.step (.client (.launch user)) = some c' ∧ c'.Invariant pending' ∧
      c'.onlineState = .unknown ∧ c'.targets = ∅ := by
  obtain ⟨c', pending', hlaunch, hinvariant, -⟩ := launch_safe h user
  refine ⟨c', pending', hlaunch, hinvariant, ?_⟩
  obtain ⟨client, hclient, rfl⟩ := Option.map_eq_some_iff.mp hlaunch
  obtain ⟨s, hs, henable⟩ := Option.bind_eq_some_iff.mp hclient
  refine ⟨rfl, ?_⟩
  change client.localStore.targetIDs.toFinset = ∅
  rw [(FirestoreClient.remoteOnly_enableNetwork henable).localStore, LocalStore.targetIDs_launch hs]
  rfl

omit [DecidableEq υ] [MutationQueue κ Q] [UserQueues υ Q] [LawfulUserQueues κ υ Q] in
/-- What the server speaks of does not depend on the online state. -/
theorem Enabled.of_heard {e : ReadingEvent κ υ γ} (he : c.Enabled e) {b : ConnectionEvent}
    (hheard : heardBefore e = some b) (h : c.Targeted) (h' : c'.Targeted)
    (hclient : c'.client = c.client) : c'.Enabled e := by
  have hsome : ∀ targetID, (c.queryViewByTarget targetID).isSome = true →
      (c'.queryViewByTarget targetID).isSome = true := by
    intro targetID hview
    rw [h'.isSome_queryViewByTarget, targets, hclient]
    exact (h.isSome_queryViewByTarget targetID).mp hview
  cases e with
  | remoteEvent snapshotVersion documentUpdates targetChanges =>
      exact ⟨hclient ▸ he.1, fun entry hentry => hsome _ (he.2 entry hentry)⟩
  | rejectListen targetID error => exact hsome targetID he
  | _ => cases hheard

end Targets

end ReadingClient

end CocoMap
