import CocoMap.ConnectedClient
import CocoMap.Network

/-!
# Reads that time out

`ReadHistory` leaves a read waiting for the server until the client learns that it is offline, and
`WatchConnection` has a timer that makes the client offline.  Here the two meet: the listeners know
the online state of the connection, the connection watches what is read, and so no read waits
forever.
-/

namespace CocoMap

open Transition

namespace ConnectedClient

variable {κ υ Q γ : Type} [LinearOrder κ] {c c' : ConnectedClient κ υ Q γ}

section Steps

variable [DecidableEq υ] [MutationQueue κ Q] [UserQueues υ Q] [LawfulUserQueues κ υ Q]
  {pending : υ → Pending κ}

/-- What holds at every moment of a step: the listeners know the online state. -/
structure Coupled (c : ConnectedClient κ υ Q γ) (pending : υ → Pending κ) : Prop where
  reading : c.reading.Invariant pending
  connection : c.connection.Valid
  online : c.reading.onlineState = c.connection.tracker.state

/-- **What holds between two events**: the targets that are watched are those of the local store, and
the two streams exist together. -/
structure Linked (c : ConnectedClient κ υ Q γ) (pending : υ → Pending κ) : Prop
    extends c.Coupled pending where
  listenTargets : c.connection.listenTargets = c.reading.targets
  network : c.connection.isNetworkEnabled = c.reading.client.isNetworkEnabled

/-- The connection takes a step, and the client behind the reads does not. -/
structure Connects (c : ConnectedClient κ υ Q γ) (e : ConnectionEvent)
    (c' : ConnectedClient κ υ Q γ) : Prop where
  client : c'.reading.client = c.reading.client
  reads : c'.reading.reads = c.reading.reads
  begun : c'.reading.begun = c.reading.begun
  connection : c.connection.step e = some c'.connection

omit [DecidableEq υ] [MutationQueue κ Q] [UserQueues υ Q] [LawfulUserQueues κ υ Q] in
theorem Connects.moves {e : ConnectionEvent} (h : c.Connects e c') :
    c.connection.Moves c'.connection (WatchConnection.targetsAfter c.connection.listenTargets e)
      (WatchConnection.networkAfter c.connection.isNetworkEnabled e) :=
  WatchConnection.step_moves h.connection

omit [DecidableEq υ] [MutationQueue κ Q] [UserQueues υ Q] [LawfulUserQueues κ υ Q] in
theorem Connects.targets {e : ConnectionEvent} (h : c.Connects e c') :
    c'.reading.targets = c.reading.targets := by
  rw [ReadingClient.targets, h.client, ReadingClient.targets]

omit [DecidableEq υ] in
/-- The sync engine is told of the online state, and nothing else is changed for it. -/
theorem connect_spec (h : c.Coupled pending) {e : ConnectionEvent} (he : c.connection.Enabled e) :
    ∃ c', c.connect e = some c' ∧ c'.Coupled pending ∧ c.Connects e c' := by
  obtain ⟨connection, hstep, hvalid⟩ := WatchConnection.step_valid h.connection he
  obtain ⟨⟨states, htold⟩, -, -⟩ := WatchConnection.step_moves hstep
  obtain ⟨reading, htell, hinvariant, hclient, hreads, hbegun, honline⟩ :=
    ReadingClient.tell_spec states h.reading
  refine ⟨⟨reading, connection⟩, ?_, ⟨hinvariant, hvalid, ?_⟩, hclient, hreads, hbegun, hstep⟩
  · rw [connect, hstep, Option.bind_eq_bind, Option.bind_some, ← htold, List.drop_left, htell]
    rfl
  · rw [honline, h.online]
    exact (h.connection.faithful.state_eq hvalid.faithful htold.symm).symm

/-- Apart from a new process, the connection is not changed by what the client does. -/
theorem read_spec (h : c.Coupled pending) {e : ReadingEvent κ υ γ} (he : c.reading.Enabled e)
    (hlaunch : ∀ user, e ≠ .client (.launch user)) (honline : ∀ s, e ≠ .applyChangedOnlineState s) :
    ∃ c' pending', c.read e = some c' ∧ c'.Coupled pending' ∧ c'.connection = c.connection ∧
      c'.reading.targets = c.reading.targetsAfter e ∧
      c'.reading.client.isNetworkEnabled =
        e.own.foldl FirestoreClient.networkAfter c.reading.client.isNetworkEnabled := by
  obtain ⟨reading, pending', hstep, hinvariant, -⟩ := ReadingClient.step_safe h.reading he
  refine ⟨⟨reading, c.connection⟩, pending', ?_, ⟨hinvariant, h.connection, ?_⟩, rfl,
    ReadingClient.targets_step h.reading he hstep hlaunch,
    ReadingClient.isNetworkEnabled_step h.reading he hstep⟩
  · unfold read
    rw [hstep, Option.map_some]
    congr 2
    split
    · exact absurd rfl (hlaunch _)
    · rfl
  · exact (ReadingClient.onlineState_step hstep hlaunch honline).trans h.online

omit [DecidableEq υ] in
/-- The remote store can do what it is asked for. -/
theorem Linked.enabled (h : c.Linked pending) {e : ReadingEvent κ υ γ} {a : ConnectionEvent}
    (hasked : c.reading.askedAfter e = some a) : c.connection.Enabled a := by
  cases e with
  | client e =>
      cases e with
      | enableNetwork | disableNetwork | userDidChange | launch =>
          cases hasked
          trivial
      | _ => cases hasked
  | getDocument key =>
      rw [ReadingClient.askedAfter] at hasked
      split at hasked
      · rename_i hfirst
        cases hasked
        have hview := h.reading.following.lookup_eq_none (Option.isNone_iff_eq_none.mp hfirst)
        obtain ⟨targetID, cache, hallocate, htarget, -⟩ := h.reading.targeted.allocateQuery hview
        rw [hallocate]
        change targetID ∉ c.connection.listenTargets
        rw [h.listenTargets, ReadingClient.targets, List.mem_toFinset]
        exact htarget
      · cases hasked
  | removeListener =>
      obtain ⟨targetID, hlast, rfl⟩ := Option.map_eq_some_iff.mp hasked
      change targetID ∈ c.connection.listenTargets
      rw [h.listenTargets]
      exact h.reading.lastListen_mem hlast
  | _ => cases hasked

omit [DecidableEq υ] [MutationQueue κ Q] [UserQueues υ Q] [LawfulUserQueues κ υ Q] in
/-- Both streams are told of the network. -/
theorem own_asked (c : ConnectedClient κ υ Q γ) (e : ReadingEvent κ υ γ)
    (hlaunch : ∀ user, e ≠ .client (.launch user)) (isNetworkEnabled : Bool) :
    e.own.foldl FirestoreClient.networkAfter isNetworkEnabled =
      (c.reading.askedAfter e).elim isNetworkEnabled
        (WatchConnection.networkAfter isNetworkEnabled) := by
  cases e with
  | client e =>
      cases e with
      | launch user => exact absurd rfl (hlaunch user)
      | _ => rfl
  | getDocument key =>
      rw [ReadingClient.askedAfter]
      split <;> rfl
  | removeListener =>
      rw [ReadingClient.askedAfter]
      cases c.reading.lastListen <;> rfl
  | _ => rfl

omit [DecidableEq υ] in
/-- Only a stream that is started is heard. -/
theorem Linked.heard (h : c.Linked pending) {e : ReadingEvent κ υ γ} {b : ConnectionEvent}
    (he : c.reading.Enabled e) (hallows : c.allows e = true)
    (hheard : ReadingClient.heardBefore e = some b) : c.connection.Enabled b := by
  cases e with
  | remoteEvent snapshotVersion documentUpdates targetChanges =>
      cases hheard
      exact hallows
  | rejectListen targetID error =>
      cases hheard
      refine ⟨hallows, ?_⟩
      rw [h.listenTargets]
      exact (h.reading.targeted.isSome_queryViewByTarget targetID).mp he
  | _ => cases hheard

/-- A message is heard before it reaches the views. -/
theorem step_heard (h : c.Linked pending) {e : ReadingEvent κ υ γ} {b : ConnectionEvent}
    (he : c.reading.Enabled e) (hallows : c.allows e = true)
    (hheard : ReadingClient.heardBefore e = some b) :
    ∃ c' pending', c.step (.reading e) = some c' ∧ c'.Linked pending' := by
  obtain ⟨c₁, hconnect, hcoupled, hconnects⟩ :=
    connect_spec h.toCoupled (h.heard he hallows hheard)
  have he₁ := he.of_heard hheard h.reading.targeted hcoupled.reading.targeted hconnects.client
  obtain ⟨c', pending', hread, hcoupled', hconnection, htargets, hnetwork⟩ := read_spec hcoupled he₁
    (fun user heq => by rw [heq] at hheard; cases hheard)
    (fun s heq => by rw [heq] at hheard; cases hheard)
  have hasked : c₁.reading.askedAfter e = none := by
    cases e with
    | remoteEvent | rejectListen => rfl
    | _ => cases hheard
  refine ⟨c', pending', ?_, hcoupled', ?_, ?_⟩
  · rw [step, hheard, Option.elim_some, hconnect, Option.bind_eq_bind, Option.bind_some, hread,
      Option.bind_some, hasked]
    rfl
  · rw [hconnection, hconnects.moves.listenTargets, h.listenTargets, htargets,
      ReadingClient.targetsAfter, hasked, hheard, hconnects.targets]
    rfl
  · rw [hconnection, hconnects.moves.isNetworkEnabled, hnetwork, hconnects.client, ← h.network]
    cases e with
    | remoteEvent | rejectListen =>
        cases hheard
        rfl
    | _ => cases hheard

/-- What the client asks for is asked for after its step. -/
theorem step_asked (h : c.Linked pending) {e : ReadingEvent κ υ γ} (he : c.reading.Enabled e)
    (hheard : ReadingClient.heardBefore e = none)
    (hlaunch : ∀ user, e ≠ .client (.launch user)) (honline : ∀ s, e ≠ .applyChangedOnlineState s) :
    ∃ c' pending', c.step (.reading e) = some c' ∧ c'.Linked pending' := by
  obtain ⟨c₁, pending', hread, hcoupled, hconnection, htargets, hnetwork⟩ :=
    read_spec h.toCoupled he hlaunch honline
  rw [own_asked c e hlaunch, ← h.network] at hnetwork
  rw [ReadingClient.targetsAfter, hheard, Option.elim_none, ← h.listenTargets] at htargets
  cases hasked : c.reading.askedAfter e with
  | none =>
      rw [hasked] at htargets hnetwork
      refine ⟨c₁, pending', ?_, hcoupled, ?_, ?_⟩
      · rw [step, hheard, Option.elim_none, Option.bind_eq_bind, Option.bind_some, hread,
          Option.bind_some, hasked]
        rfl
      · rw [hconnection, htargets]
        rfl
      · rw [hconnection, hnetwork]
        rfl
  | some a =>
      rw [hasked] at htargets hnetwork
      have henabled : c₁.connection.Enabled a := hconnection ▸ h.enabled hasked
      obtain ⟨c', hconnect, hcoupled', hconnects⟩ := connect_spec hcoupled henabled
      refine ⟨c', pending', ?_, hcoupled', ?_, ?_⟩
      · rw [step, hheard, Option.elim_none, Option.bind_eq_bind, Option.bind_some, hread,
          Option.bind_some, hasked]
        exact hconnect
      · rw [hconnects.moves.listenTargets, hconnection, hconnects.targets]
        exact htargets.symm
      · rw [hconnects.moves.isNetworkEnabled, hconnection, hconnects.client]
        exact hnetwork.symm

theorem step_launch (h : c.Linked pending) (user : υ) :
    ∃ c' pending', c.step (.reading (.client (.launch user))) = some c' ∧ c'.Linked pending' := by
  obtain ⟨reading, pending', hlaunch, hinvariant, hunknown, hnone⟩ :=
    ReadingClient.launch_spec h.reading user
  have hstarts : reading.client.isNetworkEnabled = true :=
    ReadingClient.isNetworkEnabled_step h.reading (e := .client (.launch user)) ⟨trivial, rfl⟩ hlaunch
  have hcoupled : Coupled ⟨reading, .init⟩ pending' :=
    ⟨hinvariant, WatchConnection.valid_init, hunknown⟩
  obtain ⟨c', hconnect, hcoupled', hconnects⟩ :=
    connect_spec (e := .enableNetwork) hcoupled trivial
  refine ⟨c', pending', ?_, hcoupled', ?_, ?_⟩
  · change (c.read (.client (.launch user))).bind _ = _
    rw [read, hlaunch, Option.map_some, Option.bind_some]
    exact hconnect
  · rw [hconnects.moves.listenTargets, hconnects.targets]
    exact hnone.symm
  · rw [hconnects.moves.isNetworkEnabled, hconnects.client]
    exact hstarts.symm

/-- **On every event that can happen** no assertion fails, and what holds between two events is
kept. -/
theorem step_linked (h : c.Linked pending) {e : ConnectedEvent κ υ γ} (he : c.Enabled e) :
    ∃ c' pending', c.step e = some c' ∧ c'.Linked pending' := by
  have halone : ∀ {a : ConnectionEvent}, c.connection.Enabled a →
      WatchConnection.targetsAfter c.connection.listenTargets a = c.connection.listenTargets →
      WatchConnection.networkAfter c.connection.isNetworkEnabled a = c.connection.isNetworkEnabled →
      ∃ c' pending', c.connect a = some c' ∧ c'.Linked pending' := by
    intro a ha htargets hnetwork
    obtain ⟨c', hconnect, hcoupled, hconnects⟩ := connect_spec h.toCoupled ha
    refine ⟨c', pending, hconnect, hcoupled, ?_, ?_⟩
    · rw [hconnects.moves.listenTargets, htargets, h.listenTargets, hconnects.targets]
    · rw [hconnects.moves.isNetworkEnabled, hnetwork, h.network, hconnects.client]
  cases e with
  | reading e =>
      obtain ⟨he, hallows⟩ := he
      by_cases hlaunch : ∃ user, e = .client (.launch user)
      · obtain ⟨user, rfl⟩ := hlaunch
        exact step_launch h user
      · cases hheard : ReadingClient.heardBefore e with
        | some b => exact step_heard h he hallows hheard
        | none =>
            exact step_asked h he hheard (fun user heq => hlaunch ⟨user, heq⟩)
              (fun s heq => by rw [heq] at hallows; cases hallows)
  | watchStreamDidChange => exact halone he rfl rfl
  | watchStreamWasInterrupted => exact halone he rfl rfl
  | onlineStateTimeout => exact halone he rfl rfl

/-! ## The queue of the user -/

omit [LawfulUserQueues κ υ Q] in
/-- What is delivered does not concern the connection. -/
theorem run_deliveries {deliveries : List (ReadingEvent κ υ γ)} (hall : ∀ e ∈ deliveries, e = .deliver)
    {reading reading' : ReadingClient κ υ Q γ}
    (hpermitted : Permitted ReadingClient.step ReadingClient.Enabled reading deliveries)
    (hrun : run ReadingClient.step reading deliveries = some reading') (connection : WatchConnection) :
    Permitted step Enabled ⟨reading, connection⟩ (deliveries.map .reading) ∧
      run step ⟨reading, connection⟩ (deliveries.map .reading) = some ⟨reading', connection⟩ := by
  induction deliveries generalizing reading with
  | nil =>
      cases hrun
      exact ⟨trivial, rfl⟩
  | cons e deliveries ih =>
      obtain rfl := hall e List.mem_cons_self
      obtain ⟨henabled, hrest⟩ := hpermitted
      obtain ⟨reading₁, hdeliver, hrun⟩ := run_cons_eq_some.mp hrun
      obtain ⟨hpermitted', hrun'⟩ := ih (fun e he => hall e (List.mem_cons_of_mem _ he))
        (hrest reading₁ hdeliver) hrun
      have hstep : step ⟨reading, connection⟩ (.reading .deliver) =
          some (⟨reading₁, connection⟩ : ConnectedClient κ υ Q γ) := by
        change (read ⟨reading, connection⟩ .deliver).bind _ = _
        unfold read
        rw [hdeliver]
        rfl
      refine ⟨⟨⟨henabled, rfl⟩, fun c hc => ?_⟩, run_cons_eq_some.mpr ⟨_, hstep, hrun'⟩⟩
      cases hstep.symm.trans hc
      exact hpermitted'

/-- Every read of the process is answered when the timer elapses and the queue of the user has run. -/
def TimesOut (c : ConnectedClient κ υ Q γ) : Prop :=
  ∃ deliveries c', (∀ e ∈ deliveries, e = .reading .deliver) ∧
    Permitted step Enabled c (.onlineStateTimeout :: deliveries) ∧
    run step c (.onlineStateTimeout :: deliveries) = some c' ∧
    ∀ n, c.reading.begun ≤ n → n < c.reading.reads.length → n ∈ c'.reading.answered.map Prod.fst

theorem Linked.timesOut (h : c.Linked pending) (htimer : c.Enabled .onlineStateTimeout) :
    c.TimesOut := by
  obtain ⟨c₁, hconnect, hcoupled, hconnects⟩ :=
    connect_spec h.toCoupled (show c.connection.Enabled .onlineStateTimeout from htimer)
  have hoffline : c₁.reading.onlineState = .offline := by
    obtain ⟨t, htimeout, -, hoffline, -⟩ := OnlineStateTracker.onlineStateTimeout_spec
      h.connection.faithful (h.connection.timer htimer).1
    obtain ⟨t', htimeout', heq⟩ := Option.map_eq_some_iff.mp hconnects.connection
    cases htimeout.symm.trans htimeout'
    rw [hcoupled.online, ← heq]
    exact hoffline
  obtain ⟨deliveries, reading', hall, hpermitted, hrun, -, hanswered⟩ :=
    hcoupled.reading.exists_deliveries hoffline
  obtain ⟨hpermitted', hrun'⟩ := run_deliveries hall hpermitted hrun c₁.connection
  refine ⟨deliveries.map .reading, ⟨reading', c₁.connection⟩, fun e he => ?_,
    ⟨htimer, fun c₂ hc₂ => ?_⟩, run_cons_eq_some.mpr ⟨c₁, hconnect, hrun'⟩, ?_⟩
  · obtain ⟨delivery, hdelivery, rfl⟩ := List.mem_map.mp he
    rw [hall delivery hdelivery]
  · cases (show some c₁ = some c₂ from hconnect.symm.trans hc₂)
    exact hpermitted'
  · rw [← hconnects.reads, ← hconnects.begun]
    exact hanswered

/-- **A read that waits** has a stream that is started, and is online, or times out. -/
theorem Linked.waits (h : c.Linked pending) {n : ℕ} (hwaits : c.reading.Waits n)
    (hnetwork : c.connection.isNetworkEnabled = true) :
    c.connection.isStarted = true ∧ (c.connection.tracker.state = .online ∨ c.TimesOut) := by
  obtain ⟨key, queryView, -, hview, -, hnot⟩ := hwaits
  have htarget : queryView.targetID ∈ c.connection.listenTargets := by
    rw [h.listenTargets, ReadingClient.targets, List.mem_toFinset, h.reading.targeted.mem_iff]
    exact ⟨key, queryView, hview, rfl⟩
  have hstarted := h.connection.started hnetwork (Finset.ne_empty_of_mem htarget)
  refine ⟨hstarted, ?_⟩
  cases hstate : c.connection.tracker.state with
  | online => exact Or.inl rfl
  | unknown => exact Or.inr (h.timesOut (h.connection.waiting hstarted hstate))
  | offline => exact absurd (h.online.trans hstate) hnot

end Steps

/-! ## Results about runs -/

variable {userID : String} {es : List (ConnectedEvent κ String γ)}

/-- The client of a new device. -/
def init (userID : String) : ConnectedClient κ String (LevelDBMutationQueue κ) γ where
  reading := .init userID
  connection := .init

theorem linked_init (userID : String) :
    (init userID : ConnectedClient κ String (LevelDBMutationQueue κ) γ).Linked
      fun _ => Pending.init 0 where
  reading := ReadingClient.invariant_init userID
  connection := WatchConnection.valid_init
  online := rfl
  listenTargets := rfl
  network := rfl

/-- **Every run reaches a state** in which the client and its connection fit together. -/
theorem exists_reached (h : Permitted step Enabled
      (init userID : ConnectedClient κ String (LevelDBMutationQueue κ) γ) es) :
    ∃ c pending, run step (init userID) es = some c ∧ c.Linked pending := by
  obtain ⟨c, hrun, pending, hlinked⟩ := run_permitted (P := fun _ c => ∃ pending, c.Linked pending)
    ⟨_, linked_init userID⟩
    (fun _ c e _ ⟨pending, hlinked⟩ henabled => by
      obtain ⟨c', pending', hstep, hlinked'⟩ := step_linked hlinked henabled
      exact ⟨c', hstep, pending', hlinked'⟩) h
  exact ⟨c, pending, hrun, hlinked⟩

/-- A document is read before the server is heard of; the attempt to connect fails once. -/
def readsUnconnected : List (ConnectedEvent ℕ String ℕ) :=
  [.reading (.client (.launch "a")), .reading (.getDocument 0), .watchStreamWasInterrupted,
   .reading (.getDocument 1)]

theorem permitted_readsUnconnected : Permitted step Enabled
    (init "a" : ConnectedClient ℕ String (LevelDBMutationQueue ℕ) ℕ) readsUnconnected := by
  decide +kernel

/-- **No read waits forever** while the network is enabled.  In every state that a run reaches, a
read of the process is answered, or its answer is on its way, or its stream is started and the
server is heard, or else the timer runs, and when it elapses every read is answered. -/
theorem reads_time_out (h : Permitted step Enabled
      (init userID : ConnectedClient κ String (LevelDBMutationQueue κ) γ) es) :
    ∃ c : ConnectedClient κ String (LevelDBMutationQueue κ) γ, run step (init userID) es = some c ∧
      (c.connection.isNetworkEnabled = true →
        ∀ n, c.reading.begun ≤ n → n < c.reading.reads.length →
          n ∈ c.reading.answered.map Prod.fst ∨ eventsOf n c.reading.userQueue ≠ [] ∨
            (c.connection.isStarted = true ∧
              (c.connection.tracker.state = .online ∨ c.TimesOut))) := by
  obtain ⟨c, pending, hrun, hlinked⟩ := exists_reached h
  refine ⟨c, hrun, fun hnetwork n hbegun hlength => ?_⟩
  rcases hlinked.reading.accounted hbegun hlength with hanswered | hevents | hwaits
  · exact Or.inl hanswered
  · exact Or.inr (Or.inl hevents)
  · exact Or.inr (Or.inr (hlinked.waits hwaits hnetwork))

theorem reads_time_out_readsUnconnected :
    ∃ c : ConnectedClient ℕ String (LevelDBMutationQueue ℕ) ℕ,
      run step (init "a") readsUnconnected = some c ∧
      (c.connection.isNetworkEnabled = true →
        ∀ n, c.reading.begun ≤ n → n < c.reading.reads.length →
          n ∈ c.reading.answered.map Prod.fst ∨ eventsOf n c.reading.userQueue ≠ [] ∨
            (c.connection.isStarted = true ∧
              (c.connection.tracker.state = .online ∨ c.TimesOut))) :=
  reads_time_out permitted_readsUnconnected

end ConnectedClient

end CocoMap
