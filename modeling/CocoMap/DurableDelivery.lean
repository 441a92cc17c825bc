import CocoMap.Draining
import CocoMap.LevelDBUsers

/-!
# Durable delivery

The client of a device keeps its batches in LevelDB, where they survive the process.  Here
the outbox of `Delivery` is started with the empty database of a new device, and what it
says of the client's runs is read off: what the users asked for (`requests`), what the
server has answered, what the database still has, and which handlers were called add up,
whatever happens in between.
-/

namespace CocoMap

open Transition

/-- The requests of a run, each with its user and its handler. -/
def ClientEvent.requests {κ υ γ : Type} [LinearOrder κ] :
    υ → List (ClientEvent κ υ γ) → List (υ × List (Mutation κ) × γ)
  | _, [] => []
  | user, .writeMutations mutations completion :: es =>
      (user, mutations, completion) :: requests user es
  | _, .userDidChange user :: es => requests user es
  | _, .launch user :: es => requests user es
  | user, _ :: es => requests user es

namespace FirestoreClient

variable {κ γ : Type} [LinearOrder κ]

/-- The client of a new device: nothing is cached, nothing is pending, and the network is not
yet enabled. -/
def init (userID : String) : FirestoreClient κ String (LevelDBMutationQueue κ) γ where
  localStore := {
    mutationQueue := .init userID
    remoteDocumentCache := fun _ => none
    lastRemoteSnapshotVersion := .noVersion
    targetIDs := []
    heldBatchResults := [] }
  remoteStore := .init
  currentUser := userID
  mutationCompletionBlocks _ _ := none
  called := []
  emitted := []

theorem invariant_init (userID : String) :
    (init userID : FirestoreClient κ String (LevelDBMutationQueue κ) γ).Invariant
      fun _ => Pending.init 0 := by
  refine .of_flows ⟨⟨LevelDBMutationQueue.representsAll_init userID,
    fun _ => Pending.current_init 0, rfl, ?_⟩, ?_⟩ rfl
    (RemoteStore.flows_of_offline rfl ⟨rfl, rfl⟩ _) fun _ _ hblock => absurd rfl hblock
  · exact fun r hr => absurd hr List.not_mem_nil
  · exact fun r hr => absurd hr (Option.not_mem_none r)

theorem refines_init (userID : String) :
    (init userID : FirestoreClient κ String (LevelDBMutationQueue κ) γ).Refines
      (fun _ => Pending.init 0) (Outbox.init userID) := ⟨rfl, fun _ => rfl, rfl⟩

variable {userID : String} {es : List (ClientEvent κ String γ)}

/-- The outbox of a run. -/
def outcomes (userID : String) (es : List (ClientEvent κ String γ)) :
    List (Outbox.Event String (List (Mutation κ)) γ FirestoreErrorCode) :=
  labels step outcome (init userID : FirestoreClient κ String (LevelDBMutationQueue κ) γ) es

/-- What is issued is what the app asked for. -/
theorem issues_labels {c c' : FirestoreClient κ String (LevelDBMutationQueue κ) γ}
    (h : run step c es = some c') (user : String) :
    Outbox.issues user (labels step outcome c es) = ClientEvent.requests user es := by
  induction es generalizing c user with
  | nil => rfl
  | cons e es ih =>
      obtain ⟨c₁, hstep, hrest⟩ := run_cons_eq_some.mp h
      have hissues := fun user => ih hrest user
      rw [labels, hstep]
      dsimp only
      cases e with
      | writeMutations mutations completion =>
          exact congrArg ((user, mutations, completion) :: ·) (hissues user)
      | userDidChange user' => exact hissues user'
      | launch user' => exact hissues user'
      | response commitVersion mutationResults =>
          rw [outcome]
          split <;> exact hissues user
      | token error =>
          rw [outcome]
          cases error with
          | none => exact hissues user
          | some error =>
              rw [interruption]
              split <;> exact hissues user
      | streamClose error =>
          rw [outcome]
          cases error with
          | none => exact hissues user
          | some error =>
              rw [interruption]
              split <;> exact hissues user
      | _ => exact hissues user

theorem restart_mem_labels {c : FirestoreClient κ String (LevelDBMutationQueue κ) γ} {user : String}
    (h : .restart user ∈ labels step outcome c es) : .launch user ∈ es := by
  induction es generalizing c with
  | nil => cases h
  | cons e es ih =>
      rw [labels] at h
      rcases List.mem_cons.mp h with hhead | hrest
      · -- no other event is a restart
        cases e with
        | launch user' =>
            cases hhead
            exact List.mem_cons_self
        | response commitVersion mutationResults =>
            rw [outcome] at hhead
            split at hhead <;> cases hhead
        | token error =>
            rw [outcome] at hhead
            cases error with
            | none => cases hhead
            | some error =>
                rw [interruption] at hhead
                split at hhead <;> cases hhead
        | streamClose error =>
            rw [outcome] at hhead
            cases error with
            | none => cases hhead
            | some error =>
                rw [interruption] at hhead
                split at hhead <;> cases hhead
        | _ => cases hhead
      · cases hstep : c.step e with
        | none =>
            rw [hstep] at hrest
            cases hrest
        | some c₁ =>
            rw [hstep] at hrest
            exact List.mem_cons_of_mem e (ih hrest)

/-- What is known at the end of a run. -/
structure Reached (userID : String) (es : List (ClientEvent κ String γ))
    (c : FirestoreClient κ String (LevelDBMutationQueue κ) γ)
    (o : Outbox String (List (Mutation κ)) γ FirestoreErrorCode) (pending : String → Pending κ) :
    Prop where
  run : run step (init userID) es = some c
  outbox : Transition.run Outbox.step (Outbox.init userID) (outcomes userID es) = some o
  invariant : c.Invariant pending
  refines : c.Refines pending o
  issued : o.issued = ClientEvent.requests userID es

/-- **Every run reaches a state**: no assertion fails. -/
theorem exists_reached (h : Permitted step Enabled
      (init userID : FirestoreClient κ String (LevelDBMutationQueue κ) γ) es) :
    ∃ c o pending, Reached userID es c o pending := by
  obtain ⟨c, o, hrun, houtbox, pending, hinvariant, hrefines⟩ := run_lockstep
    (fun (c : FirestoreClient κ String (LevelDBMutationQueue κ) γ)
        (o : Outbox String (List (Mutation κ)) γ FirestoreErrorCode) =>
      ∃ pending, c.Invariant pending ∧ c.Refines pending o)
    (fun c e o ⟨pending, hinvariant, hrefines⟩ henabled => by
      obtain ⟨c', pending', o', hstep, hinvariant', houtbox, hrefines'⟩ :=
        step_refines hinvariant hrefines henabled
      exact ⟨c', o', hstep, houtbox, pending', hinvariant', hrefines'⟩)
    ⟨_, invariant_init userID, refines_init userID⟩ h
  exact ⟨c, o, pending, hrun, houtbox, hinvariant, hrefines,
    (Outbox.issued_run houtbox).trans (issues_labels hrun userID)⟩

/-! ## Results about runs -/

/-- A user writes, the process is gone before the server answers, another user writes, and the
first one comes back. -/
def acrossRestart : List (ClientEvent ℕ String ℕ) :=
  [.launch "a", .writeMutations [.delete 0 .none] 10, .token none, .launch "a",
   .userDidChange "b", .writeMutations [.delete 0 .none] 20, .userDidChange "a", .token none,
   .response 0 [], .response 5 [⟨none⟩]]

theorem permitted_acrossRestart : Permitted step Enabled
    (init "a" : FirestoreClient ℕ String (LevelDBMutationQueue ℕ) ℕ) acrossRestart := by
  decide +kernel

/-- A user writes twice; the first request is rejected, and the second one accepted. -/
def rejectedFirst : List (ClientEvent ℕ String ℕ) :=
  [.launch "a", .writeMutations [.delete 0 .none] 10, .writeMutations [.delete 1 .none] 11,
   .token none, .response 0 [], .streamClose (some .permissionDenied), .token none,
   .response 0 [], .response 5 [⟨none⟩]]

theorem permitted_rejectedFirst : Permitted step Enabled
    (init "a" : FirestoreClient ℕ String (LevelDBMutationQueue ℕ) ℕ) rejectedFirst := by
  decide +kernel

open Outbox (of replies accounts_run complete_run)

/-- **A handler is called at most once**, in the order of the requests, and with the answer of the
server to its own request, whatever restarts and changes of the user there are. -/
theorem handlers_called (h : Permitted step Enabled
      (init userID : FirestoreClient κ String (LevelDBMutationQueue κ) γ) es) :
    ∃ c o, run step (init userID) es = some c ∧
      run Outbox.step (Outbox.init userID) (outcomes userID es) = some o ∧
      ∀ v, (of v c.called).Sublist
        (replies (of v (ClientEvent.requests userID es)) (of v o.answered)) := by
  obtain ⟨c, o, pending, hreached⟩ := exists_reached h
  refine ⟨c, o, hreached.run, hreached.outbox, fun v => ?_⟩
  rw [← hreached.issued, ← hreached.refines.called]
  exact (accounts_run hreached.outbox v).called_sublist

theorem handlers_called_acrossRestart :
    ∃ c o, run step (init "a") acrossRestart = some c ∧
      run Outbox.step (Outbox.init "a") (outcomes "a" acrossRestart) = some o ∧
      ∀ v, (of v c.called).Sublist
        (replies (of v (ClientEvent.requests "a" acrossRestart)) (of v o.answered)) :=
  handlers_called permitted_acrossRestart

/-- **Within one process every answer is told**: the handlers called are those of the requests that
were answered. -/
theorem every_answer_told (h : Permitted step Enabled
      (init userID : FirestoreClient κ String (LevelDBMutationQueue κ) γ) es)
    (hlaunch : ∀ user, .launch user ∉ es.tail) :
    ∃ c o, run step (init userID) es = some c ∧
      run Outbox.step (Outbox.init userID) (outcomes userID es) = some o ∧
      ∀ v, of v c.called = replies (of v (ClientEvent.requests userID es)) (of v o.answered) := by
  obtain ⟨c, o, pending, hreached⟩ := exists_reached h
  refine ⟨c, o, hreached.run, hreached.outbox, fun v => ?_⟩
  have hrestart : ∀ user, .restart user ∉ (outcomes userID es).tail := by
    intro user hmem
    cases es with
    | nil => cases hmem
    | cons e es =>
        obtain ⟨c₁, hstep, -⟩ := run_cons_eq_some.mp hreached.run
        rw [outcomes, labels, hstep, List.tail_cons] at hmem
        exact hlaunch user (restart_mem_labels hmem)
  rw [← hreached.issued, ← hreached.refines.called]
  exact (accounts_run hreached.outbox).called_eq (complete_run hrestart hreached.outbox) v

theorem every_answer_told_rejectedFirst :
    ∃ c o, run step (init "a") rejectedFirst = some c ∧
      run Outbox.step (Outbox.init "a") (outcomes "a" rejectedFirst) = some o ∧
      ∀ v, of v c.called = replies (of v (ClientEvent.requests "a" rejectedFirst)) (of v o.answered) :=
  every_answer_told permitted_rejectedFirst (by simp [rejectedFirst])

/-- **What is on the wire** is what comes next: the server has not answered the handshake, or the
oldest requests of the user, at most ten of them, in their order. -/
theorem wire_carries_oldest (h : Permitted step Enabled
      (init userID : FirestoreClient κ String (LevelDBMutationQueue κ) γ) es) :
    ∃ c o, run step (init userID) es = some c ∧
      run Outbox.step (Outbox.init userID) (outcomes userID es) = some o ∧
      ∀ w ∈ c.remoteStore.writeStream, ∀ requests ∈ w.rpc,
        requests = if w.handshakeComplete then
            ((o.unanswered c.currentUser).take kMaxPendingWrites).map fun entry =>
              .mutations entry.1
          else [.handshake] := by
  obtain ⟨c, o, pending, hreached⟩ := exists_reached h
  refine ⟨c, o, hreached.run, hreached.outbox, fun w hw requests hrpc => ?_⟩
  have hshape := hreached.invariant.filled.shape w hw
  have hfull := hreached.invariant.filled.full w hw
  cases hshape with
  | flowing idleTimer _ hidle =>
      obtain rfl := Option.mem_some_iff.mp hrpc
      rw [if_pos rfl, hreached.refines.unanswered, unanswered, ← List.map_take, List.map_map, hfull]
      rfl
  | handshaking hne =>
      obtain rfl := Option.mem_some_iff.mp hrpc
      rfl
  | _ => cases hrpc

theorem wire_carries_oldest_acrossRestart :
    ∃ c o, run step (init "a") acrossRestart = some c ∧
      run Outbox.step (Outbox.init "a") (outcomes "a" acrossRestart) = some o ∧
      ∀ w ∈ c.remoteStore.writeStream, ∀ requests ∈ w.rpc,
        requests = if w.handshakeComplete then
            ((o.unanswered c.currentUser).take kMaxPendingWrites).map fun entry =>
              .mutations entry.1
          else [.handshake] :=
  wire_carries_oldest permitted_acrossRestart

/-- **No request waits for a stream that nobody starts**, and no stream is closed for being idle
while there are requests. -/
theorem stream_running (h : Permitted step Enabled
      (init userID : FirestoreClient κ String (LevelDBMutationQueue κ) γ) es) :
    ∃ c o, run step (init userID) es = some c ∧
      run Outbox.step (Outbox.init userID) (outcomes userID es) = some o ∧
      ∀ w ∈ c.remoteStore.writeStream,
        (o.unanswered c.currentUser ≠ [] → w.isStarted = true ∧ w.idleTimer = false) ∧
        (o.unanswered c.currentUser = [] → w.isOpen = true → w.idleTimer = true) := by
  obtain ⟨c, o, pending, hreached⟩ := exists_reached h
  refine ⟨c, o, hreached.run, hreached.outbox, fun w hw => ?_⟩
  have hempty : o.unanswered c.currentUser = [] ↔ c.remoteStore.pendingWrites = [] := by
    rw [hreached.refines.unanswered, unanswered, List.map_eq_nil_iff,
      hreached.invariant.filled.full w hw, List.take_eq_nil_iff, kMaxPendingWrites]
    simp
  rw [Ne, hempty]
  refine ⟨fun hne => ⟨hreached.invariant.running w hw hne, ?_⟩, hreached.invariant.filled.idle w hw⟩
  by_contra hidle
  exact hne ((hreached.invariant.filled.shape w hw).handleIdleCloseTimer
    (Bool.not_eq_false _ ▸ hidle)).1

theorem stream_running_acrossRestart :
    ∃ c o, run step (init "a") acrossRestart = some c ∧
      run Outbox.step (Outbox.init "a") (outcomes "a" acrossRestart) = some o ∧
      ∀ w ∈ c.remoteStore.writeStream,
        (o.unanswered c.currentUser ≠ [] → w.isStarted = true ∧ w.idleTimer = false) ∧
        (o.unanswered c.currentUser = [] → w.isOpen = true → w.idleTimer = true) :=
  stream_running permitted_acrossRestart

/-- **Every request can still be answered.**  The network and the server can take the client from
any state it reaches to one where no request and no handler of its user is left, and they need
at most five events for each request. -/
theorem requests_drain (h : Permitted step Enabled
      (init userID : FirestoreClient κ String (LevelDBMutationQueue κ) γ) es) :
    ∃ c es' c', run step (init userID) es = some c ∧ (∀ e ∈ es', e.Cooperative) ∧
      es'.length ≤ 5 * (of c.currentUser (ClientEvent.requests userID es)).length + 4 ∧
      Permitted step Enabled (init userID) (es ++ es') ∧
      run step (init userID) (es ++ es') = some c' ∧
      (∀ batchID, c'.mutationCompletionBlocks c.currentUser batchID = none) ∧
      c'.localStore.nextMutationBatchAfterBatchID batchIDUnknown = some none := by
  obtain ⟨c, o, pending, hreached⟩ := exists_reached h
  obtain ⟨es', c', hlength, hcooperative, hpermitted, hrun, hdrained⟩ :=
    hreached.invariant.exists_drain
  obtain ⟨hblocks, hnext⟩ := hdrained.idle
  refine ⟨c, es', c', hreached.run, hcooperative, hlength.trans ?_,
    permitted_append.mpr ⟨h, fun t ht => ?_⟩, run_append_eq_some.mpr ⟨c, hreached.run, hrun⟩,
    hblocks, hnext⟩
  · have hphase : c.remoteStore.writeStream.elim 4 WriteStream.phase ≤ 4 := by
      cases c.remoteStore.writeStream with
      | none => exact le_refl 4
      | some w => exact w.phase_le.trans (Nat.le_succ 3)
    have hrequests := congrArg List.length (accounts_run hreached.outbox c.currentUser).requests
    rw [hreached.issued, hreached.refines.unanswered, unanswered] at hrequests
    simp only [List.length_append, List.length_map] at hrequests
    rw [rank]
    omega
  · rw [hreached.run] at ht
    cases ht
    exact hpermitted

theorem requests_drain_acrossRestart :
    ∃ c es' c', run step (init "a") acrossRestart = some c ∧ (∀ e ∈ es', e.Cooperative) ∧
      es'.length ≤ 5 * (of c.currentUser (ClientEvent.requests "a" acrossRestart)).length + 4 ∧
      Permitted step Enabled (init "a") (acrossRestart ++ es') ∧
      run step (init "a") (acrossRestart ++ es') = some c' ∧
      (∀ batchID, c'.mutationCompletionBlocks c.currentUser batchID = none) ∧
      c'.localStore.nextMutationBatchAfterBatchID batchIDUnknown = some none :=
  requests_drain permitted_acrossRestart

end FirestoreClient

end CocoMap
