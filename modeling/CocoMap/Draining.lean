import CocoMap.Delivery

/-!
# Draining

Nothing that a user wrote waits for something that cannot happen.  Whatever has happened to
the client, the network and the server can take it to a state in which no request of the
user is left: `progress` finds the next event, and every event that it finds lowers a rank.
-/

namespace CocoMap

open Transition

/-- The network is there, and the server takes every request. -/
def ClientEvent.Cooperative {κ υ γ : Type} [LinearOrder κ] : ClientEvent κ υ γ → Prop
  | .enableNetwork | .token none | .backoffElapsed | .response _ _ => True
  | _ => False

/-- How far a stream is from being open to requests. -/
def WriteStream.phase {κ : Type} (w : WriteStream κ) : ℕ :=
  match w.state with
  | .opened => if w.handshakeComplete then 0 else 1
  | .auth => 2
  | _ => 3

theorem WriteStream.phase_le {κ : Type} (w : WriteStream κ) : w.phase ≤ 3 := by
  unfold WriteStream.phase
  split
  · split <;> omega
  · omega
  · exact le_refl 3

namespace FirestoreClient

variable {κ υ Q γ : Type} [LinearOrder κ] [DecidableEq υ] [MutationQueue κ Q] [UserQueues υ Q]
  [LawfulUserQueues κ υ Q] {c : FirestoreClient κ υ Q γ} {pending : υ → Pending κ} {u : υ}

/-- What is left to do for a user: at most five events for each of his requests. -/
def rank (c : FirestoreClient κ υ Q γ) (unacknowledged : List (MutationBatch κ)) : ℕ :=
  5 * unacknowledged.length + c.remoteStore.writeStream.elim 4 WriteStream.phase

def Remaining (u : υ) (c : FirestoreClient κ υ Q γ) (n : ℕ) : Prop :=
  ∃ pending, c.Invariant pending ∧ c.currentUser = u ∧ n = c.rank (pending u).unacknowledged

/-- Nothing of the user is left. -/
def Drained (u : υ) (c : FirestoreClient κ υ Q γ) : Prop :=
  ∃ pending, c.Invariant pending ∧ c.currentUser = u ∧ (pending u).unacknowledged = []

omit [DecidableEq υ] in
/-- The stream gets closer to being open, and nothing else happens. -/
theorem Invariant.remaining_setWriteStream (h : c.Invariant pending) {w w' : WriteStream κ}
    (hstream : c.remoteStore.writeStream = some w) (hsettled : w'.Settled c.remoteStore.pendingWrites)
    (hphase : w'.phase < w.phase) :
    ∃ m < c.rank (pending c.currentUser).unacknowledged,
      (c.setWriteStream w').Remaining c.currentUser m := by
  obtain ⟨hinvariant, -⟩ := h.setWriteStream (c.refines_outbox pending) hsettled
    (by rw [hstream]; exact Option.some_ne_none w)
  refine ⟨_, ?_, pending, hinvariant, rfl, rfl⟩
  rw [rank, rank, hstream]
  exact Nat.add_lt_add_left hphase _

/-- An answer is one request less. -/
theorem Invariant.remaining_response (h : c.Invariant pending) {w : WriteStream κ}
    (hw : w ∈ c.remoteStore.writeStream) (hcomplete : w.handshakeComplete = true)
    {requests : List (WriteRequest κ)} (hrpc : requests ∈ w.rpc) {request : WriteRequest κ}
    (hrequest : request ∈ requests.head?) (commitVersion : SnapshotVersion)
    {mutationResults : List MutationResult} (hlength : request.AnsweredBy mutationResults) :
    ∃ c' m, c.handleStreamMessage w commitVersion mutationResults = some c' ∧
      m < c.rank (pending c.currentUser).unacknowledged ∧ c'.Remaining c.currentUser m := by
  obtain ⟨c', pending', o', hmessage, hinvariant, hstep, hrefines⟩ := handleStreamMessage_refines h
    (c.refines_outbox pending) hw hrpc hrequest commitVersion hlength
  rw [if_pos hcomplete] at hstep
  obtain ⟨huser, hless⟩ := Outbox.length_of_step_answer hstep
  have huser' : c'.currentUser = c.currentUser := hrefines.user.symm.trans huser
  have hless : (pending' c.currentUser).unacknowledged.length + 1 =
      (pending c.currentUser).unacknowledged.length := by
    rw [hrefines.unanswered, unanswered, List.length_map] at hless
    simpa only [outbox, unanswered, List.length_map] using hless
  refine ⟨c', _, hmessage, ?_, pending', hinvariant, huser', rfl⟩
  have hphase : c'.remoteStore.writeStream.elim 4 WriteStream.phase ≤ 4 := by
    cases c'.remoteStore.writeStream with
    | none => exact le_refl 4
    | some w' => exact w'.phase_le.trans (Nat.le_succ 3)
  rw [rank, rank]
  omega

/-- **There is always a next event**, and it lowers the rank. -/
theorem Remaining.progress {n : ℕ} (h : c.Remaining u n) : c.Drained u ∨
    ∃ e c' m, e.Cooperative ∧ c.Enabled e ∧ c.step e = some c' ∧ m < n ∧ c'.Remaining u m := by
  obtain ⟨pending, hinvariant, rfl, rfl⟩ := h
  cases hstream : c.remoteStore.writeStream with
  | none =>
      obtain ⟨r, henable, hflows, henabled⟩ := connect_flows hinvariant.store hinvariant.user hstream
        (hinvariant.flows.offline hstream)
      obtain ⟨hinvariant', -⟩ := hinvariant.setRemoteStore (c.refines_outbox pending) hflows
      refine Or.inr ⟨.enableNetwork, _, _, trivial, trivial, henable, ?_, pending, hinvariant', rfl,
        rfl⟩
      obtain ⟨w, hw⟩ := Option.isSome_iff_exists.mp henabled
      rw [rank, rank, hstream, hw]
      exact Nat.add_lt_add_left (Nat.lt_succ_of_le w.phase_le) _
  | some w =>
      have hw : w ∈ c.remoteStore.writeStream := Option.mem_def.mpr hstream
      have hshape := hinvariant.filled.shape w hw
      cases hunack : (pending c.currentUser).unacknowledged with
      | nil => exact Or.inl ⟨pending, hinvariant, rfl, hunack⟩
      | cons batch rest =>
          right
          -- the pipeline is not empty, and so the stream is running
          have hne : c.remoteStore.pendingWrites ≠ [] := by
            rw [hinvariant.filled.full w hw, hunack]
            exact List.cons_ne_nil _ _
          have hstarted := hinvariant.running w hw hne
          have hnext : ∀ w' e, w'.Settled c.remoteStore.pendingWrites → w'.phase < w.phase →
              e.Cooperative → c.Enabled e → c.step e = some (c.setWriteStream w') →
              ∃ e c' m, e.Cooperative ∧ c.Enabled e ∧ c.step e = some c' ∧
                m < c.rank (batch :: rest) ∧ c'.Remaining c.currentUser m := by
            intro w' e hsettled hphase hcooperative henabled hstep
            obtain ⟨m, hm, hremaining⟩ :=
              hinvariant.remaining_setWriteStream hstream hsettled hphase
            exact ⟨e, _, m, hcooperative, henabled, hstep, hunack ▸ hm, hremaining⟩
          generalize hpending : c.remoteStore.pendingWrites = pendingWrites at hshape hne hnext
          cases hshape with
          | closed state handshakeComplete _ hstate => rcases hstate with rfl | rfl <;> cases hstarted
          | waiting _ =>
              refine hnext ⟨.auth, false, true, false, none⟩ .backoffElapsed
                ⟨.starting hne, fun _ => rfl, fun hnil => absurd hnil hne⟩ (Nat.lt_succ_self 2) trivial
                ⟨_, hw, rfl⟩ ?_
              rw [step, hstream]
              rfl
          | starting _ =>
              refine hnext ⟨.opened, false, true, false, some [.handshake]⟩ (.token none)
                ⟨.handshaking hne, fun _ => rfl, fun hnil => absurd hnil hne⟩ (Nat.lt_succ_self 1) trivial
                ⟨_, hw, rfl⟩ ?_
              rw [step, hstream]
              rfl
          | handshaking _ =>
              refine hnext ⟨.opened, true, true, false,
                some (pendingWrites.map fun b => .mutations b.mutations)⟩ (.response .noVersion [])
                ⟨.flowing false _ fun hidle => absurd hidle Bool.false_ne_true, fun _ => rfl,
                  fun hnil => absurd hnil hne⟩ (Nat.lt_succ_self 0) trivial
                ⟨_, hw, _, rfl, _, rfl, trivial⟩ ?_
              have hwrites := WriteStream.foldlM_writeMutations pendingWrites [] false
              rw [List.map_nil, List.nil_append, Bool.false_and] at hwrites
              rw [step, hstream]
              change c.writeStreamDidCompleteHandshake ⟨.opened, true, true, false, some []⟩ = _
              rw [writeStreamDidCompleteHandshake, hpending, hwrites, Option.map_some]
          | flowing idleTimer _ hidle =>
              cases pendingWrites with
              | nil => exact absurd rfl hne
              | cons first others =>
                  let mutationResults : List MutationResult :=
                    List.replicate first.mutations.length ⟨none⟩
                  have hlength : (WriteRequest.mutations first.mutations).AnsweredBy mutationResults :=
                    List.length_replicate
                  obtain ⟨c', m, hmessage, hm, hremaining⟩ := hinvariant.remaining_response hw rfl rfl
                    rfl .noVersion hlength
                  refine ⟨.response .noVersion mutationResults, c', m, trivial,
                    ⟨_, hw, _, rfl, _, rfl, hlength⟩, ?_, hunack ▸ hm, hremaining⟩
                  rw [step, hstream]
                  exact hmessage

/-- **The run lemma.**  The network and the server can always take the client to a state in which
its user has nothing left. -/
theorem Invariant.exists_drain (h : c.Invariant pending) :
    ∃ es c', es.length ≤ c.rank (pending c.currentUser).unacknowledged ∧
      (∀ e ∈ es, e.Cooperative) ∧ Permitted step Enabled c es ∧ run step c es = some c' ∧
      c'.Drained c.currentUser := by
  have hremaining : c.Remaining c.currentUser (c.rank (pending c.currentUser).unacknowledged) :=
    ⟨pending, h, rfl, rfl⟩
  exact exists_run_of_rank (fun _ _ => Remaining.progress) hremaining

omit [DecidableEq υ] in
/-- With nothing left every handler of the user has been called, and there is no batch to send. -/
theorem Drained.idle (h : c.Drained u) :
    (∀ batchID, c.mutationCompletionBlocks u batchID = none) ∧
      c.localStore.nextMutationBatchAfterBatchID batchIDUnknown = some none := by
  obtain ⟨pending, hinvariant, rfl, hunack⟩ := h
  refine ⟨fun batchID => ?_, ?_⟩
  · by_contra hblock
    obtain ⟨b, hb, -⟩ := hinvariant.blocks c.currentUser batchID hblock
    rw [hunack] at hb
    cases hb
  · rw [LocalStore.nextMutationBatchAfterBatchID, LawfulMutationQueue.nextMutationBatchAfterBatchID_spec
      batchIDUnknown hinvariant.store.queues.current, Pending.nextAfter_eq]
    have huser := hinvariant.user
    rw [LocalStore.user] at huser
    rw [huser, hunack]
    rfl

end FirestoreClient

end CocoMap
