import Mathlib.Logic.Function.Basic
import CocoMap.MutationQueue

/-!
# The queues of all users

`FSTPersistence` has a mutation queue for each user who was ever signed in, of which one
is in use.  When the user changes, the queue of the new user is started and used from
then on; what is pending for the others is kept, and sent when they come back.

`LawfulUserQueues` has the one law this rests on, `perform_frame`: no call of the queue in
use changes what is kept for anyone else.
-/

namespace CocoMap

open Calls

/-- `mutationQueueForUser:` — the queue of a user, who is from then on the one whose queue
is in use. -/
class UserQueues (υ : outParam Type) (Q : Type) where
  mutationQueueForUser : Q → υ → Q

/-- A persistence, and what it keeps for each user. -/
class LawfulUserQueues (κ υ : outParam Type) [DecidableEq κ] (Q : Type) [MutationQueue κ Q]
    [UserQueues υ Q] extends LawfulMutationQueue κ Q where
  /-- The user whose queue is in use. -/
  user : Q → υ
  Keeps : Q → υ → Pending κ → Prop
  keeps_of_represents {q : Q} {p : Pending κ} : Represents q p → Keeps q (user q) p
  user_mutationQueueForUser (q : Q) (u : υ) : user (UserQueues.mutationQueueForUser q u) = u
  keeps_mutationQueueForUser {q : Q} {v : υ} {p : Pending κ} (u : υ) : Keeps q v p →
    Keeps (UserQueues.mutationQueueForUser q u) v p
  start_of_keeps {q : Q} {p : Pending κ} : Keeps q (user q) p → p.Startable →
    ∃ q' p', MutationQueue.start q = some q' ∧ Represents q' p' ∧
      QueueCall.start.Answers p .done p'
  perform_frame {q q' : Q} {call : QueueCall κ} {answer : QueueAnswer κ} :
    call.perform q = some (answer, q') →
    user q' = user q ∧ ∀ v, v ≠ user q → ∀ p, Keeps q v p → Keeps q' v p

/-- A call of the queue in use, or a change of the user. -/
inductive UserCall (κ υ : Type)
  | userDidChange (user : υ)
  | queue (call : QueueCall κ)

namespace UserCall

variable {κ υ Q : Type}

def perform [MutationQueue κ Q] [UserQueues υ Q] (q : Q) :
    UserCall κ υ → Option (QueueAnswer κ × Q)
  | .userDidChange user => QueueCall.start.perform (UserQueues.mutationQueueForUser q user)
  | .queue call => call.perform q

variable [DecidableEq κ] [DecidableEq υ]

/-- The user, and the pending batches of each user.  A call is about the batches of the
user alone. -/
def specification (κ υ : Type) [DecidableEq κ] [DecidableEq υ] :
    Specification (υ × (υ → Pending κ)) (UserCall κ υ) (QueueAnswer κ) where
  Allowed s
    | .userDidChange user => QueueCall.start.AllowedBy (s.2 user)
    | .queue call => call.AllowedBy (s.2 s.1)
  Answers s
    | .userDidChange user, answer, s' => s'.1 = user ∧
        ∃ p', QueueCall.start.Answers (s.2 user) answer p' ∧ s'.2 = Function.update s.2 user p'
    | .queue call, answer, s' => s'.1 = s.1 ∧
        ∃ p', call.Answers (s.2 s.1) answer p' ∧ s'.2 = Function.update s.2 s.1 p'

end UserCall

section Represents

variable {κ υ Q : Type} [DecidableEq κ] [MutationQueue κ Q] [UserQueues υ Q]
  [LawfulUserQueues κ υ Q]

open LawfulUserQueues LawfulMutationQueue

/-- The queue in use represents the pending batches of its user, and those of the others
are kept. -/
structure RepresentsAll (q : Q) (pending : υ → Pending κ) : Prop where
  current : Represents q (pending (user q))
  others : ∀ v, v ≠ user q → Keeps q v (pending v)

variable {q q' : Q} {pending : υ → Pending κ}

theorem RepresentsAll.keeps (h : RepresentsAll q pending) (v : υ) : Keeps q v (pending v) := by
  by_cases hv : v = user q
  · subst hv
    exact keeps_of_represents h.current
  · exact h.others v hv

variable [DecidableEq υ]

/-- **A call is about the user's own batches.** -/
theorem RepresentsAll.of_perform (h : RepresentsAll q pending) (call : QueueCall κ)
    {answer : QueueAnswer κ} {p' : Pending κ} (hcall : call.perform q = some (answer, q'))
    (hq' : Represents q' p') :
    user q' = user q ∧ RepresentsAll q' (Function.update pending (user q) p') := by
  obtain ⟨huser, hframe⟩ := perform_frame hcall
  refine ⟨huser, ?_, fun v hv => ?_⟩
  · rwa [huser, Function.update_self]
  · rw [huser] at hv
    rw [Function.update_of_ne hv]
    exact hframe v hv _ (h.others v hv)

theorem RepresentsAll.acknowledgeBatch (h : RepresentsAll q pending) {batch : MutationBatch κ}
    (hmem : batch ∈ (pending (user q)).batches)
    (hack : (pending (user q)).highestAcknowledgedBatchID < batch.batchID) :
    ∃ q', MutationQueue.acknowledgeBatch q batch = some q' ∧ user q' = user q ∧
      RepresentsAll q' (Function.update pending (user q)
        ((pending (user q)).acknowledge batch.batchID ((pending (user q)).bounded batch hmem).2)) := by
  obtain ⟨q', hq', h'⟩ := acknowledgeBatch_spec h.current hmem hack
  exact ⟨q', hq', h.of_perform (.acknowledgeBatch batch)
    (by rw [QueueCall.perform, hq', Option.map_some]) h'⟩

theorem RepresentsAll.addMutationBatch (h : RepresentsAll q pending)
    {mutations : List (Mutation κ)} (hne : mutations ≠ []) :
    ∃ q', MutationQueue.addMutationBatch q mutations =
        some ((pending (user q)).nextBatch mutations, q') ∧ user q' = user q ∧
      RepresentsAll q' (Function.update pending (user q) ((pending (user q)).add mutations hne)) := by
  obtain ⟨q', hq', h'⟩ := addMutationBatch_spec h.current hne
  exact ⟨q', hq', h.of_perform (.addMutationBatch mutations)
    (by rw [QueueCall.perform, hq', Option.map_some]) h'⟩

theorem RepresentsAll.removeMutationBatches (h : RepresentsAll q pending)
    {batches : List (MutationBatch κ)} (hne : batches ≠ [])
    (hpart : batches <:+: (pending (user q)).batches) :
    ∃ q', MutationQueue.removeMutationBatches q batches = some q' ∧ user q' = user q ∧
      RepresentsAll q' (Function.update pending (user q) ((pending (user q)).remove batches)) := by
  obtain ⟨q', hq', h'⟩ := removeMutationBatches_spec h.current hne hpart
  exact ⟨q', hq', h.of_perform (.removeMutationBatches batches)
    (by rw [QueueCall.perform, hq', Option.map_some]) h'⟩

/-- **The user changes**: the new user's queue is started, the others are kept. -/
theorem RepresentsAll.userDidChange (h : RepresentsAll q pending) {u : υ}
    (hstartable : (pending u).Startable) :
    ∃ q' p', MutationQueue.start (UserQueues.mutationQueueForUser q u) = some q' ∧
      user q' = u ∧ QueueCall.start.Answers (pending u) .done p' ∧
      RepresentsAll q' (Function.update pending u p') := by
  have huser := user_mutationQueueForUser q u
  have hkeeps : Keeps (UserQueues.mutationQueueForUser q u)
      (user (UserQueues.mutationQueueForUser q u)) (pending u) := by
    rw [huser]
    exact keeps_mutationQueueForUser u (h.keeps u)
  obtain ⟨q', p', hstart, hq', hanswer⟩ := start_of_keeps hkeeps hstartable
  have hperform : QueueCall.start.perform (UserQueues.mutationQueueForUser q u) =
      some (QueueAnswer.done, q') := by rw [QueueCall.perform, hstart, Option.map_some]
  obtain ⟨huser', hframe⟩ := perform_frame hperform
  rw [huser] at huser' hframe
  refine ⟨q', p', hstart, huser', hanswer, ?_, fun v hv => ?_⟩
  · rwa [huser', Function.update_self]
  · rw [huser'] at hv
    rw [Function.update_of_ne hv]
    exact hframe v hv _ (keeps_mutationQueueForUser u (h.keeps v))

/-- **A persistence** gives the answers that each user's own pending batches call for. -/
theorem UserCall.meets_specification :
    (UserCall.specification κ υ).Meets (UserCall.perform (κ := κ) (Q := Q))
      fun q s => user q = s.1 ∧ RepresentsAll q s.2 := by
  rintro q ⟨u, pending⟩ call ⟨rfl, h⟩ allowed
  cases call with
  | userDidChange u =>
      obtain ⟨q', p', hstart, huser, hanswer, hq'⟩ := h.userDidChange allowed
      exact ⟨.done, q', (u, Function.update pending u p'),
        by rw [UserCall.perform, QueueCall.perform, hstart, Option.map_some],
        ⟨rfl, p', hanswer, rfl⟩, huser, hq'⟩
  | queue call =>
      obtain ⟨answer, q', p', hcall, hanswer, hq'⟩ :=
        QueueCall.meets_specification h.current allowed
      obtain ⟨huser, hall⟩ := h.of_perform call hcall hq'
      exact ⟨answer, q', (user q, Function.update pending (user q) p'), hcall,
        ⟨rfl, p', hanswer, rfl⟩, huser, hall⟩

end Represents

end CocoMap
