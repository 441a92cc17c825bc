import CocoMap.Lib.Calls
import CocoMap.Lib.Increasing
import CocoMap.Mutation

/-!
# The mutation queue

The client keeps the batches that the server has not yet confirmed, or whose effect it
has not yet seen, in a FIFO queue.  `MutationQueue` is the protocol `FSTMutationQueue`,
which an in-memory queue and a LevelDB queue implement; a `none` is a failed assertion.

`Pending` says what a queue is for: the live batches in the order in which they were
issued, the identifier the next one gets, and the highest one acknowledged.
`LawfulMutationQueue` relates an implementation to it, one law for each call.
-/

namespace CocoMap

open Calls

/-- The calls of `FSTMutationQueue`. -/
class MutationQueue (κ : outParam Type) (Q : Type) where
  start : Q → Option Q
  isEmpty : Q → Bool
  highestAcknowledgedBatchID : Q → ℤ
  acknowledgeBatch : Q → MutationBatch κ → Option Q
  addMutationBatch : Q → List (Mutation κ) → Option (MutationBatch κ × Q)
  lookupMutationBatch : Q → ℤ → Option (Option (MutationBatch κ))
  nextMutationBatchAfterBatchID : Q → ℤ → Option (Option (MutationBatch κ))
  allMutationBatches : Q → List (MutationBatch κ)
  allMutationBatchesThroughBatchID : Q → ℤ → List (MutationBatch κ)
  allMutationBatchesAffectingDocumentKey : Q → κ → Option (List (MutationBatch κ))
  removeMutationBatches : Q → List (MutationBatch κ) → Option Q
  performConsistencyCheck : Q → Option Unit

/-- The pending batches of a user, the oldest first. -/
@[ext] structure Pending (κ : Type) where
  batches : List (MutationBatch κ)
  nextBatchID : ℤ
  highestAcknowledgedBatchID : ℤ
  increasing : Increasing MutationBatch.batchID batches
  bounded : ∀ b ∈ batches, 0 ≤ b.batchID ∧ b.batchID < nextBatchID
  live : ∀ b ∈ batches, b.isTombstone = false
  acknowledged : highestAcknowledgedBatchID < nextBatchID
  nonnegative : 0 ≤ nextBatchID

namespace Pending

variable {κ : Type}

/-- Nothing is pending, and the identifiers start from a number. -/
def init (nextBatchID : ℕ) : Pending κ where
  batches := []
  nextBatchID := nextBatchID
  highestAcknowledgedBatchID := batchIDUnknown
  increasing := Increasing.nil _
  bounded := by simp
  live := by simp
  acknowledged := by
    rw [batchIDUnknown]
    omega
  nonnegative := Int.natCast_nonneg nextBatchID

/-- The batch a request with these mutations becomes. -/
def nextBatch (p : Pending κ) (mutations : List (Mutation κ)) : MutationBatch κ where
  batchID := p.nextBatchID
  mutations := mutations

/-- One more batch, at the end. -/
def add (p : Pending κ) (mutations : List (Mutation κ)) (h : mutations ≠ []) : Pending κ where
  batches := p.batches ++ [p.nextBatch mutations]
  nextBatchID := p.nextBatchID + 1
  highestAcknowledgedBatchID := p.highestAcknowledgedBatchID
  increasing := p.increasing.concat fun b hb => (p.bounded b hb).2
  bounded := by
    intro b hb
    rcases List.mem_append.mp hb with hb | hb
    · have := p.bounded b hb
      omega
    · rw [List.mem_singleton.mp hb, nextBatch]
      have := p.nonnegative
      simp only
      omega
  live := by
    intro b hb
    rcases List.mem_append.mp hb with hb | hb
    · exact p.live b hb
    · rw [List.mem_singleton.mp hb]
      simpa [MutationBatch.isTombstone, nextBatch] using h
  acknowledged := by
    have := p.acknowledged
    omega
  nonnegative := by
    have := p.nonnegative
    omega

/-- A batch is acknowledged. -/
def acknowledge (p : Pending κ) (batchID : ℤ) (h : batchID < p.nextBatchID) : Pending κ :=
  { p with highestAcknowledgedBatchID := batchID, acknowledged := h }

/-- The batches are gone. -/
def remove (p : Pending κ) (batches : List (MutationBatch κ)) : Pending κ where
  batches := p.batches.filter fun b => b.batchID ∉ batches.map MutationBatch.batchID
  nextBatchID := p.nextBatchID
  highestAcknowledgedBatchID := p.highestAcknowledgedBatchID
  increasing := p.increasing.filter _
  bounded b hb := p.bounded b (List.mem_of_mem_filter hb)
  live b hb := p.live b (List.mem_of_mem_filter hb)
  acknowledged := p.acknowledged
  nonnegative := p.nonnegative

@[simp] theorem init_batches (nextBatchID : ℕ) : (init nextBatchID : Pending κ).batches = [] := rfl

@[simp] theorem add_batches (p : Pending κ) {mutations : List (Mutation κ)} (h : mutations ≠ []) :
    (p.add mutations h).batches = p.batches ++ [p.nextBatch mutations] := rfl

@[simp] theorem add_nextBatchID (p : Pending κ) {mutations : List (Mutation κ)}
    (h : mutations ≠ []) : (p.add mutations h).nextBatchID = p.nextBatchID + 1 := rfl

@[simp] theorem add_highestAcknowledgedBatchID (p : Pending κ) {mutations : List (Mutation κ)}
    (h : mutations ≠ []) :
    (p.add mutations h).highestAcknowledgedBatchID = p.highestAcknowledgedBatchID := rfl

@[simp] theorem acknowledge_batches (p : Pending κ) {batchID : ℤ} (h : batchID < p.nextBatchID) :
    (p.acknowledge batchID h).batches = p.batches := rfl

@[simp] theorem acknowledge_nextBatchID (p : Pending κ) {batchID : ℤ}
    (h : batchID < p.nextBatchID) : (p.acknowledge batchID h).nextBatchID = p.nextBatchID := rfl

@[simp] theorem acknowledge_highestAcknowledgedBatchID (p : Pending κ) {batchID : ℤ}
    (h : batchID < p.nextBatchID) :
    (p.acknowledge batchID h).highestAcknowledgedBatchID = batchID := rfl

@[simp] theorem remove_nextBatchID (p : Pending κ) (batches : List (MutationBatch κ)) :
    (p.remove batches).nextBatchID = p.nextBatchID := rfl

@[simp] theorem remove_highestAcknowledgedBatchID (p : Pending κ)
    (batches : List (MutationBatch κ)) :
    (p.remove batches).highestAcknowledgedBatchID = p.highestAcknowledgedBatchID := rfl

theorem mem_remove {p : Pending κ} {batches : List (MutationBatch κ)} {batch : MutationBatch κ} :
    batch ∈ (p.remove batches).batches ↔
      batch ∈ p.batches ∧ ∀ b ∈ batches, b.batchID ≠ batch.batchID := by
  simp [remove]

@[simp] theorem remove_nil (p : Pending κ) : p.remove [] = p := by
  ext1
  · exact List.filter_eq_self.mpr fun b _ => by simp
  · rfl
  · rfl

theorem remove_cons (p : Pending κ) (batch : MutationBatch κ) (batches : List (MutationBatch κ)) :
    p.remove (batch :: batches) = (p.remove [batch]).remove batches := by
  ext1
  · have hboth : ((p.remove [batch]).remove batches).batches =
        (p.batches.filter fun b => b.batchID ∉ [batch].map MutationBatch.batchID).filter
          fun b => b.batchID ∉ batches.map MutationBatch.batchID := rfl
    rw [hboth, List.filter_filter]
    refine List.filter_congr fun b _ => Bool.eq_iff_iff.mpr ?_
    simp only [decide_eq_true_eq, List.map_cons, List.mem_cons, not_or, Bool.and_eq_true,
      List.map_nil, List.not_mem_nil, or_false]
    exact and_comm
  · rfl
  · rfl

/-- Removing a part of the queue leaves the parts around it. -/
theorem remove_batches {p : Pending κ} {pre batches post : List (MutationBatch κ)}
    (h : p.batches = pre ++ batches ++ post) : (p.remove batches).batches = pre ++ post := by
  have hincreasing := p.increasing
  rw [h] at hincreasing
  have hremove : (p.remove batches).batches =
      p.batches.filter fun b => b.batchID ∉ batches.map MutationBatch.batchID := rfl
  rw [hremove, h]
  exact hincreasing.filter_notMem_infix

/-- The same batches after a restart, which may count on from elsewhere. -/
def restart (p : Pending κ) (nextBatchID acknowledged : ℤ)
    (bounded : ∀ b ∈ p.batches, 0 ≤ b.batchID ∧ b.batchID < nextBatchID)
    (hack : acknowledged < nextBatchID) (nonnegative : 0 ≤ nextBatchID) : Pending κ where
  batches := p.batches
  nextBatchID := nextBatchID
  highestAcknowledgedBatchID := acknowledged
  increasing := p.increasing
  bounded := bounded
  live := p.live
  acknowledged := hack
  nonnegative := nonnegative

/-- The first batch after `batchID` that is not acknowledged. -/
def nextAfter (p : Pending κ) (batchID : ℤ) : Option (MutationBatch κ) :=
  p.batches.find? fun b => max batchID p.highestAcknowledgedBatchID < b.batchID

/-- The queue can be started again: no acknowledgement is ahead of the whole queue. -/
def Startable (p : Pending κ) : Prop :=
  p.batches = [] ∨ ∃ b ∈ p.batches, p.highestAcknowledgedBatchID ≤ b.batchID

/-! ### Acknowledged and unacknowledged batches -/

/-- The batches that the server has committed, but which are still pending. -/
def acknowledgedBatches (p : Pending κ) : List (MutationBatch κ) :=
  p.batches.filter fun b => b.batchID ≤ p.highestAcknowledgedBatchID

/-- The batches that the server has not answered yet. -/
def unacknowledged (p : Pending κ) : List (MutationBatch κ) :=
  p.batches.filter fun b => p.highestAcknowledgedBatchID < b.batchID

theorem batches_eq (p : Pending κ) : p.batches = p.acknowledgedBatches ++ p.unacknowledged :=
  (p.increasing.filter_le_append_filter_lt p.highestAcknowledgedBatchID).symm

theorem mem_acknowledgedBatches {p : Pending κ} {b : MutationBatch κ} :
    b ∈ p.acknowledgedBatches ↔ b ∈ p.batches ∧ b.batchID ≤ p.highestAcknowledgedBatchID := by
  simp [acknowledgedBatches]

theorem mem_unacknowledged {p : Pending κ} {b : MutationBatch κ} :
    b ∈ p.unacknowledged ↔ b ∈ p.batches ∧ p.highestAcknowledgedBatchID < b.batchID := by
  simp [unacknowledged]

theorem nextAfter_eq (p : Pending κ) (batchID : ℤ) :
    p.nextAfter batchID = p.unacknowledged.find? fun b => batchID < b.batchID := by
  rw [nextAfter, unacknowledged, List.find?_filter]
  congr 1
  funext b
  rw [Bool.eq_iff_iff]
  simp [and_comm]

@[simp] theorem acknowledgedBatches_init (nextBatchID : ℕ) :
    (init nextBatchID : Pending κ).acknowledgedBatches = [] := rfl

@[simp] theorem unacknowledged_init (nextBatchID : ℕ) :
    (init nextBatchID : Pending κ).unacknowledged = [] := rfl

@[simp] theorem acknowledgedBatches_add (p : Pending κ) {mutations : List (Mutation κ)}
    (h : mutations ≠ []) : (p.add mutations h).acknowledgedBatches = p.acknowledgedBatches := by
  have hnew : ¬ (p.nextBatch mutations).batchID ≤ p.highestAcknowledgedBatchID :=
    not_le.mpr p.acknowledged
  rw [acknowledgedBatches, add_batches, add_highestAcknowledgedBatchID, List.filter_append,
    List.filter_cons_of_neg (by simpa using hnew), List.filter_nil, List.append_nil]
  rfl

@[simp] theorem unacknowledged_add (p : Pending κ) {mutations : List (Mutation κ)}
    (h : mutations ≠ []) :
    (p.add mutations h).unacknowledged = p.unacknowledged ++ [p.nextBatch mutations] := by
  have hnew : p.highestAcknowledgedBatchID < (p.nextBatch mutations).batchID := p.acknowledged
  rw [unacknowledged, add_batches, add_highestAcknowledgedBatchID, List.filter_append,
    List.filter_cons_of_pos (by simpa using hnew), List.filter_nil]
  rfl

section Acknowledge

variable {p : Pending κ} {batch : MutationBatch κ} {rest : List (MutationBatch κ)}

/-- The oldest unacknowledged batch is acknowledged. -/
theorem acknowledge_eq (h : p.unacknowledged = batch :: rest) (hb : batch.batchID < p.nextBatchID) :
    (p.acknowledge batch.batchID hb).acknowledgedBatches = p.acknowledgedBatches ++ [batch] ∧
      (p.acknowledge batch.batchID hb).unacknowledged = rest := by
  have hincreasing := p.increasing
  have hbatches := p.batches_eq
  rw [h] at hbatches
  rw [hbatches] at hincreasing
  rw [acknowledgedBatches, unacknowledged, acknowledge_batches,
    acknowledge_highestAcknowledgedBatchID, hbatches]
  exact hincreasing.filter_of_split

/-- Acknowledged batches are removed, the oldest first. -/
theorem remove_acknowledged {batches : List (MutationBatch κ)}
    (h : p.acknowledgedBatches = batches ++ rest) :
    (p.remove batches).batches = rest ++ p.unacknowledged ∧
      (p.remove batches).acknowledgedBatches = rest ∧
      (p.remove batches).unacknowledged = p.unacknowledged := by
  have hbatches : p.batches = [] ++ batches ++ (rest ++ p.unacknowledged) := by
    rw [List.nil_append, ← List.append_assoc, ← h, ← p.batches_eq]
  have hremove : (p.remove batches).batches = [] ++ (rest ++ p.unacknowledged) :=
    remove_batches hbatches
  rw [List.nil_append] at hremove
  have hrest : ∀ b ∈ rest, b.batchID ≤ p.highestAcknowledgedBatchID := fun b hb =>
    (mem_acknowledgedBatches.mp (h ▸ List.mem_append_right batches hb)).2
  have hunack : ∀ b ∈ p.unacknowledged, p.highestAcknowledgedBatchID < b.batchID := fun b hb =>
    (mem_unacknowledged.mp hb).2
  refine ⟨hremove, ?_, ?_⟩
  · rw [acknowledgedBatches, hremove, remove_highestAcknowledgedBatchID, List.filter_append,
      List.filter_eq_self.mpr fun b hb => by simpa using hrest b hb,
      List.filter_eq_nil_iff.mpr fun b hb => by simpa using hunack b hb, List.append_nil]
  · rw [unacknowledged, hremove, remove_highestAcknowledgedBatchID, List.filter_append,
      List.filter_eq_nil_iff.mpr fun b hb => by simpa using hrest b hb,
      List.filter_eq_self.mpr fun b hb => by simpa using hunack b hb, List.nil_append]

/-- An unacknowledged batch is removed. -/
theorem remove_unacknowledged {pre : List (MutationBatch κ)}
    (h : p.unacknowledged = pre ++ batch :: rest) :
    (p.remove [batch]).batches = p.acknowledgedBatches ++ (pre ++ rest) ∧
      (p.remove [batch]).acknowledgedBatches = p.acknowledgedBatches ∧
      (p.remove [batch]).unacknowledged = pre ++ rest := by
  have hbatches : p.batches = (p.acknowledgedBatches ++ pre) ++ [batch] ++ rest := by
    rw [p.batches_eq, h]
    simp
  have hremove : (p.remove [batch]).batches = p.acknowledgedBatches ++ (pre ++ rest) := by
    rw [remove_batches hbatches, List.append_assoc]
  have hack : ∀ b ∈ p.acknowledgedBatches, b.batchID ≤ p.highestAcknowledgedBatchID := fun b hb =>
    (mem_acknowledgedBatches.mp hb).2
  have hunack : ∀ b ∈ pre ++ rest, p.highestAcknowledgedBatchID < b.batchID := fun b hb =>
    (mem_unacknowledged.mp (h ▸ (List.mem_append.mp hb).elim (List.mem_append_left _)
      fun hb => List.mem_append_right _ (List.mem_cons_of_mem _ hb))).2
  refine ⟨hremove, ?_, ?_⟩
  · rw [acknowledgedBatches, hremove, remove_highestAcknowledgedBatchID, List.filter_append,
      List.filter_eq_self.mpr fun b hb => by simpa using hack b hb,
      List.filter_eq_nil_iff.mpr fun b hb => by simpa using hunack b hb, List.append_nil]
  · rw [unacknowledged, hremove, remove_highestAcknowledgedBatchID, List.filter_append,
      List.filter_eq_nil_iff.mpr fun b hb => by simpa using hack b hb,
      List.filter_eq_self.mpr fun b hb => by simpa using hunack b hb, List.nil_append]

end Acknowledge

/-- The last acknowledged batch is the one acknowledged last, if it is still pending. -/
def Current (p : Pending κ) : Prop :=
  ∀ b ∈ p.acknowledgedBatches.getLast?, b.batchID = p.highestAcknowledgedBatchID

theorem Current.startable {p : Pending κ} (h : p.Current) : p.Startable := by
  rcases List.eq_nil_or_concat p.acknowledgedBatches with hnil | ⟨front, last, hlast⟩
  · have hbatches := p.batches_eq
    rw [hnil, List.nil_append] at hbatches
    cases hunack : p.unacknowledged with
    | nil => exact Or.inl (hbatches.trans hunack)
    | cons b rest =>
        have hb : b ∈ p.unacknowledged := hunack ▸ List.mem_cons_self
        exact Or.inr ⟨b, (mem_unacknowledged.mp hb).1, (mem_unacknowledged.mp hb).2.le⟩
  · have hmem : last ∈ p.acknowledgedBatches := by simp [hlast]
    have hid : last.batchID = p.highestAcknowledgedBatchID := h last (by simp [hlast])
    exact Or.inr ⟨last, (mem_acknowledgedBatches.mp hmem).1, hid.ge⟩

theorem current_init (nextBatchID : ℕ) : (init nextBatchID : Pending κ).Current := by
  intro b hb
  rw [acknowledgedBatches_init] at hb
  cases hb

theorem Current.add {p : Pending κ} (h : p.Current) {mutations : List (Mutation κ)}
    (hne : mutations ≠ []) : (p.add mutations hne).Current := by
  rw [Current, acknowledgedBatches_add]
  exact h

theorem current_acknowledge {p : Pending κ} {batch : MutationBatch κ}
    {rest : List (MutationBatch κ)} (h : p.unacknowledged = batch :: rest)
    (hb : batch.batchID < p.nextBatchID) : (p.acknowledge batch.batchID hb).Current := by
  intro b hlast
  rw [(acknowledge_eq h hb).1, List.getLast?_concat, Option.mem_some_iff] at hlast
  rw [← hlast]
  rfl

theorem Current.remove_acknowledged {p : Pending κ} (h : p.Current)
    {batches rest : List (MutationBatch κ)} (hacked : p.acknowledgedBatches = batches ++ rest) :
    (p.remove batches).Current := by
  intro b hlast
  rw [(Pending.remove_acknowledged hacked).2.1] at hlast
  refine h b ?_
  rw [hacked]
  exact List.mem_getLast?_append_of_mem_getLast? hlast

theorem Current.remove_unacknowledged {p : Pending κ} (h : p.Current) {batch : MutationBatch κ}
    {pre rest : List (MutationBatch κ)} (hunack : p.unacknowledged = pre ++ batch :: rest) :
    (p.remove [batch]).Current := by
  rw [Current, (Pending.remove_unacknowledged hunack).2.1]
  exact h

end Pending

/-- An implementation of the queue, and the pending batches its states stand for. -/
class LawfulMutationQueue (κ : outParam Type) [DecidableEq κ] (Q : Type) [MutationQueue κ Q] where
  Represents : Q → Pending κ → Prop
  start_spec {q : Q} {p : Pending κ} : Represents q p → p.Startable →
    ∃ q' p', MutationQueue.start q = some q' ∧ Represents q' p' ∧ p'.batches = p.batches ∧
      (p'.highestAcknowledgedBatchID = p.highestAcknowledgedBatchID ∨
        p.batches = [] ∧ p'.highestAcknowledgedBatchID = batchIDUnknown)
  isEmpty_spec {q : Q} {p : Pending κ} : Represents q p →
    MutationQueue.isEmpty q = p.batches.isEmpty
  highestAcknowledgedBatchID_spec {q : Q} {p : Pending κ} : Represents q p →
    MutationQueue.highestAcknowledgedBatchID q = p.highestAcknowledgedBatchID
  acknowledgeBatch_spec {q : Q} {p : Pending κ} {batch : MutationBatch κ} : Represents q p →
    (hmem : batch ∈ p.batches) → p.highestAcknowledgedBatchID < batch.batchID →
    ∃ q', MutationQueue.acknowledgeBatch q batch = some q' ∧
      Represents q' (p.acknowledge batch.batchID (p.bounded batch hmem).2)
  addMutationBatch_spec {q : Q} {p : Pending κ} {mutations : List (Mutation κ)} :
    Represents q p → (h : mutations ≠ []) →
    ∃ q', MutationQueue.addMutationBatch q mutations = some (p.nextBatch mutations, q') ∧
      Represents q' (p.add mutations h)
  lookupMutationBatch_spec {q : Q} {p : Pending κ} (batchID : ℤ) : Represents q p →
    MutationQueue.lookupMutationBatch q batchID =
      some (p.batches.find? fun b => b.batchID = batchID)
  nextMutationBatchAfterBatchID_spec {q : Q} {p : Pending κ} (batchID : ℤ) :
    Represents q p →
    MutationQueue.nextMutationBatchAfterBatchID q batchID = some (p.nextAfter batchID)
  allMutationBatches_spec {q : Q} {p : Pending κ} : Represents q p →
    MutationQueue.allMutationBatches q = p.batches
  allMutationBatchesThroughBatchID_spec {q : Q} {p : Pending κ} (batchID : ℤ) :
    Represents q p →
    MutationQueue.allMutationBatchesThroughBatchID q batchID =
      p.batches.filter fun b => b.batchID ≤ batchID
  allMutationBatchesAffectingDocumentKey_spec {q : Q} {p : Pending κ} (key : κ) :
    Represents q p →
    MutationQueue.allMutationBatchesAffectingDocumentKey q key =
      some (p.batches.filter fun b => key ∈ b.keys)
  removeMutationBatches_spec {q : Q} {p : Pending κ} {batches : List (MutationBatch κ)} :
    Represents q p → batches ≠ [] → batches <:+: p.batches →
    ∃ q', MutationQueue.removeMutationBatches q batches = some q' ∧
      Represents q' (p.remove batches)
  performConsistencyCheck_spec {q : Q} {p : Pending κ} : Represents q p →
    MutationQueue.performConsistencyCheck q = some ()

/-! ## Runs of calls -/

/-- A call of the queue. -/
inductive QueueCall (κ : Type)
  | start
  | isEmpty
  | highestAcknowledgedBatchID
  | acknowledgeBatch (batch : MutationBatch κ)
  | addMutationBatch (mutations : List (Mutation κ))
  | lookupMutationBatch (batchID : ℤ)
  | nextMutationBatchAfterBatchID (batchID : ℤ)
  | allMutationBatches
  | allMutationBatchesThroughBatchID (batchID : ℤ)
  | allMutationBatchesAffectingDocumentKey (key : κ)
  | removeMutationBatches (batches : List (MutationBatch κ))
  | performConsistencyCheck

/-- What a call returns. -/
inductive QueueAnswer (κ : Type)
  | done
  | flag (b : Bool)
  | identifier (batchID : ℤ)
  | batch (batch : Option (MutationBatch κ))
  | batches (batches : List (MutationBatch κ))

namespace QueueCall

variable {κ Q : Type}

/-- The answer of an implementation, and the queue after the call. -/
def perform [MutationQueue κ Q] (q : Q) : QueueCall κ → Option (QueueAnswer κ × Q)
  | .start => (MutationQueue.start q).map fun q' => (.done, q')
  | .isEmpty => some (.flag (MutationQueue.isEmpty q), q)
  | .highestAcknowledgedBatchID =>
      some (.identifier (MutationQueue.highestAcknowledgedBatchID q), q)
  | .acknowledgeBatch batch =>
      (MutationQueue.acknowledgeBatch q batch).map fun q' => (.done, q')
  | .addMutationBatch mutations =>
      (MutationQueue.addMutationBatch q mutations).map fun r => (.batch (some r.1), r.2)
  | .lookupMutationBatch batchID =>
      (MutationQueue.lookupMutationBatch q batchID).map fun batch => (.batch batch, q)
  | .nextMutationBatchAfterBatchID batchID =>
      (MutationQueue.nextMutationBatchAfterBatchID q batchID).map fun batch => (.batch batch, q)
  | .allMutationBatches => some (.batches (MutationQueue.allMutationBatches q), q)
  | .allMutationBatchesThroughBatchID batchID =>
      some (.batches (MutationQueue.allMutationBatchesThroughBatchID q batchID), q)
  | .allMutationBatchesAffectingDocumentKey key =>
      (MutationQueue.allMutationBatchesAffectingDocumentKey q key).map fun bs => (.batches bs, q)
  | .removeMutationBatches batches =>
      (MutationQueue.removeMutationBatches q batches).map fun q' => (.done, q')
  | .performConsistencyCheck =>
      (MutationQueue.performConsistencyCheck q).map fun _ => (.done, q)

variable [DecidableEq κ]

/-- What the callers of the queue keep to: batches are acknowledged in order, and those
removed are pending and next to each other. -/
def AllowedBy (p : Pending κ) : QueueCall κ → Prop
  | .start => p.Startable
  | .acknowledgeBatch batch =>
      batch ∈ p.batches ∧ p.highestAcknowledgedBatchID < batch.batchID
  | .addMutationBatch mutations => mutations ≠ []
  | .removeMutationBatches batches => batches ≠ [] ∧ batches <:+: p.batches
  | _ => True

/-- The answer that the pending batches call for, and the pending batches afterwards. -/
def Answers (p : Pending κ) : QueueCall κ → QueueAnswer κ → Pending κ → Prop
  | .start, answer, p' => answer = .done ∧ p'.batches = p.batches ∧
      (p'.highestAcknowledgedBatchID = p.highestAcknowledgedBatchID ∨
        p.batches = [] ∧ p'.highestAcknowledgedBatchID = batchIDUnknown)
  | .isEmpty, answer, p' => answer = .flag p.batches.isEmpty ∧ p' = p
  | .highestAcknowledgedBatchID, answer, p' =>
      answer = .identifier p.highestAcknowledgedBatchID ∧ p' = p
  | .acknowledgeBatch batch, answer, p' =>
      answer = .done ∧ ∃ h, p' = p.acknowledge batch.batchID h
  | .addMutationBatch mutations, answer, p' =>
      answer = .batch (some (p.nextBatch mutations)) ∧ ∃ h, p' = p.add mutations h
  | .lookupMutationBatch batchID, answer, p' =>
      answer = .batch (p.batches.find? fun b => b.batchID = batchID) ∧ p' = p
  | .nextMutationBatchAfterBatchID batchID, answer, p' =>
      answer = .batch (p.nextAfter batchID) ∧ p' = p
  | .allMutationBatches, answer, p' => answer = .batches p.batches ∧ p' = p
  | .allMutationBatchesThroughBatchID batchID, answer, p' =>
      answer = .batches (p.batches.filter fun b => b.batchID ≤ batchID) ∧ p' = p
  | .allMutationBatchesAffectingDocumentKey key, answer, p' =>
      answer = .batches (p.batches.filter fun b => key ∈ b.keys) ∧ p' = p
  | .removeMutationBatches batches, answer, p' => answer = .done ∧ p' = p.remove batches
  | .performConsistencyCheck, answer, p' => answer = .done ∧ p' = p

/-- What the callers of a queue keep to, and what they can expect of it. -/
def specification (κ : Type) [DecidableEq κ] :
    Specification (Pending κ) (QueueCall κ) (QueueAnswer κ) where
  Allowed := AllowedBy
  Answers := Answers

variable [MutationQueue κ Q] [LawfulMutationQueue κ Q]

open LawfulMutationQueue in
/-- **An implementation of the queue** gives the answers that the pending batches call for. -/
theorem meets_specification : (specification κ).Meets (perform (κ := κ) (Q := Q)) Represents := by
  intro q p call h allowed
  cases call with
  | start =>
      obtain ⟨q', p', hq', h', hbatches, hack⟩ := start_spec h allowed
      exact ⟨_, q', p', by rw [perform, hq', Option.map_some], ⟨rfl, hbatches, hack⟩, h'⟩
  | isEmpty =>
      exact ⟨_, q, p, by rw [perform, isEmpty_spec h], ⟨rfl, rfl⟩, h⟩
  | highestAcknowledgedBatchID =>
      exact ⟨_, q, p, by rw [perform, highestAcknowledgedBatchID_spec h], ⟨rfl, rfl⟩, h⟩
  | acknowledgeBatch batch =>
      obtain ⟨q', hq', h'⟩ := acknowledgeBatch_spec h allowed.1 allowed.2
      exact ⟨_, q', _, by rw [perform, hq', Option.map_some], ⟨rfl, _, rfl⟩, h'⟩
  | addMutationBatch mutations =>
      obtain ⟨q', hq', h'⟩ := addMutationBatch_spec h allowed
      exact ⟨_, q', _, by rw [perform, hq', Option.map_some], ⟨rfl, allowed, rfl⟩, h'⟩
  | lookupMutationBatch batchID =>
      exact ⟨_, q, p, by rw [perform, lookupMutationBatch_spec batchID h, Option.map_some],
        ⟨rfl, rfl⟩, h⟩
  | nextMutationBatchAfterBatchID batchID =>
      exact ⟨_, q, p, by rw [perform, nextMutationBatchAfterBatchID_spec batchID h,
        Option.map_some], ⟨rfl, rfl⟩, h⟩
  | allMutationBatches =>
      exact ⟨_, q, p, by rw [perform, allMutationBatches_spec h], ⟨rfl, rfl⟩, h⟩
  | allMutationBatchesThroughBatchID batchID =>
      exact ⟨_, q, p, by rw [perform, allMutationBatchesThroughBatchID_spec batchID h],
        ⟨rfl, rfl⟩, h⟩
  | allMutationBatchesAffectingDocumentKey key =>
      exact ⟨_, q, p, by rw [perform, allMutationBatchesAffectingDocumentKey_spec key h,
        Option.map_some], ⟨rfl, rfl⟩, h⟩
  | removeMutationBatches batches =>
      obtain ⟨q', hq', h'⟩ := removeMutationBatches_spec h allowed.1 allowed.2
      exact ⟨_, q', _, by rw [perform, hq', Option.map_some], ⟨rfl, rfl⟩, h'⟩
  | performConsistencyCheck =>
      exact ⟨_, q, p, by rw [perform, performConsistencyCheck_spec h, Option.map_some],
        ⟨rfl, rfl⟩, h⟩

end QueueCall

end CocoMap
