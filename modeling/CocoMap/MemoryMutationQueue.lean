import Mathlib.Data.Prod.Lex
import CocoMap.Lib.SortedMap
import CocoMap.MutationQueue

/-!
# The in-memory queue

`FSTMemoryMutationQueue` finds a batch by subtraction: its position is the difference
between its identifier and that of the first batch.  So the identifiers in the queue have
to stay consecutive, and a batch that is rejected while an older one is still held
becomes a tombstone, to be removed when it reaches the front.

`Valid` is the invariant behind the subtraction, and `represents` lemmas show that
tombstones and positions are not seen by any caller.
-/

namespace CocoMap

/-- A queue in memory, with the index of the batches that write a document. -/
structure MemoryMutationQueue (κ : Type) [LinearOrder κ] where
  queue : List (MutationBatch κ)
  batchesByDocumentKey : SortedMap (κ ×ₗ ℤ) Unit
  nextBatchID : ℤ
  highestAcknowledgedBatchID : ℤ

namespace MemoryMutationQueue

variable {κ : Type} [LinearOrder κ]

def init : MemoryMutationQueue κ where
  queue := []
  batchesByDocumentKey := .empty
  nextBatchID := 1
  highestAcknowledgedBatchID := batchIDUnknown

def isEmpty (q : MemoryMutationQueue κ) : Bool := q.queue.isEmpty

/-- The position of an identifier.  It can be negative, or past the end. -/
def indexOfBatchID (q : MemoryMutationQueue κ) (batchID : ℤ) : ℤ :=
  match q.queue with
  -- As an index this is past the end of the queue
  | [] => 0
  | firstBatch :: _ => batchID - firstBatch.batchID

def indexOfExistingBatchID (q : MemoryMutationQueue κ) (batchID : ℤ) : Option ℕ :=
  let index := q.indexOfBatchID batchID
  if 0 ≤ index ∧ index < q.queue.length then some index.toNat else none

def start (q : MemoryMutationQueue κ) : Option (MemoryMutationQueue κ) :=
  let q' := if q.isEmpty then
    { q with nextBatchID := 1, highestAcknowledgedBatchID := batchIDUnknown } else q
  if q'.highestAcknowledgedBatchID < q'.nextBatchID then some q' else none

def acknowledgeBatch (q : MemoryMutationQueue κ) (batch : MutationBatch κ) :
    Option (MemoryMutationQueue κ) := do
  guard (q.highestAcknowledgedBatchID < batch.batchID)
  let batchIndex ← q.indexOfExistingBatchID batch.batchID
  let check ← q.queue[batchIndex]?
  guard (batch.batchID = check.batchID)
  guard (!check.isTombstone)
  return { q with highestAcknowledgedBatchID := batch.batchID }

def addMutationBatch (q : MemoryMutationQueue κ) (mutations : List (Mutation κ)) :
    Option (MutationBatch κ × MemoryMutationQueue κ) := do
  guard (0 < mutations.length)
  let batch : MutationBatch κ := { batchID := q.nextBatchID, mutations }
  guard (∀ prior ∈ q.queue.getLast?, prior.batchID < batch.batchID)
  return (batch, { q with
    queue := q.queue ++ [batch]
    batchesByDocumentKey := mutations.foldl (fun references mutation =>
      references.insert (toLex (mutation.key, batch.batchID)) ()) q.batchesByDocumentKey
    nextBatchID := q.nextBatchID + 1 })

def lookupMutationBatch (q : MemoryMutationQueue κ) (batchID : ℤ) :
    Option (Option (MutationBatch κ)) :=
  let index := q.indexOfBatchID batchID
  if index < 0 ∨ q.queue.length ≤ index then some none
  else do
    let batch ← q.queue[index.toNat]?
    guard (batch.batchID = batchID)
    return if batch.isTombstone then none else some batch

def nextMutationBatchAfterBatchID (q : MemoryMutationQueue κ) (batchID : ℤ) :
    Option (MutationBatch κ) :=
  let nextBatchID := max batchID q.highestAcknowledgedBatchID + 1
  let rawIndex := q.indexOfBatchID nextBatchID
  let index := if rawIndex < 0 then 0 else rawIndex.toNat
  (q.queue.drop index).find? fun batch => !batch.isTombstone

def allLiveMutationBatchesBeforeIndex (q : MemoryMutationQueue κ) (endIndex : ℕ) :
    List (MutationBatch κ) :=
  (q.queue.take endIndex).filter fun batch => !batch.isTombstone

def allMutationBatches (q : MemoryMutationQueue κ) : List (MutationBatch κ) :=
  q.allLiveMutationBatchesBeforeIndex q.queue.length

def allMutationBatchesThroughBatchID (q : MemoryMutationQueue κ) (batchID : ℤ) :
    List (MutationBatch κ) :=
  let endIndex := q.indexOfBatchID batchID
  q.allLiveMutationBatchesBeforeIndex <|
    if endIndex < 0 then 0
    else if q.queue.length ≤ endIndex then q.queue.length
    else endIndex.toNat + 1

/-- A scan of the index from the first batch that could write the document, up to the first
entry for another document. -/
def allMutationBatchesAffectingDocumentKey (q : MemoryMutationQueue κ) (documentKey : κ) :
    Option (List (MutationBatch κ)) :=
  ((q.batchesByDocumentKey.seek (toLex (documentKey, 0))).takeWhile fun reference =>
    (ofLex reference.1).1 = documentKey).mapM fun reference =>
      (q.lookupMutationBatch (ofLex reference.1).2).join

/-- The end of the range of batches to remove: `queue` is the part of the queue from
`queueIndex` on, and `batches` are those still to be found in it. -/
def contiguousEnd : List (MutationBatch κ) → List (MutationBatch κ) → ℕ → Option ℕ
  | batch :: queue, expected :: batches, queueIndex =>
      if batch.isTombstone then contiguousEnd queue (expected :: batches) (queueIndex + 1)
      else if batch.batchID = expected.batchID then contiguousEnd queue batches (queueIndex + 1)
      else none
  | _, _, queueIndex => some queueIndex

/-- The index without the writes of the batches. -/
def removeReferences (references : SortedMap (κ ×ₗ ℤ) Unit) (batches : List (MutationBatch κ)) :
    SortedMap (κ ×ₗ ℤ) Unit :=
  batches.foldl (fun references batch =>
    batch.mutations.foldl (fun references mutation =>
      references.erase (toLex (mutation.key, batch.batchID))) references) references

def removeMutationBatches (q : MemoryMutationQueue κ) (batches : List (MutationBatch κ)) :
    Option (MemoryMutationQueue κ) := do
  let firstBatch ← batches.head?
  let startIndex ← q.indexOfExistingBatchID firstBatch.batchID
  let found ← q.queue[startIndex]?
  guard (found.batchID = firstBatch.batchID)
  let queueIndex ← contiguousEnd (q.queue.drop (startIndex + 1)) batches.tail (startIndex + 1)
  return { q with
    queue :=
      -- Only actually remove batches if removing at the front of the queue.
      if startIndex = 0 then
        (q.queue.drop queueIndex).dropWhile MutationBatch.isTombstone
      else
        q.queue.take startIndex ++
          ((q.queue.take queueIndex).drop startIndex).map MutationBatch.toTombstone ++
          q.queue.drop queueIndex
    batchesByDocumentKey := removeReferences q.batchesByDocumentKey batches }

def performConsistencyCheck (q : MemoryMutationQueue κ) : Option Unit :=
  if q.queue.isEmpty ∧ ¬ q.batchesByDocumentKey.entries.isEmpty then none else some ()

instance : MutationQueue κ (MemoryMutationQueue κ) where
  start := start
  isEmpty := isEmpty
  highestAcknowledgedBatchID := highestAcknowledgedBatchID
  acknowledgeBatch := acknowledgeBatch
  addMutationBatch := addMutationBatch
  lookupMutationBatch := lookupMutationBatch
  nextMutationBatchAfterBatchID q batchID := some (q.nextMutationBatchAfterBatchID batchID)
  allMutationBatches := allMutationBatches
  allMutationBatchesThroughBatchID := allMutationBatchesThroughBatchID
  allMutationBatchesAffectingDocumentKey := allMutationBatchesAffectingDocumentKey
  removeMutationBatches := removeMutationBatches
  performConsistencyCheck := performConsistencyCheck

/-! ## The invariant -/

/-- Identifiers are consecutive and end just before the next one; the first batch is no
tombstone; the index has exactly the writes of the batches in the queue. -/
structure Valid (q : MemoryMutationQueue κ) : Prop where
  consecutive :
    Consecutive MutationBatch.batchID (q.nextBatchID - q.queue.length) q.queue
  first_live : ∀ batch ∈ q.queue.head?, batch.isTombstone = false
  index : ∀ key batchID, (toLex (key, batchID), ()) ∈ q.batchesByDocumentKey ↔
    ∃ batch ∈ q.queue, batch.batchID = batchID ∧ key ∈ batch.keys

/-- The pending batches are those of the queue that are no tombstones. -/
structure Represents (q : MemoryMutationQueue κ) (p : Pending κ) : Prop extends Valid q where
  batches : p.batches = q.queue.filter fun batch => !batch.isTombstone
  nextBatchID : p.nextBatchID = q.nextBatchID
  highestAcknowledgedBatchID : p.highestAcknowledgedBatchID = q.highestAcknowledgedBatchID

variable {q : MemoryMutationQueue κ} {p : Pending κ}

theorem Valid.queue_eq_nil_iff (h : q.Valid) :
    q.queue = [] ↔ (q.queue.filter fun batch => !batch.isTombstone) = [] := by
  cases hqueue : q.queue with
  | nil => simp
  | cons first rest =>
      have hlive : first.isTombstone = false := h.first_live first (by rw [hqueue]; rfl)
      rw [List.filter_cons_of_pos (by simp [hlive])]
      simp

/-- The position of an identifier, when there is a queue. -/
theorem Valid.indexOfBatchID_eq (h : q.Valid) (hne : q.queue ≠ []) (batchID : ℤ) :
    q.indexOfBatchID batchID = batchID - (q.nextBatchID - q.queue.length) := by
  have hcons := h.consecutive
  rw [indexOfBatchID]
  cases hqueue : q.queue with
  | nil => exact absurd hqueue hne
  | cons first rest =>
      rw [hqueue] at hcons
      rw [← hcons.1]

/-- A batch of the queue is found at its position. -/
theorem Valid.indexOfExistingBatchID_eq (h : q.Valid) {front back : List (MutationBatch κ)}
    {batch : MutationBatch κ} (hqueue : q.queue = front ++ batch :: back) :
    q.indexOfExistingBatchID batch.batchID = some front.length := by
  have hcons := h.consecutive
  have hindex := h.indexOfBatchID_eq (by simp [hqueue]) batch.batchID
  have hlength : q.queue.length = front.length + (back.length + 1) := by simp [hqueue]
  have hid : batch.batchID = q.nextBatchID - q.queue.length + front.length := by
    rw [hqueue, Consecutive.append_iff] at hcons
    rw [hqueue]
    exact hcons.2.1
  rw [indexOfExistingBatchID, hindex, if_pos (by omega)]
  congr 1
  omega

/-- A pending batch is in the queue. -/
theorem Represents.mem_queue (h : q.Represents p) {batch : MutationBatch κ}
    (hmem : batch ∈ p.batches) : batch ∈ q.queue ∧ batch.isTombstone = false := by
  rw [h.batches] at hmem
  simpa using hmem

/-! ## What each call does -/

theorem start_spec (h : q.Represents p) :
    ∃ q' p', q.start = some q' ∧ q'.Represents p' ∧ p'.batches = p.batches ∧
      (p'.highestAcknowledgedBatchID = p.highestAcknowledgedBatchID ∨
        p.batches = [] ∧ p'.highestAcknowledgedBatchID = batchIDUnknown) := by
  have hlt := p.acknowledged
  rw [h.nextBatchID, h.highestAcknowledgedBatchID] at hlt
  cases hempty : q.isEmpty with
  | false =>
      refine ⟨q, p, ?_, h, rfl, Or.inl rfl⟩
      rw [start, hempty, if_neg Bool.false_ne_true, if_pos hlt]
  | true =>
      have hqueue : q.queue = [] := List.isEmpty_iff.mp hempty
      have hbatches : p.batches = [] := by rw [h.batches, hqueue]; rfl
      refine ⟨{ q with nextBatchID := 1, highestAcknowledgedBatchID := batchIDUnknown },
        Pending.init 1, ?_, ?_, hbatches.symm, Or.inr ⟨hbatches, rfl⟩⟩
      · rw [start, hempty]
        rfl
      · exact {
          consecutive := by simp [hqueue]
          first_live := h.first_live
          index := h.index
          batches := by simp [hqueue, Pending.init]
          nextBatchID := rfl
          highestAcknowledgedBatchID := rfl }

theorem isEmpty_spec (h : q.Represents p) : q.isEmpty = p.batches.isEmpty := by
  rw [isEmpty, h.batches, Bool.eq_iff_iff, List.isEmpty_iff, List.isEmpty_iff]
  exact h.queue_eq_nil_iff

theorem acknowledgeBatch_spec (h : q.Represents p) {batch : MutationBatch κ}
    (hmem : batch ∈ p.batches) (hack : p.highestAcknowledgedBatchID < batch.batchID) :
    ∃ q', q.acknowledgeBatch batch = some q' ∧
      q'.Represents (p.acknowledge batch.batchID (p.bounded batch hmem).2) := by
  obtain ⟨hqueue, hlive⟩ := h.mem_queue hmem
  obtain ⟨front, back, hsplit⟩ := List.append_of_mem hqueue
  have hindex := h.indexOfExistingBatchID_eq hsplit
  have hget : q.queue[front.length]? = some batch := by simp [hsplit]
  rw [h.highestAcknowledgedBatchID] at hack
  refine ⟨{ q with highestAcknowledgedBatchID := batch.batchID }, ?_, ?_⟩
  · simp [acknowledgeBatch, hindex, hget, hlive, hack]
  · exact {
      consecutive := h.consecutive
      first_live := h.first_live
      index := h.index
      batches := h.batches
      nextBatchID := h.nextBatchID
      highestAcknowledgedBatchID := rfl }

theorem addMutationBatch_spec (h : q.Represents p) {mutations : List (Mutation κ)}
    (hne : mutations ≠ []) :
    ∃ q', q.addMutationBatch mutations = some (p.nextBatch mutations, q') ∧
      q'.Represents (p.add mutations hne) := by
  have hbatch : p.nextBatch mutations = { batchID := q.nextBatchID, mutations } := by
    rw [Pending.nextBatch, h.nextBatchID]
  have hprior : ∀ prior, q.queue.getLast? = some prior → prior.batchID < q.nextBatchID := by
    intro prior hlast
    have := (h.consecutive.mem_bounds (List.mem_of_mem_getLast? hlast)).2
    omega
  have hlive : (p.nextBatch mutations).isTombstone = false := by
    simpa [MutationBatch.isTombstone, Pending.nextBatch] using hne
  refine ⟨{ q with
    queue := q.queue ++ [{ batchID := q.nextBatchID, mutations }]
    batchesByDocumentKey := mutations.foldl (fun references mutation =>
      references.insert (toLex (mutation.key, q.nextBatchID)) ()) q.batchesByDocumentKey
    nextBatchID := q.nextBatchID + 1 }, ?_, ?_⟩
  · simp [addMutationBatch, guard, List.length_pos_iff.mpr hne, hbatch, if_pos hprior]
  · exact {
      consecutive := by
        rw [Consecutive.append_iff]
        have hlength : q.nextBatchID + 1 - ((q.queue.length + 1 : ℕ) : ℤ) =
            q.nextBatchID - q.queue.length := by omega
        simp only [List.length_append, List.length_singleton, hlength]
        exact ⟨h.consecutive, by simp, trivial⟩
      first_live := by
        intro batch hhead
        cases hqueue : q.queue with
        | nil =>
            rw [hqueue] at hhead
            cases hhead
            rw [← hbatch]
            exact hlive
        | cons first rest =>
            rw [hqueue] at hhead
            exact h.first_live batch (by rw [hqueue]; exact hhead)
      index := by
        intro key batchID
        rw [SortedMap.mem_foldl_insert, h.index]
        simp [MutationBatch.keys, and_comm, or_comm, and_left_comm (b := q.nextBatchID = batchID)]
      batches := by
        rw [Pending.add_batches, h.batches, List.filter_append, ← hbatch,
          List.filter_cons_of_pos (by simp [hlive]), List.filter_nil]
      nextBatchID := by rw [Pending.add_nextBatchID, h.nextBatchID]
      highestAcknowledgedBatchID := h.highestAcknowledgedBatchID }

/-- **Subtraction finds the batch with an identifier**, if the queue has one. -/
theorem lookupMutationBatch_spec (h : q.Represents p) (batchID : ℤ) :
    q.lookupMutationBatch batchID = some (p.batches.find? fun b => b.batchID = batchID) := by
  have hnone (hout : ∀ b ∈ q.queue, b.batchID ≠ batchID) :
      (p.batches.find? fun b => b.batchID = batchID) = none := by
    rw [List.find?_eq_none]
    intro b hb
    simpa using hout b (h.mem_queue hb).1
  by_cases hempty : q.queue = []
  · rw [hnone (by simp [hempty])]
    simp [lookupMutationBatch, hempty]
  have hindex := h.indexOfBatchID_eq hempty batchID
  by_cases hout : q.indexOfBatchID batchID < 0 ∨ q.queue.length ≤ q.indexOfBatchID batchID
  · rw [lookupMutationBatch, if_pos hout, hnone fun b hb heq => ?_]
    have := h.consecutive.mem_bounds hb
    omega
  · rw [lookupMutationBatch, if_neg hout]
    have hfind := h.consecutive.getElem?_eq_find? (k := batchID) (by omega)
    rw [← hindex] at hfind
    obtain ⟨batch, hbatch⟩ : ∃ batch, q.queue[(q.indexOfBatchID batchID).toNat]? = some batch :=
      ⟨_, List.getElem?_eq_getElem (by omega)⟩
    rw [hbatch, eq_comm] at hfind
    obtain ⟨hmem, hid⟩ := h.consecutive.increasing.find?_eq_some_iff.mp hfind
    cases htombstone : batch.isTombstone with
    | true =>
        -- no live batch shares the identifier of a tombstone
        have hlive : (p.batches.find? fun b => b.batchID = batchID) = none := by
          rw [List.find?_eq_none]
          intro b hb
          obtain ⟨hqueue, hb'⟩ := h.mem_queue hb
          have hne : b.batchID ≠ batchID := fun heq => by
            rw [h.consecutive.increasing.eq_of_mem hqueue hmem (heq.trans hid.symm),
              htombstone] at hb'
            cases hb'
          simpa using hne
        simp [hbatch, hid, htombstone, hlive]
    | false =>
        have hlive : (p.batches.find? fun b => b.batchID = batchID) = some batch := by
          rw [p.increasing.find?_eq_some_iff, h.batches]
          simp [hmem, htombstone, hid]
        simp [hbatch, hid, htombstone, hlive]

theorem nextMutationBatchAfterBatchID_spec (h : q.Represents p) (batchID : ℤ) :
    q.nextMutationBatchAfterBatchID batchID = p.nextAfter batchID := by
  have hdrop : q.queue.drop (q.indexOfBatchID
        (max batchID q.highestAcknowledgedBatchID + 1)).toNat =
      q.queue.filter fun b => max batchID q.highestAcknowledgedBatchID + 1 ≤ b.batchID := by
    by_cases hempty : q.queue = []
    · simp [hempty]
    · rw [h.indexOfBatchID_eq hempty]
      exact h.consecutive.drop_eq_filter _
  have hindex (raw : ℤ) : (if raw < 0 then 0 else raw.toNat) = raw.toNat := by
    split <;> omega
  rw [nextMutationBatchAfterBatchID, hindex, hdrop, Pending.nextAfter, h.batches,
    h.highestAcknowledgedBatchID, List.find?_filter, List.find?_filter]
  congr 1
  funext b
  rw [decide_eq_decide, and_comm, decide_eq_true_eq, decide_eq_true_eq, Int.add_one_le_iff]

theorem allMutationBatches_spec (h : q.Represents p) : q.allMutationBatches = p.batches := by
  rw [allMutationBatches, allLiveMutationBatchesBeforeIndex, List.take_length, h.batches]

theorem allMutationBatchesThroughBatchID_spec (h : q.Represents p) (batchID : ℤ) :
    q.allMutationBatchesThroughBatchID batchID =
      p.batches.filter fun b => b.batchID ≤ batchID := by
  by_cases hempty : q.queue = []
  · simp [allMutationBatchesThroughBatchID, allLiveMutationBatchesBeforeIndex, h.batches, hempty]
  have hindex := h.indexOfBatchID_eq hempty batchID
  have htake := h.consecutive.take_eq_filter (batchID + 1)
  have hend : q.queue.take (if q.indexOfBatchID batchID < 0 then 0
        else if q.queue.length ≤ q.indexOfBatchID batchID then q.queue.length
        else (q.indexOfBatchID batchID).toNat + 1) =
      q.queue.take (batchID + 1 - (q.nextBatchID - q.queue.length)).toNat := by
    split
    · congr 1
      omega
    · split
      · rw [List.take_length, List.take_of_length_le (by omega)]
      · congr 1
        omega
  rw [allMutationBatchesThroughBatchID, allLiveMutationBatchesBeforeIndex, hend, htake,
    h.batches, List.filter_comm]
  congr 1
  funext b
  exact decide_eq_decide.mpr Int.lt_add_one_iff

/-- A tombstone writes no document. -/
theorem exists_live_iff {queue : List (MutationBatch κ)} {key : κ} {batchID : ℤ} :
    (∃ batch ∈ queue.filter fun b => !b.isTombstone, batch.batchID = batchID ∧ key ∈ batch.keys) ↔
      ∃ batch ∈ queue, batch.batchID = batchID ∧ key ∈ batch.keys := by
  constructor
  · rintro ⟨batch, hmem, hid, hkey⟩
    exact ⟨batch, List.mem_of_mem_filter hmem, hid, hkey⟩
  · rintro ⟨batch, hmem, hid, hkey⟩
    obtain ⟨mutation, hmutation, -⟩ := MutationBatch.mem_keys.mp hkey
    have hlive : batch.isTombstone = false := by
      rw [MutationBatch.isTombstone, List.isEmpty_eq_false_iff]
      exact List.ne_nil_of_mem hmutation
    exact ⟨batch, by simp [hmem, hlive], hid, hkey⟩

/-- The index has the pending writes of a document, and no others. -/
theorem Represents.mem_index (h : q.Represents p) {key : κ} {batchID : ℤ} :
    (toLex (key, batchID), ()) ∈ q.batchesByDocumentKey ↔
      ∃ batch ∈ p.batches, batch.batchID = batchID ∧ key ∈ batch.keys := by
  rw [h.index, h.batches, exists_live_iff]

/-- **The scan of the index finds the batches that write a document**, in order. -/
theorem allMutationBatchesAffectingDocumentKey_spec (h : q.Represents p) (key : κ) :
    q.allMutationBatchesAffectingDocumentKey key =
      some (p.batches.filter fun b => key ∈ b.keys) := by
  have hscan : (q.batchesByDocumentKey.seek (toLex (key, 0))).takeWhile
        (fun reference => (ofLex reference.1).1 = key) =
      (p.batches.filter fun b => key ∈ b.keys).map fun b => (toLex (key, b.batchID), ()) := by
    rw [SortedMap.takeWhile_seek_fst, SortedMap.filter_fst_eq_map
      (l := (p.batches.filter fun b => key ∈ b.keys).map MutationBatch.batchID), List.map_map]
    · rfl
    · exact List.pairwise_map.mpr (p.increasing.filter _)
    · intro batchID
      rw [h.mem_index]
      simp [and_assoc, and_comm (a := _ = batchID)]
    · intro e he hkey
      have hmem : (toLex (key, (ofLex e.1).2), ()) ∈ q.batchesByDocumentKey := by
        rw [← hkey]
        exact he
      obtain ⟨batch, hbatch, hid, -⟩ := h.mem_index.mp hmem
      exact hid ▸ (p.bounded batch hbatch).1
  rw [allMutationBatchesAffectingDocumentKey, hscan]
  refine List.mapM_eq_some_self fun b hb => ?_
  have hfind : (p.batches.find? fun b' => b'.batchID = b.batchID) = some b :=
    p.increasing.find?_eq_some_iff.mpr ⟨List.mem_of_mem_filter hb, rfl⟩
  rw [ofLex_toLex, lookupMutationBatch_spec h, hfind]
  rfl

/-! ### Removal -/

theorem mem_removeReferences {references : SortedMap (κ ×ₗ ℤ) Unit}
    {batches : List (MutationBatch κ)} {key : κ} {batchID : ℤ} :
    (toLex (key, batchID), ()) ∈ removeReferences references batches ↔
      (toLex (key, batchID), ()) ∈ references ∧
        ∀ batch ∈ batches, batch.batchID = batchID → key ∉ batch.keys := by
  induction batches generalizing references with
  | nil => simp [removeReferences]
  | cons batch batches ih =>
      have hcons : removeReferences references (batch :: batches) =
          removeReferences (batch.mutations.foldl (fun references mutation =>
            references.erase (toLex (mutation.key, batch.batchID))) references) batches := rfl
      rw [hcons, ih, SortedMap.mem_foldl_erase, List.forall_mem_cons, and_assoc]
      refine and_congr_right fun _ => and_congr_left fun _ => ?_
      simp only [ne_eq, toLex_inj, Prod.mk.injEq, not_and, MutationBatch.mem_keys, not_exists]
      exact ⟨fun h hid mutation hmem hkey => h mutation hmem hkey hid,
        fun h mutation hmem hkey hid => h hid mutation hmem hkey⟩

omit [LinearOrder κ] in
/-- The range that is found ends after the last of the batches, tombstones included. -/
theorem contiguousEnd_eq {queue batches post : List (MutationBatch κ)}
    (h : (queue.filter fun b => !b.isTombstone) = batches ++ post) (queueIndex : ℕ) :
    ∃ front back, queue = front ++ back ∧
      contiguousEnd queue batches queueIndex = some (queueIndex + front.length) ∧
      (front.filter fun b => !b.isTombstone) = batches ∧
      (back.filter fun b => !b.isTombstone) = post := by
  induction queue generalizing batches queueIndex with
  | nil =>
      obtain ⟨rfl, rfl⟩ := List.append_eq_nil_iff.mp h.symm
      exact ⟨[], [], rfl, rfl, rfl, rfl⟩
  | cons batch queue ih =>
      cases batches with
      | nil => exact ⟨[], batch :: queue, rfl, rfl, rfl, h⟩
      | cons expected batches =>
          cases htombstone : batch.isTombstone with
          | true =>
              rw [List.filter_cons_of_neg (by simp [htombstone])] at h
              obtain ⟨front, back, rfl, hend, hfront, hback⟩ := ih h (queueIndex + 1)
              refine ⟨batch :: front, back, rfl, ?_, ?_, hback⟩
              · rw [contiguousEnd, if_pos htombstone, hend, List.length_cons]
                congr 1
                omega
              · rw [List.filter_cons_of_neg (by simp [htombstone]), hfront]
          | false =>
              rw [List.filter_cons_of_pos (by simp [htombstone]), List.cons_append] at h
              obtain ⟨rfl, htail⟩ := List.cons.inj h
              obtain ⟨front, back, rfl, hend, hfront, hback⟩ := ih htail (queueIndex + 1)
              refine ⟨batch :: front, back, rfl, ?_, ?_, hback⟩
              · rw [contiguousEnd, if_neg (by simp [htombstone]), if_pos rfl, hend, List.length_cons]
                congr 1
                omega
              · rw [List.filter_cons_of_pos (by simp [htombstone]), hfront]

/-- The batches to remove in the queue, with the tombstones between them. -/
theorem Represents.split (h : q.Represents p) {first : MutationBatch κ}
    {pre rest post : List (MutationBatch κ)} (hbatches : p.batches = pre ++ first :: rest ++ post) :
    ∃ start range back, q.queue = start ++ (first :: range) ++ back ∧
      (start.filter fun b => !b.isTombstone) = pre ∧
      (back.filter fun b => !b.isTombstone) = post ∧
      contiguousEnd (range ++ back) rest (start.length + 1) =
        some (start.length + 1 + range.length) := by
  have hfilter : (q.queue.filter fun b => !b.isTombstone) = pre ++ (first :: (rest ++ post)) := by
    rw [← h.batches, hbatches, List.append_assoc, List.cons_append]
  obtain ⟨front, suffix, hqueue, hpre, hsuffix⟩ := List.filter_eq_append_iff.mp hfilter
  obtain ⟨tombstones, tail, rfl, htombstones, -, htail⟩ := List.filter_eq_cons_iff.mp hsuffix
  obtain ⟨range, back, rfl, hend, -, hback⟩ :=
    contiguousEnd_eq htail ((front ++ tombstones).length + 1)
  refine ⟨front ++ tombstones, range, back, ?_, ?_, hback, hend⟩
  · rw [hqueue]
    simp
  · rw [List.filter_append, hpre, List.filter_eq_nil_iff.mpr htombstones, List.append_nil]

/-- The index after a removal has the writes of the batches that remain. -/
theorem Represents.mem_removeReferences (h : q.Represents p) {batches : List (MutationBatch κ)}
    (hsub : ∀ batch ∈ batches, batch ∈ p.batches) {key : κ} {batchID : ℤ} :
    (toLex (key, batchID), ()) ∈ removeReferences q.batchesByDocumentKey batches ↔
      ∃ batch ∈ (p.remove batches).batches, batch.batchID = batchID ∧ key ∈ batch.keys := by
  have hmem {batch : MutationBatch κ} : batch ∈ (p.remove batches).batches ↔
      batch ∈ p.batches ∧ ∀ b ∈ batches, b.batchID ≠ batch.batchID := by
    simp [Pending.remove]
  rw [MemoryMutationQueue.mem_removeReferences, h.mem_index]
  constructor
  · rintro ⟨⟨batch, hbatch, rfl, hkey⟩, hnot⟩
    refine ⟨batch, hmem.mpr ⟨hbatch, fun b hb heq => ?_⟩, rfl, hkey⟩
    exact hnot b hb heq (p.increasing.eq_of_mem (hsub b hb) hbatch heq ▸ hkey)
  · rintro ⟨batch, hbatch, rfl, hkey⟩
    obtain ⟨hbatch, hnot⟩ := hmem.mp hbatch
    exact ⟨⟨batch, hbatch, rfl, hkey⟩, fun b hb heq => absurd heq (hnot b hb)⟩

/-- **Removal takes out exactly the batches**, at the front for good and elsewhere by leaving
tombstones, and never stops on an assertion. -/
theorem removeMutationBatches_spec (h : q.Represents p) {batches : List (MutationBatch κ)}
    (hne : batches ≠ []) (hpart : batches <:+: p.batches) :
    ∃ q', q.removeMutationBatches batches = some q' ∧ q'.Represents (p.remove batches) := by
  obtain ⟨pre, post, hbatches⟩ := hpart
  cases batches with | nil => exact absurd rfl hne | cons first rest => ?_
  obtain ⟨start, range, back, hqueue, hstart, hback, hend⟩ := h.split hbatches.symm
  have hindex : q.indexOfExistingBatchID first.batchID = some start.length :=
    h.indexOfExistingBatchID_eq (by simpa using hqueue)
  have hget : q.queue[start.length]? = some first := by simp [hqueue]
  have hdrop : q.queue.drop (start.length + 1) = range ++ back := by
    rw [hqueue, ← List.drop_drop]
    simp
  have hlength : (start ++ first :: range).length = start.length + 1 + range.length := by
    rw [List.length_append, List.length_cons]
    omega
  have hfront : q.queue.take start.length = start := by simp [hqueue]
  have htake : q.queue.take (start.length + 1 + range.length) = start ++ first :: range := by
    rw [hqueue, List.take_left' hlength]
  have hback' : q.queue.drop (start.length + 1 + range.length) = back := by
    rw [hqueue, List.drop_left' hlength]
  have hrun : q.removeMutationBatches (first :: rest) = some { q with
      queue := if start.length = 0 then back.dropWhile MutationBatch.isTombstone
        else start ++ (first :: range).map MutationBatch.toTombstone ++ back
      batchesByDocumentKey := removeReferences q.batchesByDocumentKey (first :: rest) } := by
    simp only [removeMutationBatches, List.head?_cons, List.tail_cons, hindex, hget, hdrop, hend,
      htake, hfront, hback', guard, List.drop_left, if_true, Option.bind_eq_bind, Option.bind_some,
      Option.pure_def]
  have hremove := Pending.remove_batches hbatches.symm
  have hsub : ∀ batch ∈ first :: rest, batch ∈ p.batches := fun batch hmem =>
    hbatches ▸ List.mem_append_left _ (List.mem_append_right _ hmem)
  have hconsecutive := h.consecutive
  by_cases hnil : start = []
  · -- at the front: the batches leave the queue, with the tombstones that follow them
    have hlive : ((back.dropWhile MutationBatch.isTombstone).filter fun b => !b.isTombstone) =
        pre ++ post := by
      rw [List.filter_dropWhile_not, hback, ← hstart, hnil, List.filter_nil, List.nil_append]
    rw [if_pos (by simp [hnil])] at hrun
    exact ⟨_, hrun, {
      consecutive := by
        refine hconsecutive.suffix ?_
        rw [hqueue]
        exact (List.dropWhile_suffix _).trans (List.suffix_append _ _)
      first_live := by
        intro batch hhead
        have hnot := List.head?_dropWhile_not MutationBatch.isTombstone back
        rw [Option.mem_def.mp hhead] at hnot
        simpa using hnot
      index := fun key batchID => by
        rw [h.mem_removeReferences hsub, hremove, ← hlive, exists_live_iff]
      batches := by rw [hremove, hlive]
      nextBatchID := h.nextBatchID
      highestAcknowledgedBatchID := h.highestAcknowledgedBatchID }⟩
  · -- behind a batch that is held: the batches leave tombstones
    have hlive : ((start ++ (first :: range).map MutationBatch.toTombstone ++ back).filter
        fun b => !b.isTombstone) = pre ++ post := by
      have htombs : (((first :: range).map MutationBatch.toTombstone).filter
          fun b => !b.isTombstone) = [] := by
        simp [List.filter_eq_nil_iff]
      rw [List.filter_append, List.filter_append, htombs, hstart, hback, List.append_nil]
    rw [if_neg (by simpa using hnil)] at hrun
    exact ⟨_, hrun, {
      consecutive := by
        have hsame : (start ++ (first :: range).map MutationBatch.toTombstone ++ back).length =
            q.queue.length := by
          rw [hqueue]
          simp
        rw [hsame]
        rw [hqueue] at hconsecutive ⊢
        exact hconsecutive.map_infix MutationBatch.batchID_toTombstone
      first_live := by
        intro batch hhead
        refine h.first_live batch ?_
        rw [hqueue]
        obtain ⟨head, tail, rfl⟩ := List.exists_cons_of_ne_nil hnil
        simpa using hhead
      index := fun key batchID => by
        rw [h.mem_removeReferences hsub, hremove, ← hlive, exists_live_iff]
      batches := by rw [hremove, hlive]
      nextBatchID := h.nextBatchID
      highestAcknowledgedBatchID := h.highestAcknowledgedBatchID }⟩

theorem performConsistencyCheck_spec (h : q.Represents p) :
    q.performConsistencyCheck = some () := by
  rw [performConsistencyCheck, if_neg]
  rintro ⟨hqueue, hindex⟩
  refine hindex (List.isEmpty_iff.mpr (List.eq_nil_iff_forall_not_mem.mpr fun e he => ?_))
  have hmem : (toLex ((ofLex e.1).1, (ofLex e.1).2), ()) ∈ q.batchesByDocumentKey := he
  obtain ⟨batch, hbatch, -⟩ := (h.index _ _).mp hmem
  rw [List.isEmpty_iff.mp hqueue] at hbatch
  cases hbatch

instance : LawfulMutationQueue κ (MemoryMutationQueue κ) where
  Represents := Represents
  start_spec h _ := start_spec h
  isEmpty_spec := isEmpty_spec
  highestAcknowledgedBatchID_spec h := h.highestAcknowledgedBatchID.symm
  acknowledgeBatch_spec h hmem hack := acknowledgeBatch_spec h hmem hack
  addMutationBatch_spec h hne := addMutationBatch_spec h hne
  lookupMutationBatch_spec batchID h := lookupMutationBatch_spec h batchID
  nextMutationBatchAfterBatchID_spec batchID h :=
    congrArg some (nextMutationBatchAfterBatchID_spec h batchID)
  allMutationBatches_spec := allMutationBatches_spec
  allMutationBatchesThroughBatchID_spec batchID h := allMutationBatchesThroughBatchID_spec h batchID
  allMutationBatchesAffectingDocumentKey_spec key h :=
    allMutationBatchesAffectingDocumentKey_spec h key
  removeMutationBatches_spec h hne hpart := removeMutationBatches_spec h hne hpart
  performConsistencyCheck_spec := performConsistencyCheck_spec

end MemoryMutationQueue

end CocoMap
