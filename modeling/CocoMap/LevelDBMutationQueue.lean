import Mathlib.Data.List.TakeWhile
import Mathlib.Data.String.Basic
import CocoMap.Lib.SortedMap
import CocoMap.MutationQueue

/-!
# The LevelDB queue

`FSTLevelDBMutationQueue` keeps the batches of all users of a device in one ordered
table, under the user and the identifier, with a second table as the index from the
documents to the batches that write them.  The keys are byte strings whose order is that
of their components, so a user's batches, and the batches of a user that write one
document, are ranges of rows.

A queue is the view of one user.  What is stored for a user is `Stores`.
-/

namespace CocoMap

/-- The tables of the database that hold the queues: the batches, the index, and the highest
identifier each user has had acknowledged. -/
structure LevelDB (κ : Type) [LinearOrder κ] where
  mutations : SortedMap (String ×ₗ ℤ) (MutationBatch κ)
  documentMutations : SortedMap ((String ×ₗ κ) ×ₗ ℤ) Unit
  mutationQueues : String → Option ℤ

/-- The queue of a user. -/
structure LevelDBMutationQueue (κ : Type) [LinearOrder κ] where
  userID : String
  db : LevelDB κ
  nextBatchID : ℤ
  /-- A write-through cache copy of the metadata. -/
  lastAcknowledgedBatchID : ℤ

namespace LevelDBMutationQueue

variable {κ : Type}

/-- A row of the table of batches. -/
abbrev Row (κ : Type) := (String ×ₗ ℤ) × MutationBatch κ

def Row.userID (row : Row κ) : String := (ofLex row.1).1

def Row.batchID (row : Row κ) : ℤ := (ofLex row.1).2

/-- The loop of `loadNextBatchIDFromDB:` — `rows` starts with the first row of the next user,
and the last row of that user has the user's highest identifier. -/
def loadMaxBatchID (rows : List (Row κ)) (maxBatchID : ℤ) : ℤ :=
  match rows with
  | [] => maxBatchID
  | row :: rows =>
      let last := (rows.takeWhile fun r => r.userID = row.userID).getLastD row
      loadMaxBatchID (rows.dropWhile fun r => r.userID = row.userID)
        (if maxBatchID < last.batchID then last.batchID else maxBatchID)
termination_by rows.length
decreasing_by exact Nat.lt_succ_of_le (List.dropWhile_sublist _).length_le

variable [LinearOrder κ]

def loadNextBatchIDFromDB (db : LevelDB κ) : ℤ :=
  loadMaxBatchID db.mutations.entries batchIDUnknown + 1

def isEmpty (q : LevelDBMutationQueue κ) : Bool :=
  match (q.db.mutations.seekPrefix q.userID).head? with
  | some row => Row.userID row ≠ q.userID
  | none => true

def highestAcknowledgedBatchID (q : LevelDBMutationQueue κ) : ℤ := q.lastAcknowledgedBatchID

def start (q : LevelDBMutationQueue κ) : Option (LevelDBMutationQueue κ) :=
  let nextBatchID := loadNextBatchIDFromDB q.db
  match q.db.mutationQueues q.userID with
  | none => some { q with nextBatchID, lastAcknowledgedBatchID := batchIDUnknown }
  | some lastAcked =>
      if nextBatchID ≤ lastAcked then
        -- Reset nextBatchID is only possible when the queue is empty
        if q.isEmpty then
          some { q with
            db := { q.db with
              mutationQueues := Function.update q.db.mutationQueues q.userID (some batchIDUnknown) }
            nextBatchID
            lastAcknowledgedBatchID := batchIDUnknown }
        else none
      else some { q with nextBatchID, lastAcknowledgedBatchID := lastAcked }

def acknowledgeBatch (q : LevelDBMutationQueue κ) (batch : MutationBatch κ) :
    Option (LevelDBMutationQueue κ) :=
  if q.lastAcknowledgedBatchID < batch.batchID then
    some { q with
      db := { q.db with
        mutationQueues := Function.update q.db.mutationQueues q.userID (some batch.batchID) }
      lastAcknowledgedBatchID := batch.batchID }
  else none

def addMutationBatch (q : LevelDBMutationQueue κ) (mutations : List (Mutation κ)) :
    MutationBatch κ × LevelDBMutationQueue κ :=
  let batch : MutationBatch κ := { batchID := q.nextBatchID, mutations }
  (batch, { q with
    db := { q.db with
      mutations := q.db.mutations.insert (toLex (q.userID, batch.batchID)) batch
      documentMutations := mutations.foldl (fun references mutation =>
        references.insert (toLex (toLex (q.userID, mutation.key), batch.batchID)) ())
        q.db.documentMutations }
    nextBatchID := q.nextBatchID + 1 })

def lookupMutationBatch (q : LevelDBMutationQueue κ) (batchID : ℤ) : Option (MutationBatch κ) :=
  q.db.mutations.lookup (toLex (q.userID, batchID))

def nextMutationBatchAfterBatchID (q : LevelDBMutationQueue κ) (batchID : ℤ) :
    Option (Option (MutationBatch κ)) :=
  let nextBatchID := max batchID q.lastAcknowledgedBatchID + 1
  match (q.db.mutations.seek (toLex (q.userID, nextBatchID))).head? with
  | none => some none
  | some row =>
      if Row.userID row ≠ q.userID then some none
      else if nextBatchID ≤ Row.batchID row then some (some row.2)
      else none

def allMutationBatches (q : LevelDBMutationQueue κ) : List (MutationBatch κ) :=
  ((q.db.mutations.seekPrefix q.userID).takeWhile fun row => Row.userID row = q.userID).map Prod.snd

def allMutationBatchesThroughBatchID (q : LevelDBMutationQueue κ) (batchID : ℤ) :
    List (MutationBatch κ) :=
  ((q.db.mutations.seekPrefix q.userID).takeWhile fun row =>
    Row.userID row = q.userID ∧ Row.batchID row ≤ batchID).map Prod.snd

/-- A scan of the index rows of the document; every row has to lead to a batch. -/
def allMutationBatchesAffectingDocumentKey (q : LevelDBMutationQueue κ) (documentKey : κ) :
    Option (List (MutationBatch κ)) :=
  ((q.db.documentMutations.seekPrefix (toLex (q.userID, documentKey))).takeWhile fun row =>
    (ofLex row.1).1 = toLex (q.userID, documentKey)).mapM fun row =>
      q.db.mutations.lookup (toLex (q.userID, (ofLex row.1).2))

/-- One batch and its index rows are deleted; the batch has to exist. -/
def removeMutationBatch (q : LevelDBMutationQueue κ) (batch : MutationBatch κ) :
    Option (LevelDBMutationQueue κ) :=
  if (q.db.mutations.lookup (toLex (q.userID, batch.batchID))).isSome then
    some { q with
      db := { q.db with
        mutations := q.db.mutations.erase (toLex (q.userID, batch.batchID))
        documentMutations := batch.mutations.foldl (fun references mutation =>
          references.erase (toLex (toLex (q.userID, mutation.key), batch.batchID)))
          q.db.documentMutations } }
  else none

def removeMutationBatches (q : LevelDBMutationQueue κ) (batches : List (MutationBatch κ)) :
    Option (LevelDBMutationQueue κ) :=
  batches.foldlM removeMutationBatch q

/-- When the queue is empty, so is the user's part of the index. -/
def performConsistencyCheck (q : LevelDBMutationQueue κ) : Option Unit :=
  let danglingMutationReferences :=
    (q.db.documentMutations.entries.dropWhile fun row =>
      (ofLex (ofLex row.1).1).1 < q.userID).takeWhile fun row =>
        (ofLex (ofLex row.1).1).1 = q.userID
  if q.isEmpty ∧ ¬ danglingMutationReferences.isEmpty then none else some ()

instance : MutationQueue κ (LevelDBMutationQueue κ) where
  start := start
  isEmpty := isEmpty
  highestAcknowledgedBatchID := highestAcknowledgedBatchID
  acknowledgeBatch := acknowledgeBatch
  addMutationBatch q mutations := some (q.addMutationBatch mutations)
  lookupMutationBatch q batchID := some (q.lookupMutationBatch batchID)
  nextMutationBatchAfterBatchID := nextMutationBatchAfterBatchID
  allMutationBatches := allMutationBatches
  allMutationBatchesThroughBatchID := allMutationBatchesThroughBatchID
  allMutationBatchesAffectingDocumentKey := allMutationBatchesAffectingDocumentKey
  removeMutationBatches := removeMutationBatches
  performConsistencyCheck := performConsistencyCheck

/-! ## What is stored for a user -/

/-- The rows of a user are the batches and their writes, and the metadata is the highest
identifier acknowledged. -/
structure Stores (db : LevelDB κ) (userID : String) (batches : List (MutationBatch κ))
    (acknowledged : ℤ) : Prop where
  rows : ∀ batchID batch, (toLex (userID, batchID), batch) ∈ db.mutations ↔
    batch ∈ batches ∧ batch.batchID = batchID
  index : ∀ key batchID, (toLex (toLex (userID, key), batchID), ()) ∈ db.documentMutations ↔
    ∃ batch ∈ batches, batch.batchID = batchID ∧ key ∈ batch.keys
  metadata : (db.mutationQueues userID).getD batchIDUnknown = acknowledged

/-- The pending batches are those stored for the user. -/
structure Represents (q : LevelDBMutationQueue κ) (p : Pending κ) : Prop where
  stores : Stores q.db q.userID p.batches p.highestAcknowledgedBatchID
  nextBatchID : p.nextBatchID = q.nextBatchID
  highestAcknowledgedBatchID : p.highestAcknowledgedBatchID = q.lastAcknowledgedBatchID

variable {q : LevelDBMutationQueue κ} {p : Pending κ}

/-- **A user's rows are the pending batches**, in order. -/
theorem Represents.rows_eq (h : q.Represents p) :
    (q.db.mutations.entries.filter fun row => Row.userID row = q.userID) =
      p.batches.map fun batch => (toLex (q.userID, batch.batchID), batch) := by
  refine (q.db.mutations.increasing.filter _).ext ?_ fun row => ?_
  · refine List.pairwise_map.mpr (List.Pairwise.imp (fun hlt => ?_) p.increasing)
    exact Prod.Lex.toLex_lt_toLex.mpr (Or.inr ⟨rfl, hlt⟩)
  · obtain ⟨userID, batchID, batch, rfl⟩ :
        ∃ userID batchID batch, row = (toLex (userID, batchID), batch) := ⟨_, _, _, rfl⟩
    rw [List.mem_filter, List.mem_map, decide_eq_true_iff]
    constructor
    · rintro ⟨hmem, huser⟩
      obtain rfl : userID = q.userID := huser
      obtain ⟨hbatch, rfl⟩ := (h.stores.rows _ _).mp hmem
      exact ⟨batch, hbatch, rfl⟩
    · rintro ⟨batch', hbatch, heq⟩
      cases heq
      exact ⟨(h.stores.rows _ _).mpr ⟨hbatch, rfl⟩, rfl⟩

theorem Represents.takeWhile_eq (h : q.Represents p) :
    ((q.db.mutations.seekPrefix q.userID).takeWhile fun row => Row.userID row = q.userID) =
      p.batches.map fun batch => (toLex (q.userID, batch.batchID), batch) := by
  exact (SortedMap.takeWhile_seekPrefix (fun row _ huser => of_decide_eq_true huser)
    fun a _ b _ _ huser _ => decide_eq_true huser).trans h.rows_eq

theorem isEmpty_spec (h : q.Represents p) : q.isEmpty = p.batches.isEmpty := by
  have htake := h.takeWhile_eq
  rw [isEmpty]
  cases hrows : q.db.mutations.seekPrefix q.userID with
  | nil =>
      rw [hrows, List.takeWhile_nil, eq_comm, List.map_eq_nil_iff] at htake
      rw [htake]
      rfl
  | cons row rows =>
      rw [hrows] at htake
      by_cases huser : Row.userID row = q.userID
      · rw [List.takeWhile_cons_of_pos (by simpa using huser)] at htake
        have hne : p.batches ≠ [] := by
          rintro hnil
          rw [hnil] at htake
          cases htake
        simp [huser, hne]
      · rw [List.takeWhile_cons_of_neg (by simpa using huser), eq_comm, List.map_eq_nil_iff] at htake
        simp [huser, htake]

theorem allMutationBatches_spec (h : q.Represents p) : q.allMutationBatches = p.batches := by
  rw [allMutationBatches, h.takeWhile_eq, List.map_map]
  exact List.map_id _

theorem allMutationBatchesThroughBatchID_spec (h : q.Represents p) (batchID : ℤ) :
    q.allMutationBatchesThroughBatchID batchID =
      p.batches.filter fun b => b.batchID ≤ batchID := by
  have hscan : ((q.db.mutations.seekPrefix q.userID).takeWhile fun row =>
        Row.userID row = q.userID ∧ Row.batchID row ≤ batchID) =
      q.db.mutations.entries.filter fun row =>
        Row.userID row = q.userID ∧ Row.batchID row ≤ batchID := by
    refine SortedMap.takeWhile_seekPrefix (fun row _ hp => ?_) fun a _ b _ hlt huser hp => ?_
    · exact (of_decide_eq_true hp).1
    · obtain ⟨hb, hle⟩ := of_decide_eq_true hp
      have hab : Row.batchID a < Row.batchID b := by
        rcases Prod.Lex.lt_iff.mp hlt with hlt | ⟨-, hlt⟩
        · exact absurd (huser.trans hb.symm) hlt.ne
        · exact hlt
      exact decide_eq_true ⟨huser, (hab.trans_le hle).le⟩
  have hboth : (q.db.mutations.entries.filter fun row =>
        Row.userID row = q.userID ∧ Row.batchID row ≤ batchID) =
      (q.db.mutations.entries.filter fun row => Row.userID row = q.userID).filter
        fun row => Row.batchID row ≤ batchID := by
    rw [List.filter_filter]
    refine List.filter_congr fun row _ => ?_
    simp [and_comm]
  rw [allMutationBatchesThroughBatchID, hscan, hboth, h.rows_eq, List.filter_map, List.map_map]
  exact List.map_id _

theorem lookupMutationBatch_spec (h : q.Represents p) (batchID : ℤ) :
    q.lookupMutationBatch batchID = p.batches.find? fun b => b.batchID = batchID := by
  refine Option.ext fun batch => ?_
  rw [lookupMutationBatch, SortedMap.lookup_eq_some_iff, h.stores.rows,
    p.increasing.find?_eq_some_iff]

/-- **The first row not below an identifier is the next batch**, or belongs to somebody else. -/
theorem nextMutationBatchAfterBatchID_spec (h : q.Represents p) (batchID : ℤ) :
    q.nextMutationBatchAfterBatchID batchID = some (p.nextAfter batchID) := by
  set next := max batchID q.lastAcknowledgedBatchID + 1 with hnext
  -- the rows a scan from there would find
  have hscan : ((q.db.mutations.seek (toLex (q.userID, next))).takeWhile fun row =>
        Row.userID row = q.userID ∧ next ≤ Row.batchID row) =
      q.db.mutations.entries.filter fun row =>
        Row.userID row = q.userID ∧ next ≤ Row.batchID row := by
    refine SortedMap.takeWhile_seek (fun row _ hp => ?_) fun a _ b _ hle hlt hp => ?_
    · obtain ⟨huser, hid⟩ := of_decide_eq_true hp
      exact Prod.Lex.le_iff.mpr (Or.inr ⟨huser.symm, hid⟩)
    · obtain ⟨hb, -⟩ := of_decide_eq_true hp
      have hab : Row.userID a ≤ Row.userID b := Prod.Lex.monotone_fst_ofLex hlt.le
      have hua : q.userID ≤ Row.userID a := Prod.Lex.monotone_fst_ofLex hle
      have huser : Row.userID a = q.userID := le_antisymm (hb ▸ hab) hua
      rcases Prod.Lex.le_iff.mp hle with hlt | ⟨-, hid⟩
      · exact absurd huser.symm (ne_of_lt hlt)
      · exact decide_eq_true ⟨huser, hid⟩
  have hfilter : (q.db.mutations.entries.filter fun row =>
        Row.userID row = q.userID ∧ next ≤ Row.batchID row).head?.map Prod.snd =
      p.nextAfter batchID := by
    have hboth : (q.db.mutations.entries.filter fun row =>
          Row.userID row = q.userID ∧ next ≤ Row.batchID row) =
        (q.db.mutations.entries.filter fun row => Row.userID row = q.userID).filter
          fun row => next ≤ Row.batchID row := by
      rw [List.filter_filter]
      refine List.filter_congr fun row _ => ?_
      simp [and_comm]
    rw [hboth, h.rows_eq, Pending.nextAfter, List.head?_filter, List.find?_map, Option.map_map,
      h.highestAcknowledgedBatchID]
    have hsnd : (Prod.snd ∘ fun batch : MutationBatch κ =>
        (toLex (q.userID, batch.batchID), batch)) = id := rfl
    rw [hsnd, Option.map_id]
    congr 1
  have hhead := List.head?_takeWhile (p := fun row : Row κ =>
    decide (Row.userID row = q.userID ∧ next ≤ Row.batchID row))
    (l := q.db.mutations.seek (toLex (q.userID, next)))
  rw [hscan] at hhead
  rw [nextMutationBatchAfterBatchID, ← hfilter, hhead, ← hnext]
  cases hrow : (q.db.mutations.seek (toLex (q.userID, next))).head? with
  | none => rfl
  | some row =>
      have hle : toLex (q.userID, next) ≤ row.1 :=
        (SortedMap.mem_seek.mp (List.mem_of_head? hrow)).2
      by_cases huser : Row.userID row = q.userID
      · have hid : next ≤ Row.batchID row := by
          rcases Prod.Lex.le_iff.mp hle with hlt | ⟨-, hid⟩
          · exact absurd huser.symm (ne_of_lt hlt)
          · exact hid
        have hp : decide (Row.userID row = q.userID ∧ next ≤ Row.batchID row) = true :=
          decide_eq_true ⟨huser, hid⟩
        rw [Option.filter_some, if_pos hp]
        simp only [ne_eq, huser, not_true_eq_false, if_false, hid, if_true, Option.map_some]
      · simp [huser]

theorem allMutationBatchesAffectingDocumentKey_spec (h : q.Represents p) (key : κ) :
    q.allMutationBatchesAffectingDocumentKey key =
      some (p.batches.filter fun b => key ∈ b.keys) := by
  have hscan : ((q.db.documentMutations.seekPrefix (toLex (q.userID, key))).takeWhile fun row =>
        (ofLex row.1).1 = toLex (q.userID, key)) =
      (p.batches.filter fun b => key ∈ b.keys).map fun b =>
        (toLex (toLex (q.userID, key), b.batchID), ()) := by
    rw [SortedMap.takeWhile_seekPrefix (fun row _ hfst => of_decide_eq_true hfst)
      fun a _ b _ _ hfst _ => decide_eq_true hfst, SortedMap.filter_fst_eq_map
      (l := (p.batches.filter fun b => key ∈ b.keys).map MutationBatch.batchID), List.map_map]
    · rfl
    · exact List.pairwise_map.mpr (p.increasing.filter _)
    · intro batchID
      rw [h.stores.index]
      simp [and_assoc, and_comm (a := _ = batchID)]
  rw [allMutationBatchesAffectingDocumentKey, hscan]
  refine List.mapM_eq_some_self fun b hb => ?_
  exact SortedMap.lookup_eq_some_iff.mpr
    ((h.stores.rows _ _).mpr ⟨List.mem_of_mem_filter hb, rfl⟩)

theorem acknowledgeBatch_spec (h : q.Represents p) {batch : MutationBatch κ}
    (hmem : batch ∈ p.batches) (hack : p.highestAcknowledgedBatchID < batch.batchID) :
    ∃ q', q.acknowledgeBatch batch = some q' ∧
      q'.Represents (p.acknowledge batch.batchID (p.bounded batch hmem).2) := by
  rw [h.highestAcknowledgedBatchID] at hack
  refine ⟨_, if_pos hack, ?_, h.nextBatchID, rfl⟩
  exact {
    rows := h.stores.rows
    index := h.stores.index
    metadata := by simp }

theorem addMutationBatch_spec (h : q.Represents p) {mutations : List (Mutation κ)}
    (hne : mutations ≠ []) :
    ∃ q', q.addMutationBatch mutations = (p.nextBatch mutations, q') ∧
      q'.Represents (p.add mutations hne) := by
  refine ⟨(q.addMutationBatch mutations).2, ?_, ?_, ?_, h.highestAcknowledgedBatchID⟩
  · rw [Pending.nextBatch, h.nextBatchID]
    rfl
  · exact {
      rows := fun batchID batch => by
        rw [addMutationBatch, SortedMap.mem_insert, h.stores.rows, Pending.add_batches,
          Pending.nextBatch, h.nextBatchID, List.mem_append, List.mem_singleton]
        simp only [Prod.mk.injEq, toLex_inj, true_and, ne_eq]
        constructor
        · rintro (⟨rfl, rfl⟩ | ⟨⟨hmem, rfl⟩, -⟩)
          · exact ⟨Or.inr rfl, rfl⟩
          · exact ⟨Or.inl hmem, rfl⟩
        · rintro ⟨hmem | rfl, rfl⟩
          · exact Or.inr ⟨⟨hmem, rfl⟩, (h.nextBatchID ▸ (p.bounded batch hmem).2).ne⟩
          · exact Or.inl ⟨rfl, rfl⟩
      index := fun key batchID => by
        rw [addMutationBatch, SortedMap.mem_foldl_insert, h.stores.index]
        simp [MutationBatch.keys, h.nextBatchID, Pending.nextBatch, and_comm, or_comm,
          and_left_comm (b := q.nextBatchID = batchID)]
      metadata := h.stores.metadata }
  · rw [Pending.add_nextBatchID, h.nextBatchID]
    rfl

/-! ### Removal -/

/-- **One batch is taken out**, with its part of the index. -/
theorem removeMutationBatch_spec (h : q.Represents p) {batch : MutationBatch κ}
    (hmem : batch ∈ p.batches) :
    ∃ q', q.removeMutationBatch batch = some q' ∧ q'.Represents (p.remove [batch]) := by
  have hfound : (q.db.mutations.lookup (toLex (q.userID, batch.batchID))).isSome := by
    rw [Option.isSome_iff_exists]
    exact ⟨batch, SortedMap.lookup_eq_some_iff.mpr ((h.stores.rows _ _).mpr ⟨hmem, rfl⟩)⟩
  have hremain {b : MutationBatch κ} :
      b ∈ (p.remove [batch]).batches ↔ b ∈ p.batches ∧ b.batchID ≠ batch.batchID := by
    rw [Pending.mem_remove, List.forall_mem_singleton, ne_comm]
  refine ⟨_, if_pos hfound, ?_, h.nextBatchID, h.highestAcknowledgedBatchID⟩
  exact {
    rows := fun batchID b => by
      rw [SortedMap.mem_erase, h.stores.rows, hremain]
      simp only [ne_eq, toLex_inj, Prod.mk.injEq, true_and]
      constructor
      · rintro ⟨⟨hb, rfl⟩, hid⟩
        exact ⟨⟨hb, hid⟩, rfl⟩
      · rintro ⟨⟨hb, hid⟩, rfl⟩
        exact ⟨⟨hb, rfl⟩, hid⟩
    index := fun key batchID => by
      rw [SortedMap.mem_foldl_erase, h.stores.index]
      simp only [ne_eq, toLex_inj, Prod.mk.injEq, true_and, not_and]
      constructor
      · rintro ⟨⟨b, hb, rfl, hkey⟩, hnot⟩
        refine ⟨b, hremain.mpr ⟨hb, fun hid => ?_⟩, rfl, hkey⟩
        obtain ⟨mutation, hmutation, hkey'⟩ := MutationBatch.mem_keys.mp hkey
        rw [p.increasing.eq_of_mem hb hmem hid] at hmutation
        exact hnot mutation hmutation hkey' hid.symm
      · rintro ⟨b, hb, rfl, hkey⟩
        obtain ⟨hb, hid⟩ := hremain.mp hb
        exact ⟨⟨b, hb, rfl, hkey⟩, fun _ _ _ heq => hid heq.symm⟩
    metadata := h.stores.metadata }

/-- **Removal takes out exactly the batches**; every one of them is found. -/
theorem removeMutationBatches_spec {batches : List (MutationBatch κ)} (h : q.Represents p)
    (hincreasing : Increasing MutationBatch.batchID batches)
    (hmem : ∀ batch ∈ batches, batch ∈ p.batches) :
    ∃ q', q.removeMutationBatches batches = some q' ∧ q'.Represents (p.remove batches) := by
  induction batches generalizing q p with
  | nil => exact ⟨q, rfl, by rwa [Pending.remove_nil]⟩
  | cons batch batches ih =>
      obtain ⟨hlt, hrest⟩ := Increasing.cons_iff.mp hincreasing
      obtain ⟨q₁, hq₁, h₁⟩ := removeMutationBatch_spec h (hmem batch List.mem_cons_self)
      obtain ⟨q₂, hq₂, h₂⟩ := ih h₁ hrest fun b hb => Pending.mem_remove.mpr
        ⟨hmem b (List.mem_cons_of_mem batch hb), List.forall_mem_singleton.mpr (hlt b hb).ne⟩
      refine ⟨q₂, ?_, ?_⟩
      · rw [removeMutationBatches, List.foldlM_cons, hq₁]
        exact hq₂
      · rwa [Pending.remove_cons]

theorem performConsistencyCheck_spec (h : q.Represents p) :
    q.performConsistencyCheck = some () := by
  rw [performConsistencyCheck, if_neg]
  rintro ⟨hempty, hdangling⟩
  have hbatches : p.batches = [] := by
    rw [isEmpty_spec h] at hempty
    exact List.isEmpty_iff.mp hempty
  refine hdangling (List.isEmpty_iff.mpr (List.eq_nil_iff_forall_not_mem.mpr fun row hrow => ?_))
  have huser : (ofLex (ofLex row.1).1).1 = q.userID := by
    simpa using List.mem_takeWhile_imp hrow
  have hmem := (List.dropWhile_sublist _).subset ((List.takeWhile_prefix _).subset hrow)
  have hindex := (h.stores.index (ofLex (ofLex row.1).1).2 (ofLex row.1).2).mp (by
    rw [← huser]
    exact hmem)
  rw [hbatches] at hindex
  obtain ⟨batch, hbatch, -⟩ := hindex
  cases hbatch

/-! ### The next identifier -/

omit [LinearOrder κ] in
/-- The rows of one user are in the order of their identifiers. -/
theorem Row.increasing_batchID {rows : List (Row κ)} {userID : String}
    (h : Increasing Prod.fst rows) (huser : ∀ row ∈ rows, row.userID = userID) :
    Increasing Row.batchID rows := by
  refine List.Pairwise.imp_of_mem (fun {a b} ha hb hlt => ?_) h
  rcases Prod.Lex.lt_iff.mp hlt with hlt | ⟨-, hlt⟩
  · exact absurd ((huser a ha).trans (huser b hb).symm) (ne_of_lt hlt)
  · exact hlt

omit [LinearOrder κ] in
/-- **The loop finds an identifier that is at least those of all rows.** -/
theorem le_loadMaxBatchID {rows : List (Row κ)} (h : Increasing Prod.fst rows) (maxBatchID : ℤ) :
    maxBatchID ≤ loadMaxBatchID rows maxBatchID ∧
      ∀ row ∈ rows, row.batchID ≤ loadMaxBatchID rows maxBatchID := by
  induction rows, maxBatchID using loadMaxBatchID.induct with
  | case1 maxBatchID => simp [loadMaxBatchID]
  | case2 maxBatchID row rows last ih =>
      rw [loadMaxBatchID]
      obtain ⟨hmax, hrest⟩ := ih (h.sublist (((List.dropWhile_sublist _)).trans
        (List.sublist_cons_self row rows)))
      have hbound : maxBatchID ≤ (if maxBatchID < last.batchID then last.batchID else maxBatchID) ∧
          last.batchID ≤ if maxBatchID < last.batchID then last.batchID else maxBatchID := by
        split <;> omega
      refine ⟨hbound.1.trans hmax, fun r hr => ?_⟩
      -- the rows of the first user come first, and the last of them has the highest identifier
      have hsame : ∀ r ∈ row :: rows.takeWhile fun r => r.userID = row.userID,
          r.batchID ≤ last.batchID := by
        intro r hr
        have huser : ∀ r ∈ row :: rows.takeWhile fun r => r.userID = row.userID,
            r.userID = row.userID := by
          intro r hr
          rcases List.mem_cons.mp hr with rfl | hr
          · rfl
          · simpa using List.mem_takeWhile_imp hr
        have hincreasing := h.sublist
          ((List.takeWhile_sublist fun r => decide (r.userID = row.userID)).cons_cons row)
        exact (Row.increasing_batchID hincreasing huser).le_getLastD hr
      rcases List.mem_cons.mp hr with rfl | hr
      · exact (hsame r List.mem_cons_self).trans (hbound.2.trans hmax)
      · rw [← List.takeWhile_append_dropWhile (p := fun r => r.userID = row.userID) (l := rows)] at hr
        rcases List.mem_append.mp hr with hr | hr
        · exact (hsame r (List.mem_cons_of_mem row hr)).trans (hbound.2.trans hmax)
        · exact hrest r hr

/-- The next identifier is beyond all identifiers in the database. -/
theorem lt_loadNextBatchIDFromDB (db : LevelDB κ) :
    0 ≤ loadNextBatchIDFromDB db ∧
      ∀ row ∈ db.mutations.entries, Row.batchID row < loadNextBatchIDFromDB db := by
  obtain ⟨hmax, hrows⟩ := le_loadMaxBatchID db.mutations.increasing batchIDUnknown
  rw [loadNextBatchIDFromDB]
  rw [batchIDUnknown] at *
  exact ⟨by omega, fun row hrow => Int.lt_add_one_iff.mpr (hrows row hrow)⟩

theorem start_spec (h : q.Represents p) (hstartable : p.Startable) :
    ∃ q' p', q.start = some q' ∧ q'.Represents p' ∧ p'.batches = p.batches ∧
      (p'.highestAcknowledgedBatchID = p.highestAcknowledgedBatchID ∨
        p.batches = [] ∧ p'.highestAcknowledgedBatchID = batchIDUnknown) := by
  obtain ⟨hnonneg, hrows⟩ := lt_loadNextBatchIDFromDB q.db
  have hbound : ∀ b ∈ p.batches, 0 ≤ b.batchID ∧ b.batchID < loadNextBatchIDFromDB q.db :=
    fun b hb => ⟨(p.bounded b hb).1, hrows _ ((h.stores.rows b.batchID b).mpr ⟨hb, rfl⟩)⟩
  have hunknown : batchIDUnknown < loadNextBatchIDFromDB q.db := by
    rw [batchIDUnknown]
    omega
  have hmetadata := h.stores.metadata
  cases hstored : q.db.mutationQueues q.userID with
  | none =>
      rw [hstored] at hmetadata
      refine ⟨{ q with
        nextBatchID := loadNextBatchIDFromDB q.db, lastAcknowledgedBatchID := batchIDUnknown },
        p.restart _ batchIDUnknown hbound hunknown hnonneg, by rw [start, hstored], ⟨?_, rfl, rfl⟩,
        rfl, Or.inl hmetadata⟩
      exact {
        rows := h.stores.rows
        index := h.stores.index
        metadata := by rw [hstored]; rfl }
  | some lastAcked =>
      rw [hstored] at hmetadata
      by_cases hreset : loadNextBatchIDFromDB q.db ≤ lastAcked
      · -- an acknowledgement ahead of all batches: there are none
        have hempty : p.batches = [] := hstartable.resolve_right fun ⟨b, hb, hle⟩ => by
          have := (hbound b hb).2
          rw [← hmetadata, Option.getD_some] at hle
          omega
        refine ⟨{ q with
          db := { q.db with
            mutationQueues := Function.update q.db.mutationQueues q.userID (some batchIDUnknown) }
          nextBatchID := loadNextBatchIDFromDB q.db, lastAcknowledgedBatchID := batchIDUnknown },
          p.restart _ batchIDUnknown hbound hunknown hnonneg, ?_, ⟨?_, rfl, rfl⟩,
          rfl, Or.inr ⟨hempty, rfl⟩⟩
        · simp [start, hstored, hreset, isEmpty_spec h, hempty]
        · exact {
            rows := h.stores.rows
            index := h.stores.index
            metadata := by simp [Pending.restart] }
      · refine ⟨{ q with
          nextBatchID := loadNextBatchIDFromDB q.db, lastAcknowledgedBatchID := lastAcked },
          p.restart _ lastAcked hbound (not_le.mp hreset) hnonneg, ?_, ⟨?_, rfl, rfl⟩,
          rfl, Or.inl hmetadata⟩
        · simp [start, hstored, hreset]
        · exact {
            rows := h.stores.rows
            index := h.stores.index
            metadata := by rw [hstored]; rfl }

instance : LawfulMutationQueue κ (LevelDBMutationQueue κ) where
  Represents := Represents
  start_spec := start_spec
  isEmpty_spec := isEmpty_spec
  highestAcknowledgedBatchID_spec h := h.highestAcknowledgedBatchID.symm
  acknowledgeBatch_spec h hmem hack := acknowledgeBatch_spec h hmem hack
  addMutationBatch_spec h hne := by
    obtain ⟨q', hadd, hq'⟩ := addMutationBatch_spec h hne
    exact ⟨q', congrArg some hadd, hq'⟩
  lookupMutationBatch_spec batchID h := congrArg some (lookupMutationBatch_spec h batchID)
  nextMutationBatchAfterBatchID_spec batchID h := nextMutationBatchAfterBatchID_spec h batchID
  allMutationBatches_spec := allMutationBatches_spec
  allMutationBatchesThroughBatchID_spec batchID h := allMutationBatchesThroughBatchID_spec h batchID
  allMutationBatchesAffectingDocumentKey_spec key h :=
    allMutationBatchesAffectingDocumentKey_spec h key
  removeMutationBatches_spec {_ p _} h _ hpart := removeMutationBatches_spec h
    (p.increasing.sublist hpart.sublist) fun _ hmem => hpart.subset hmem
  performConsistencyCheck_spec := performConsistencyCheck_spec

end LevelDBMutationQueue

end CocoMap
