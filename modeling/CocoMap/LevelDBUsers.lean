import CocoMap.LevelDBMutationQueue
import CocoMap.UserQueues

/-!
# The users of a database

The queues of all users of a device are in the same three tables.  The rows of one user
are not touched by the calls of another (`perform_frame`), so the database keeps a FIFO
queue for each user, and the identifiers in it are distinct even across users.
-/

namespace CocoMap

namespace LevelDBMutationQueue

variable {κ : Type} [LinearOrder κ] {q : LevelDBMutationQueue κ} {p : Pending κ}

/-- The same rows and the same metadata for a user. -/
structure SameFor (userID : String) (db db' : LevelDB κ) : Prop where
  rows : ∀ batchID batch, (toLex (userID, batchID), batch) ∈ db'.mutations ↔
    (toLex (userID, batchID), batch) ∈ db.mutations
  index : ∀ key batchID, (toLex (toLex (userID, key), batchID), ()) ∈ db'.documentMutations ↔
    (toLex (toLex (userID, key), batchID), ()) ∈ db.documentMutations
  metadata : db'.mutationQueues userID = db.mutationQueues userID

theorem SameFor.refl (userID : String) (db : LevelDB κ) : SameFor userID db db :=
  ⟨fun _ _ => Iff.rfl, fun _ _ => Iff.rfl, rfl⟩

theorem SameFor.trans {userID : String} {db db' db'' : LevelDB κ} (h : SameFor userID db db')
    (h' : SameFor userID db' db'') : SameFor userID db db'' where
  rows batchID batch := (h'.rows batchID batch).trans (h.rows batchID batch)
  index key batchID := (h'.index key batchID).trans (h.index key batchID)
  metadata := h'.metadata.trans h.metadata

theorem Stores.of_sameFor {userID : String} {db db' : LevelDB κ} {batches : List (MutationBatch κ)}
    {acknowledged : ℤ} (h : Stores db userID batches acknowledged) (same : SameFor userID db db') :
    Stores db' userID batches acknowledged where
  rows batchID batch := (same.rows batchID batch).trans (h.rows batchID batch)
  index key batchID := (same.index key batchID).trans (h.index key batchID)
  metadata := by rw [same.metadata, h.metadata]

theorem SameFor.updateMetadata {userID v : String} (hv : v ≠ userID) (db : LevelDB κ) (value : Option ℤ) :
    SameFor v db { db with mutationQueues := Function.update db.mutationQueues userID value } where
  rows _ _ := Iff.rfl
  index _ _ := Iff.rfl
  metadata := Function.update_of_ne hv ..

theorem start_frame {q' : LevelDBMutationQueue κ} (h : q.start = some q') :
    q'.userID = q.userID ∧ ∀ v, v ≠ q.userID → SameFor v q.db q'.db := by
  unfold start at h
  dsimp only at h
  split at h
  · cases h
    exact ⟨rfl, fun v _ => SameFor.refl v q.db⟩
  · split at h
    · split at h
      · cases h
        exact ⟨rfl, fun v hv => SameFor.updateMetadata hv q.db _⟩
      · cases h
    · cases h
      exact ⟨rfl, fun v _ => SameFor.refl v q.db⟩

theorem acknowledgeBatch_frame {q' : LevelDBMutationQueue κ} {batch : MutationBatch κ}
    (h : q.acknowledgeBatch batch = some q') :
    q'.userID = q.userID ∧ ∀ v, v ≠ q.userID → SameFor v q.db q'.db := by
  unfold acknowledgeBatch at h
  split at h
  · cases h
    exact ⟨rfl, fun v hv => SameFor.updateMetadata hv q.db _⟩
  · cases h

theorem addMutationBatch_frame (q : LevelDBMutationQueue κ) (mutations : List (Mutation κ))
    {v : String} (hv : v ≠ q.userID) : SameFor v q.db (q.addMutationBatch mutations).2.db where
  rows batchID batch := by
    rw [addMutationBatch, SortedMap.mem_insert]
    simp [hv]
  index key batchID := by
    rw [addMutationBatch, SortedMap.mem_foldl_insert]
    simp [Ne.symm hv]
  metadata := rfl

theorem removeMutationBatch_frame {q' : LevelDBMutationQueue κ} {batch : MutationBatch κ}
    (h : q.removeMutationBatch batch = some q') :
    q'.userID = q.userID ∧ ∀ v, v ≠ q.userID → SameFor v q.db q'.db := by
  unfold removeMutationBatch at h
  split at h
  · cases h
    refine ⟨rfl, fun v hv => ⟨fun batchID batch' => ?_, fun key batchID => ?_, rfl⟩⟩
    · rw [SortedMap.mem_erase]
      simp [hv]
    · rw [SortedMap.mem_foldl_erase]
      simp [Ne.symm hv]
  · cases h

theorem removeMutationBatches_frame {q' : LevelDBMutationQueue κ}
    {batches : List (MutationBatch κ)} (h : q.removeMutationBatches batches = some q') :
    q'.userID = q.userID ∧ ∀ v, v ≠ q.userID → SameFor v q.db q'.db := by
  induction batches generalizing q with
  | nil =>
      cases h
      exact ⟨rfl, fun v _ => SameFor.refl v _⟩
  | cons batch batches ih =>
      rw [removeMutationBatches, List.foldlM_cons, Option.bind_eq_bind,
        Option.bind_eq_some_iff] at h
      obtain ⟨q₁, hbatch, hbatches⟩ := h
      obtain ⟨huser, hsame⟩ := removeMutationBatch_frame hbatch
      obtain ⟨huser', hsame'⟩ := ih hbatches
      exact ⟨huser'.trans huser, fun v hv => (hsame v hv).trans (hsame' v (huser ▸ hv))⟩

/-- **The users of a database do not interfere.** -/
theorem perform_frame {q' : LevelDBMutationQueue κ} {call : QueueCall κ} {answer : QueueAnswer κ}
    (h : call.perform q = some (answer, q')) :
    q'.userID = q.userID ∧ ∀ v, v ≠ q.userID → SameFor v q.db q'.db := by
  have hsame : q.userID = q.userID ∧ ∀ v, v ≠ q.userID → SameFor v q.db q.db :=
    ⟨rfl, fun v _ => SameFor.refl v q.db⟩
  cases call with
  | start =>
      obtain ⟨q₁, hq₁, heq⟩ := Option.map_eq_some_iff.mp h
      cases heq
      exact start_frame hq₁
  | acknowledgeBatch batch =>
      obtain ⟨q₁, hq₁, heq⟩ := Option.map_eq_some_iff.mp h
      cases heq
      exact acknowledgeBatch_frame hq₁
  | addMutationBatch mutations =>
      cases h
      exact ⟨rfl, fun v hv => addMutationBatch_frame q mutations hv⟩
  | removeMutationBatches batches =>
      obtain ⟨q₁, hq₁, heq⟩ := Option.map_eq_some_iff.mp h
      cases heq
      exact removeMutationBatches_frame hq₁
  | nextMutationBatchAfterBatchID batchID =>
      obtain ⟨batch, -, heq⟩ := Option.map_eq_some_iff.mp h
      cases heq
      exact hsame
  | allMutationBatchesAffectingDocumentKey key =>
      obtain ⟨batches, -, heq⟩ := Option.map_eq_some_iff.mp h
      cases heq
      exact hsame
  | performConsistencyCheck =>
      obtain ⟨_, -, heq⟩ := Option.map_eq_some_iff.mp h
      cases heq
      exact hsame
  | _ =>
      cases h
      exact hsame

/-- A start reads nothing but the database. -/
theorem start_of_stores (h : Stores q.db q.userID p.batches p.highestAcknowledgedBatchID)
    (hstartable : p.Startable) :
    ∃ q' p', q.start = some q' ∧ q'.Represents p' ∧ QueueCall.start.Answers p .done p' := by
  let q₀ : LevelDBMutationQueue κ := { q with
    nextBatchID := p.nextBatchID, lastAcknowledgedBatchID := p.highestAcknowledgedBatchID }
  have hq₀ : q₀.Represents p := ⟨h, rfl, rfl⟩
  have hstart : q.start = q₀.start := rfl
  obtain ⟨q', p', hq', h', hbatches, hack⟩ := start_spec hq₀ hstartable
  exact ⟨q', p', hstart.trans hq', h', rfl, hbatches, hack⟩

instance : UserQueues String (LevelDBMutationQueue κ) where
  mutationQueueForUser q userID := { q with userID }

instance : LawfulUserQueues κ String (LevelDBMutationQueue κ) where
  user := userID
  Keeps q userID p := Stores q.db userID p.batches p.highestAcknowledgedBatchID
  keeps_of_represents h := h.stores
  user_mutationQueueForUser _ _ := rfl
  keeps_mutationQueueForUser _ h := h
  start_of_keeps h hstartable := start_of_stores h hstartable
  perform_frame h := by
    obtain ⟨huser, hsame⟩ := perform_frame h
    exact ⟨huser, fun v hv p hp => hp.of_sameFor (hsame v hv)⟩

/-- The queue of a user in an empty database, started. -/
def init (userID : String) : LevelDBMutationQueue κ where
  userID := userID
  db := { mutations := .empty, documentMutations := .empty, mutationQueues := fun _ => none }
  nextBatchID := 0
  lastAcknowledgedBatchID := batchIDUnknown

theorem stores_init (userID v : String) :
    Stores (init userID : LevelDBMutationQueue κ).db v [] batchIDUnknown where
  rows := by simp [init]
  index := by simp [init]
  metadata := rfl

theorem representsAll_init (userID : String) :
    RepresentsAll (init userID : LevelDBMutationQueue κ) fun _ => Pending.init 0 where
  current := ⟨stores_init userID userID, rfl, rfl⟩
  others v _ := stores_init userID v

/-- A user writes, another one has nothing pending, and the first one's batch is still there. -/
def takeTurns : List (UserCall ℕ String) :=
  [.queue (.addMutationBatch [.delete 0 .none]), .userDidChange "b", .queue .isEmpty,
   .userDidChange "a", .queue (.nextMutationBatchAfterBatchID batchIDUnknown)]

theorem allAllowed_takeTurns : (UserCall.specification ℕ String).AllAllowed
    ("a", fun _ => Pending.init 0) takeTurns := by
  refine ⟨List.cons_ne_nil _ _, ?_⟩
  rintro - ⟨_, _⟩ ⟨rfl, _, ⟨-, _, rfl⟩, rfl⟩
  refine ⟨Or.inl rfl, ?_⟩
  rintro - ⟨_, _⟩ ⟨rfl, p, ⟨-, -, -⟩, rfl⟩
  refine ⟨trivial, ?_⟩
  rintro - ⟨_, _⟩ ⟨rfl, _, ⟨-, rfl⟩, rfl⟩
  refine ⟨Or.inr ⟨_, List.mem_singleton_self _, ?_⟩, ?_⟩
  · simp [Pending.nextBatch, Pending.init, Pending.add, batchIDUnknown]
  · intro _ _ _
    exact ⟨trivial, fun _ _ _ => trivial⟩

/-- No identifier is used twice, by whatever users, and the next one is beyond all of them. -/
structure Distinct (q : LevelDBMutationQueue κ) : Prop where
  below : ∀ row ∈ q.db.mutations.entries, Row.batchID row < q.nextBatchID
  unique : ∀ row ∈ q.db.mutations.entries, ∀ row' ∈ q.db.mutations.entries,
    Row.batchID row = Row.batchID row' → row = row'

theorem Distinct.of_subset {q' : LevelDBMutationQueue κ} (h : q.Distinct)
    (hsubset : q'.db.mutations.entries ⊆ q.db.mutations.entries)
    (hbelow : ∀ row ∈ q'.db.mutations.entries, Row.batchID row < q'.nextBatchID) : q'.Distinct where
  below := hbelow
  unique row hrow row' hrow' := h.unique row (hsubset hrow) row' (hsubset hrow')

theorem start_distinct {q' : LevelDBMutationQueue κ} (h : q.Distinct) (hstart : q.start = some q') :
    q'.Distinct := by
  have hbelow := (lt_loadNextBatchIDFromDB q.db).2
  unfold start at hstart
  dsimp only at hstart
  split at hstart
  · cases hstart
    exact h.of_subset (List.Subset.refl _) hbelow
  · split at hstart
    · split at hstart
      · cases hstart
        exact h.of_subset (List.Subset.refl _) hbelow
      · cases hstart
    · cases hstart
      exact h.of_subset (List.Subset.refl _) hbelow

theorem acknowledgeBatch_distinct {q' : LevelDBMutationQueue κ} {batch : MutationBatch κ}
    (h : q.Distinct) (hack : q.acknowledgeBatch batch = some q') : q'.Distinct := by
  unfold acknowledgeBatch at hack
  split at hack
  · cases hack
    exact ⟨h.below, h.unique⟩
  · cases hack

theorem addMutationBatch_distinct (h : q.Distinct) (mutations : List (Mutation κ)) :
    (q.addMutationBatch mutations).2.Distinct := by
  have hmem {row : Row κ} : row ∈ (q.addMutationBatch mutations).2.db.mutations.entries →
      row = (toLex (q.userID, q.nextBatchID), { batchID := q.nextBatchID, mutations }) ∨
        row ∈ q.db.mutations.entries := by
    intro hrow
    rcases SortedMap.mem_insert.mp (show (row.1, row.2) ∈ _ from hrow) with hnew | ⟨hold, -⟩
    · exact Or.inl hnew
    · exact Or.inr hold
  refine ⟨fun row hrow => ?_, fun row hrow row' hrow' heq => ?_⟩
  · rcases hmem hrow with rfl | hold
    · exact lt_add_one q.nextBatchID
    · exact (h.below row hold).trans (lt_add_one q.nextBatchID)
  · rcases hmem hrow with rfl | hold <;> rcases hmem hrow' with rfl | hold'
    · rfl
    · exact absurd (h.below row' hold') (heq ▸ lt_irrefl _)
    · exact absurd (h.below row hold) (heq ▸ lt_irrefl _)
    · exact h.unique row hold row' hold' heq

theorem removeMutationBatches_distinct {q' : LevelDBMutationQueue κ}
    {batches : List (MutationBatch κ)} (h : q.Distinct)
    (hremove : q.removeMutationBatches batches = some q') : q'.Distinct := by
  induction batches generalizing q with
  | nil =>
      cases hremove
      exact h
  | cons batch batches ih =>
      rw [removeMutationBatches, List.foldlM_cons, Option.bind_eq_bind,
        Option.bind_eq_some_iff] at hremove
      obtain ⟨q₁, hbatch, hbatches⟩ := hremove
      refine ih ?_ hbatches
      unfold removeMutationBatch at hbatch
      split at hbatch
      · cases hbatch
        exact h.of_subset List.filter_sublist.subset fun row hrow =>
          h.below row (List.filter_sublist.subset hrow)
      · cases hbatch

theorem perform_distinct {q' : LevelDBMutationQueue κ} {call : QueueCall κ}
    {answer : QueueAnswer κ} (h : q.Distinct) (hcall : call.perform q = some (answer, q')) :
    q'.Distinct := by
  cases call with
  | start =>
      obtain ⟨q₁, hq₁, heq⟩ := Option.map_eq_some_iff.mp hcall
      cases heq
      exact start_distinct h hq₁
  | acknowledgeBatch batch =>
      obtain ⟨q₁, hq₁, heq⟩ := Option.map_eq_some_iff.mp hcall
      cases heq
      exact acknowledgeBatch_distinct h hq₁
  | addMutationBatch mutations =>
      cases hcall
      exact addMutationBatch_distinct h mutations
  | removeMutationBatches batches =>
      obtain ⟨q₁, hq₁, heq⟩ := Option.map_eq_some_iff.mp hcall
      cases heq
      exact removeMutationBatches_distinct h hq₁
  | nextMutationBatchAfterBatchID batchID =>
      obtain ⟨batch, -, heq⟩ := Option.map_eq_some_iff.mp hcall
      cases heq
      exact h
  | allMutationBatchesAffectingDocumentKey key =>
      obtain ⟨batches, -, heq⟩ := Option.map_eq_some_iff.mp hcall
      cases heq
      exact h
  | performConsistencyCheck =>
      obtain ⟨_, -, heq⟩ := Option.map_eq_some_iff.mp hcall
      cases heq
      exact h
  | _ =>
      cases hcall
      exact h

/-- **No identifier is used twice.**  Two rows of the database with the same identifier are
the same row, whoever wrote them, although every change of the user computes the next
identifier anew. -/
theorem identifiers_unique {userID : String} {calls : List (UserCall κ String)}
    {answers : List (QueueAnswer κ)} {q' : LevelDBMutationQueue κ}
    (h : Calls.performAll UserCall.perform (init userID) calls = some (answers, q')) :
    ∀ row ∈ q'.db.mutations.entries, ∀ row' ∈ q'.db.mutations.entries,
      Row.batchID row = Row.batchID row' → row = row' := by
  have hinit : (init userID : LevelDBMutationQueue κ).Distinct :=
    ⟨fun _ hrow => absurd hrow List.not_mem_nil, fun _ hrow => absurd hrow List.not_mem_nil⟩
  refine (Calls.performAll_invariant Distinct (fun {q call answer q''} hq hcall => ?_) hinit h).unique
  cases call with
  | userDidChange u =>
      have hother : (UserQueues.mutationQueueForUser q u).Distinct := ⟨hq.below, hq.unique⟩
      have hstart : QueueCall.start.perform (UserQueues.mutationQueueForUser q u) =
          some (answer, q'') := hcall
      exact perform_distinct hother hstart
  | queue call => exact perform_distinct hq hcall

theorem identifiers_unique_takeTurns : ∃ answers q',
    Calls.performAll UserCall.perform (init "a" : LevelDBMutationQueue ℕ) takeTurns =
      some (answers, q') ∧
    ∀ row ∈ q'.db.mutations.entries, ∀ row' ∈ q'.db.mutations.entries,
      Row.batchID row = Row.batchID row' → row = row' := by
  obtain ⟨answers, q', -, hcalls, -⟩ := UserCall.meets_specification.performAll
    ⟨rfl, representsAll_init "a"⟩ allAllowed_takeTurns
  exact ⟨answers, q', hcalls, identifiers_unique hcalls⟩

end LevelDBMutationQueue

end CocoMap
