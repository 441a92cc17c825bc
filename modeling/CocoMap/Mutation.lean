import Mathlib.Data.Finset.Dedup
import Mathlib.Data.Finset.Image
import Mathlib.Data.List.Induction
import CocoMap.Firestore

/-!
# Mutations and mutation batches

What the Firestore client makes of a write request.  A request becomes a batch of
mutations; a mutation turns what the client knows of a document (a document, the
knowledge that there is none, or nothing at all) into what it will know once the
mutation has happened.  It does so twice: on top of the cached documents while the
batch is pending, and in the cache itself when the server has committed it.

The two applications differ in nothing but the flag `hasLocalMutations`
(`MutationBatch.settle_applyTo`), and on the documents' data the mutations of a request
do what the request does (`Write.existing_applyTo`).

Field transforms are left out: the app writes no server timestamps and no arrays.
-/

namespace CocoMap

/-- `FSTSnapshotVersion`: a commit time of the server. -/
abbrev SnapshotVersion := ℕ

/-- The version of what no server has confirmed, before all others. -/
def SnapshotVersion.noVersion : SnapshotVersion := 0

/-- `FSTMaybeDocument`: a document, or the knowledge that there is none.  Its key is
the one it is stored under. -/
inductive MaybeDocument
  | document (data : Document) (version : SnapshotVersion) (hasLocalMutations : Bool)
  | deletedDocument (version : SnapshotVersion)

namespace MaybeDocument

def version : MaybeDocument → SnapshotVersion
  | .document _ version _ => version
  | .deletedDocument version => version

/-- The same document, without the mark of a pending write. -/
def settle : MaybeDocument → MaybeDocument
  | .document data version _ => .document data version false
  | .deletedDocument version => .deletedDocument version

/-- The data of a document that exists. -/
def existing : Option MaybeDocument → Option Document
  | some (.document data _ _) => some data
  | _ => none

@[simp] theorem version_document (data : Document) (version : SnapshotVersion) (flag : Bool) :
    (document data version flag).version = version := rfl

@[simp] theorem version_deletedDocument (version : SnapshotVersion) :
    (deletedDocument version).version = version := rfl

@[simp] theorem settle_document (data : Document) (version : SnapshotVersion) (flag : Bool) :
    (document data version flag).settle = document data version false := rfl

@[simp] theorem settle_deletedDocument (version : SnapshotVersion) :
    (deletedDocument version).settle = deletedDocument version := rfl

@[simp] theorem version_settle (doc : MaybeDocument) : doc.settle.version = doc.version := by
  cases doc <;> rfl

@[simp] theorem settle_settle (doc : MaybeDocument) : doc.settle.settle = doc.settle := by
  cases doc <;> rfl

@[simp] theorem existing_none : existing none = none := rfl

@[simp] theorem existing_document (data : Document) (version : SnapshotVersion) (flag : Bool) :
    existing (some (document data version flag)) = some data := rfl

@[simp] theorem existing_deletedDocument (version : SnapshotVersion) :
    existing (some (deletedDocument version)) = none := rfl

end MaybeDocument

/-- A condition on the document a mutation applies to. -/
inductive Precondition
  | none
  | ofExists (value : Bool)
  | updateTime (version : SnapshotVersion)
deriving DecidableEq

/-- `Precondition::IsValidFor` -/
def Precondition.isValidFor : Precondition → Option MaybeDocument → Bool
  | .none, _ => true
  | .ofExists true, some (.document ..) => true
  | .ofExists true, _ => false
  | .ofExists false, some (.document ..) => false
  | .ofExists false, _ => true
  | .updateTime time, some (.document _ version _) => version = time
  | .updateTime _, _ => false

/-- A mutation of the document with a key. -/
inductive Mutation (κ : Type)
  | set (key : κ) (value : Document) (precondition : Precondition)
  | patch (key : κ) (fieldMask : List Field) (value : Document) (precondition : Precondition)
  | delete (key : κ) (precondition : Precondition)

/-- The server's result of a mutation; a delete has no version. -/
structure MutationResult where
  version : Option SnapshotVersion

/-- `patchObjectValue:` — the fields of the mask are set, or deleted where the value
has none. -/
def patchObjectValue (fieldMask : List Field) (value data : Document) : Document :=
  fieldMask.foldl (fun result field => Function.update result field (value field)) data

namespace Mutation

variable {κ : Type}

def key : Mutation κ → κ
  | .set key _ _ => key
  | .patch key _ _ _ => key
  | .delete key _ => key

def precondition : Mutation κ → Precondition
  | .set _ _ precondition => precondition
  | .patch _ _ _ precondition => precondition
  | .delete _ precondition => precondition

/-- The document after the mutation.  Without a result the mutation is still pending. -/
def applyTo (mutation : Mutation κ) (maybeDoc : Option MaybeDocument)
    (mutationResult : Option MutationResult) : Option MaybeDocument :=
  if mutation.precondition.isValidFor maybeDoc then
    let hasLocalMutations := mutationResult.isNone
    match mutation, maybeDoc with
    | .set _ value _, some (.document _ version _) =>
        some (.document value version hasLocalMutations)
    -- If the document didn't exist before, create it.
    | .set _ value _, _ => some (.document value .noVersion hasLocalMutations)
    | .patch _ fieldMask value _, some (.document data version _) =>
        some (.document (patchObjectValue fieldMask value data) version hasLocalMutations)
    | .patch _ fieldMask value _, some (.deletedDocument version) =>
        some (.document (patchObjectValue fieldMask value fun _ => none) version hasLocalMutations)
    | .patch _ fieldMask value _, none =>
        some (.document (patchObjectValue fieldMask value fun _ => none) .noVersion
          hasLocalMutations)
    | .delete _ _, _ => some (.deletedDocument .noVersion)
  else maybeDoc

@[simp] theorem key_set (k : κ) (value : Document) (p : Precondition) :
    (set k value p).key = k := rfl

@[simp] theorem key_patch (k : κ) (fieldMask : List Field) (value : Document)
    (p : Precondition) : (patch k fieldMask value p).key = k := rfl

@[simp] theorem key_delete (k : κ) (p : Precondition) : (delete k p).key = k := rfl

/-- What is known of a document is not forgotten. -/
theorem applyTo_ne_none (mutation : Mutation κ) {doc : Option MaybeDocument}
    (result : Option MutationResult) (h : doc ≠ none) : mutation.applyTo doc result ≠ none := by
  unfold applyTo
  split
  · cases mutation <;> rcases doc with - | (_ | _) <;> exact Option.some_ne_none _
  · exact h

/-- A mutation keeps the version or drops it: only the server gives a new one. -/
theorem version_applyTo (mutation : Mutation κ) {doc : Option MaybeDocument}
    {result : Option MutationResult} {after : MaybeDocument}
    (h : mutation.applyTo doc result = some after) :
    after.version = .noVersion ∨ ∃ before, doc = some before ∧ after.version = before.version := by
  unfold applyTo at h
  split at h
  · cases mutation <;> rcases doc with - | (_ | _) <;> cases h <;> simp
  · exact Or.inr ⟨after, h, rfl⟩

end Mutation

/-! ## Batches -/

/-- `kFSTBatchIDUnknown` — batch identifiers are assigned in sequence, and this one
precedes all of them. -/
def batchIDUnknown : ℤ := -1

/-- The mutations of one request. -/
structure MutationBatch (κ : Type) where
  batchID : ℤ
  mutations : List (Mutation κ)

namespace MutationBatch

variable {κ : Type}

/-- A batch that was rejected: its identifier stays, its mutations are gone. -/
def isTombstone (batch : MutationBatch κ) : Bool := batch.mutations.isEmpty

def toTombstone (batch : MutationBatch κ) : MutationBatch κ where
  batchID := batch.batchID
  mutations := []

@[simp] theorem isTombstone_toTombstone (batch : MutationBatch κ) :
    batch.toTombstone.isTombstone = true := rfl

@[simp] theorem batchID_toTombstone (batch : MutationBatch κ) :
    batch.toTombstone.batchID = batch.batchID := rfl

variable [DecidableEq κ]

/-- The documents the batch writes. -/
def keys (batch : MutationBatch κ) : Finset κ := (batch.mutations.map Mutation.key).toFinset

/-- A document after the batch, which is still pending if there are no results. -/
def applyTo (batch : MutationBatch κ) (maybeDoc : Option MaybeDocument) (documentKey : κ)
    (mutationResults : Option (List MutationResult)) : Option MaybeDocument :=
  batch.mutations.zipIdx.foldl (fun doc entry =>
    if entry.1.key = documentKey then
      entry.1.applyTo doc (mutationResults.bind fun results => results[entry.2]?)
    else doc) maybeDoc

@[simp] theorem mem_keys {batch : MutationBatch κ} {key : κ} :
    key ∈ batch.keys ↔ ∃ mutation ∈ batch.mutations, mutation.key = key := by
  simp [keys]

theorem applyTo_ne_none (batch : MutationBatch κ) {doc : Option MaybeDocument} (key : κ)
    (results : Option (List MutationResult)) (h : doc ≠ none) :
    batch.applyTo doc key results ≠ none := by
  refine List.foldlRecOn _ _ (motive := fun d => d ≠ none) h fun d hd entry _ => ?_
  split
  · exact entry.1.applyTo_ne_none _ hd
  · exact hd

/-- A batch keeps the version of a document or drops it. -/
theorem version_applyTo (batch : MutationBatch κ) {doc : Option MaybeDocument} {key : κ}
    {results : Option (List MutationResult)} {after : MaybeDocument}
    (h : batch.applyTo doc key results = some after) :
    after.version = .noVersion ∨ ∃ before, doc = some before ∧ after.version = before.version := by
  refine List.foldlRecOn _ _ (motive := fun d => ∀ after, d = some after →
      after.version = .noVersion ∨ ∃ before, doc = some before ∧ after.version = before.version)
    (fun after h => Or.inr ⟨after, h, rfl⟩) (fun d hd entry _ after h => ?_) after h
  split at h
  · rcases entry.1.version_applyTo h with hnone | ⟨before, hbefore, hversion⟩
    · exact Or.inl hnone
    · rw [hversion]
      exact hd before hbefore
  · exact hd after h

/-- **The frame of a batch**: the other documents are as before. -/
theorem applyTo_of_notMem_keys (batch : MutationBatch κ) (doc : Option MaybeDocument) {key : κ}
    (results : Option (List MutationResult)) (h : key ∉ batch.keys) :
    batch.applyTo doc key results = doc := by
  refine List.foldlRecOn _ _ (motive := fun d => d = doc) rfl fun d hd entry hentry => ?_
  have hmem : entry.1 ∈ batch.mutations := List.fst_mem_of_mem_zipIdx hentry
  rw [if_neg fun hkey => h (mem_keys.mpr ⟨entry.1, hmem, hkey⟩)]
  exact hd

end MutationBatch

/-- The server's answer to a batch. -/
structure MutationBatchResult (κ : Type) where
  batch : MutationBatch κ
  commitVersion : SnapshotVersion
  mutationResults : List MutationResult
  docVersions : κ → Option SnapshotVersion

namespace MutationBatchResult

variable {κ : Type} [DecidableEq κ]

/-- The version each document has after the batch.  Deletes don't have a version, so the
commit version of the whole batch stands in. -/
def docVersionsOf (commitVersion : SnapshotVersion)
    (results : List (Mutation κ × MutationResult)) : κ → Option SnapshotVersion :=
  results.foldl (fun versions result key =>
    if key = result.1.key then some (result.2.version.getD commitVersion) else versions key)
    fun _ => none

/-- `resultWithBatch:`; `none` is the failed assertion on the number of results. -/
def resultWithBatch (batch : MutationBatch κ) (commitVersion : SnapshotVersion)
    (mutationResults : List MutationResult) : Option (MutationBatchResult κ) :=
  if batch.mutations.length = mutationResults.length then
    some { batch, commitVersion, mutationResults,
           docVersions := docVersionsOf commitVersion (batch.mutations.zip mutationResults) }
  else none

theorem docVersionsOf_concat (commitVersion : SnapshotVersion)
    (results : List (Mutation κ × MutationResult)) (result : Mutation κ × MutationResult) (key : κ) :
    docVersionsOf commitVersion (results ++ [result]) key =
      if key = result.1.key then some (result.2.version.getD commitVersion)
      else docVersionsOf commitVersion results key := by
  rw [docVersionsOf, List.foldl_append]
  rfl

theorem docVersionsOf_ne_none {commitVersion : SnapshotVersion}
    {results : List (Mutation κ × MutationResult)} {result : Mutation κ × MutationResult}
    (h : result ∈ results) : docVersionsOf commitVersion results result.1.key ≠ none := by
  induction results using List.reverseRecOn with
  | nil => cases h
  | append_singleton results last ih =>
      rw [docVersionsOf_concat]
      split
      · exact Option.some_ne_none _
      · rename_i hkey
        rcases List.mem_append.mp h with hmem | hmem
        · exact ih hmem
        · exact absurd (by rw [List.mem_singleton.mp hmem]) hkey

theorem batch_eq {batch : MutationBatch κ} {commitVersion : SnapshotVersion}
    {mutationResults : List MutationResult} {batchResult : MutationBatchResult κ}
    (h : resultWithBatch batch commitVersion mutationResults = some batchResult) :
    batchResult.batch = batch := by
  unfold resultWithBatch at h
  split at h
  · cases h
    rfl
  · cases h

/-- **The versions name every document of the batch.** -/
theorem docVersions_ne_none {batch : MutationBatch κ} {commitVersion : SnapshotVersion}
    {mutationResults : List MutationResult} {batchResult : MutationBatchResult κ} {key : κ}
    (h : resultWithBatch batch commitVersion mutationResults = some batchResult)
    (hkey : key ∈ batch.keys) : batchResult.docVersions key ≠ none := by
  unfold resultWithBatch at h
  split at h
  · rename_i hlength
    cases h
    obtain ⟨mutation, hmem, rfl⟩ := MutationBatch.mem_keys.mp hkey
    obtain ⟨i, hi, rfl⟩ := List.getElem_of_mem hmem
    have hzip : i < (batch.mutations.zip mutationResults).length := by
      rw [List.length_zip]
      omega
    have hentry : (batch.mutations.zip mutationResults)[i].1 = batch.mutations[i] := by
      rw [List.getElem_zip]
    exact hentry ▸ docVersionsOf_ne_none (List.getElem_mem hzip)
  · cases h

end MutationBatchResult

/-! ## Requests -/

/-- The values an update stores; a deleted field is in the mask only. -/
def parsedUpdateData (fields : List (Field × FieldValue)) : Document := fun field =>
  match fields.lookup field with
  | some (.value v) => some v
  | _ => none

namespace Write

/-- The mutation a request of the app becomes. -/
def mutation : Write → Mutation String
  | .setData ref data => .set ref data .none
  | .updateData ref fields =>
      .patch ref (fields.map Prod.fst) (parsedUpdateData fields) (.ofExists true)
  | .delete ref => .delete ref .none

end Write

end CocoMap
