import Mathlib.Data.Finset.Sort
import CocoMap.Lib.SortedMap
import CocoMap.UserQueues

/-!
# The local store

`FSTLocalStore` has what the client knows: the documents that the watch stream has
delivered, and the queue of the user's pending batches.  The app sees the cached
documents with the pending batches applied to them (`documentForKey`).

When the server acknowledges a batch, the watch stream may not have caught up with it.
If the batch left the queue at that point, the app would see its write reverted; so the
result is held, and the batch stays, until the watch stream is past the commit.  `Valid`
says what is held when.

Every operation returns the documents that it may have changed for the app; `Reports` says
that it forgets none, and that it returns them as they are now.

The query cache (resume tokens, matching keys), the garbage collector and the stream token
are left out.
-/

namespace CocoMap

/-- `FSTMaybeDocumentDictionary`: documents that may have changed. -/
abbrev Changes (κ : Type) := List (κ × MaybeDocument)

/-- What `FSTLocalStore` keeps, over a persistence `Q`. -/
structure LocalStore (κ Q : Type) where
  mutationQueue : Q
  remoteDocumentCache : κ → Option MaybeDocument
  /-- The version up to which the watch stream has delivered everything. -/
  lastRemoteSnapshotVersion : SnapshotVersion
  /-- The targets that are being watched. -/
  targetIDs : List ℤ
  /-- Acknowledgements that the watch stream has not caught up with, the oldest first. -/
  heldBatchResults : List (MutationBatchResult κ)

namespace LocalStore

variable {κ υ Q : Type} [LinearOrder κ] [MutationQueue κ Q]

/-! ## Reading -/

/-- The local view of a document: the pending batches that write it, applied in order. -/
def localDocument (s : LocalStore κ Q) (document : Option MaybeDocument) (documentKey : κ) :
    Option (Option MaybeDocument) :=
  (MutationQueue.allMutationBatchesAffectingDocumentKey s.mutationQueue documentKey).map
    fun batches => batches.foldl (fun doc batch => batch.applyTo doc documentKey none) document

def documentForKey (s : LocalStore κ Q) (key : κ) : Option (Option MaybeDocument) :=
  s.localDocument (s.remoteDocumentCache key) key

/-- Documents of which nothing is known are reported as deleted. -/
def documentsForKeys (s : LocalStore κ Q) (keys : Finset κ) : Option (Changes κ) :=
  (keys.sort (· ≤ ·)).mapM fun key => (s.documentForKey key).map fun maybeDoc =>
    (key, maybeDoc.getD (.deletedDocument .noVersion))

def nextMutationBatchAfterBatchID (s : LocalStore κ Q) (batchID : ℤ) :
    Option (Option (MutationBatch κ)) :=
  MutationQueue.nextMutationBatchAfterBatchID s.mutationQueue batchID

/-- The documents that batches write. -/
def keysOf (batches : List (MutationBatch κ)) : Finset κ :=
  batches.foldl (fun keys batch => keys ∪ batch.keys) ∅

/-! ## Releasing results -/

/-- If there are no watch targets, then we won't get remote snapshots, and are always
"up-to-date". -/
def isRemoteUpToVersion (s : LocalStore κ Q) (version : SnapshotVersion) : Bool :=
  version ≤ s.lastRemoteSnapshotVersion || s.targetIDs.isEmpty

/-- The watcher isn't up to date, or prior results are already held. -/
def shouldHoldBatchResultWithVersion (s : LocalStore κ Q) (version : SnapshotVersion) : Bool :=
  !s.isRemoteUpToVersion version || !s.heldBatchResults.isEmpty

/-- The block of `applyBatchResult:` — the batch is applied to a cached document that is older
than it. -/
def applyToDocument (batchResult : MutationBatchResult κ) (cache : κ → Option MaybeDocument)
    (docKey : κ) : Option (κ → Option MaybeDocument) := do
  let remoteDoc := cache docKey
  -- docVersions should contain every doc in the write
  let ackVersion ← batchResult.docVersions docKey
  if remoteDoc.all fun doc => doc.version < ackVersion then
    match batchResult.batch.applyTo remoteDoc docKey (some batchResult.mutationResults) with
    | none => if remoteDoc.isSome then none else some cache
    | some doc => some (Function.update cache docKey (some doc))
  else some cache

def applyBatchResult (remoteDocumentCache : κ → Option MaybeDocument)
    (batchResult : MutationBatchResult κ) : Option (κ → Option MaybeDocument) :=
  (batchResult.batch.keys.sort (· ≤ ·)).foldlM (applyToDocument batchResult) remoteDocumentCache

def removeMutationBatches (s : LocalStore κ Q) (batches : List (MutationBatch κ)) :
    Option (Finset κ × LocalStore κ Q) :=
  (MutationQueue.removeMutationBatches s.mutationQueue batches).map fun mutationQueue =>
    (keysOf batches, { s with mutationQueue })

def releaseBatchResults (s : LocalStore κ Q) (batchResults : List (MutationBatchResult κ)) :
    Option (Finset κ × LocalStore κ Q) := do
  let remoteDocumentCache ← batchResults.foldlM applyBatchResult s.remoteDocumentCache
  { s with remoteDocumentCache }.removeMutationBatches
    (batchResults.map MutationBatchResult.batch)

/-- Releases all the held results up to the current remote version. -/
def releaseHeldBatchResults (s : LocalStore κ Q) : Option (Finset κ × LocalStore κ Q) :=
  let toRelease := s.heldBatchResults.takeWhile fun batchResult =>
    s.isRemoteUpToVersion batchResult.commitVersion
  if toRelease.isEmpty then some (∅, s)
  else
    { s with heldBatchResults := s.heldBatchResults.drop toRelease.length }.releaseBatchResults
      toRelease

/-! ## Operations -/

/-- Leftover results from a prior run are dropped, and with them the batches. -/
def startMutationQueue (s : LocalStore κ Q) : Option (LocalStore κ Q) := do
  let mutationQueue ← MutationQueue.start s.mutationQueue
  let highestAck := MutationQueue.highestAcknowledgedBatchID mutationQueue
  if highestAck ≠ batchIDUnknown then
    let batches := MutationQueue.allMutationBatchesThroughBatchID mutationQueue highestAck
    if 0 < batches.length then
      let mutationQueue ← MutationQueue.removeMutationBatches mutationQueue batches
      return { s with mutationQueue, heldBatchResults := [] }
  return { s with mutationQueue, heldBatchResults := [] }

/-- `initWithPersistence:` and `start` — the store of a new process, over the persistence that
the last one left. -/
def launch [UserQueues υ Q] (s : LocalStore κ Q) (initialUser : υ) : Option (LocalStore κ Q) :=
  { s with
    mutationQueue := UserQueues.mutationQueueForUser s.mutationQueue initialUser
    targetIDs := []
    heldBatchResults := [] }.startMutationQueue

/-- Swaps out the mutation queue, grabbing the pending batches before and after. -/
def userDidChange [UserQueues υ Q] (s : LocalStore κ Q) (user : υ) :
    Option (Changes κ × LocalStore κ Q) := do
  let oldBatches := MutationQueue.allMutationBatches s.mutationQueue
  let mutationQueue := UserQueues.mutationQueueForUser s.mutationQueue user
  let s' ← { s with mutationQueue }.startMutationQueue
  let newBatches := MutationQueue.allMutationBatches s'.mutationQueue
  let changes ← s'.documentsForKeys (keysOf oldBatches ∪ keysOf newBatches)
  return (changes, s')

/-- `FSTLocalWriteResult`: the identifier of the batch, and the documents it writes. -/
def locallyWriteMutations (s : LocalStore κ Q) (mutations : List (Mutation κ)) :
    Option ((ℤ × Changes κ) × LocalStore κ Q) := do
  let (batch, mutationQueue) ← MutationQueue.addMutationBatch s.mutationQueue mutations
  let s' := { s with mutationQueue }
  let changes ← s'.documentsForKeys batch.keys
  return ((batch.batchID, changes), s')

def acknowledgeBatchWithResult (s : LocalStore κ Q) (batchResult : MutationBatchResult κ) :
    Option (Changes κ × LocalStore κ Q) := do
  let mutationQueue ← MutationQueue.acknowledgeBatch s.mutationQueue batchResult.batch
  let s₁ := { s with mutationQueue }
  let (affected, s₂) ←
    if s₁.shouldHoldBatchResultWithVersion batchResult.commitVersion then
      some (∅, { s₁ with heldBatchResults := s₁.heldBatchResults ++ [batchResult] })
    else s₁.releaseBatchResults [batchResult]
  MutationQueue.performConsistencyCheck s₂.mutationQueue
  let changes ← s₂.documentsForKeys affected
  return (changes, s₂)

def rejectBatchID (s : LocalStore κ Q) (batchID : ℤ) : Option (Changes κ × LocalStore κ Q) := do
  -- Attempt to reject nonexistent batch!
  let toReject ← (MutationQueue.lookupMutationBatch s.mutationQueue batchID).join
  -- Acknowledged batches can't be rejected.
  guard (MutationQueue.highestAcknowledgedBatchID s.mutationQueue < batchID)
  let (affected, s₁) ← s.removeMutationBatches [toReject]
  MutationQueue.performConsistencyCheck s₁.mutationQueue
  let changes ← s₁.documentsForKeys affected
  return (changes, s₁)

/-- A document of the watch stream is newer than the cached one, or has no version at all,
which happens for manufactured events. -/
def isNewer (doc : MaybeDocument) (existingDoc : Option MaybeDocument) : Bool :=
  doc.version = .noVersion || existingDoc.all fun existing => existing.version ≤ doc.version

def applyRemoteEvent (s : LocalStore κ Q) (snapshotVersion : SnapshotVersion)
    (documentUpdates : SortedMap κ MaybeDocument) : Option (Changes κ × LocalStore κ Q) := do
  let changedDocKeys := (documentUpdates.entries.map Prod.fst).toFinset
  let remoteDocumentCache := documentUpdates.entries.foldl (fun (cache : κ → Option MaybeDocument) kv =>
    if isNewer kv.2 (cache kv.1) then Function.update cache kv.1 (some kv.2) else cache)
    s.remoteDocumentCache
  -- Watch stream reverted to previous snapshot??
  guard (snapshotVersion = .noVersion ∨ s.lastRemoteSnapshotVersion ≤ snapshotVersion)
  let lastRemoteSnapshotVersion :=
    if snapshotVersion = .noVersion then s.lastRemoteSnapshotVersion else snapshotVersion
  let (releasedWriteKeys, s') ←
    { s with remoteDocumentCache, lastRemoteSnapshotVersion }.releaseHeldBatchResults
  let changes ← s'.documentsForKeys (changedDocKeys ∪ releasedWriteKeys)
  return (changes, s')

def allocateQuery (s : LocalStore κ Q) (targetID : ℤ) : Option (LocalStore κ Q) :=
  if targetID ∈ s.targetIDs then none else some { s with targetIDs := targetID :: s.targetIDs }

/-- If this was the last watch target, then we won't get any more watch snapshots, so the held
results are released. -/
def releaseQuery (s : LocalStore κ Q) (targetID : ℤ) : Option (LocalStore κ Q) :=
  let s' := { s with targetIDs := s.targetIDs.erase targetID }
  if s'.targetIDs.isEmpty then s'.releaseHeldBatchResults.map Prod.snd else some s'

/-! ## The view of the pending batches -/

omit [LinearOrder κ] [MutationQueue κ Q] in
theorem foldl_applyTo_filter [DecidableEq κ] (batches : List (MutationBatch κ))
    (doc : Option MaybeDocument) (key : κ) :
    (batches.filter fun b => key ∈ b.keys).foldl (fun doc batch => batch.applyTo doc key none) doc =
      batches.foldl (fun doc batch => batch.applyTo doc key none) doc := by
  induction batches generalizing doc with
  | nil => rfl
  | cons batch batches ih =>
      by_cases hkey : key ∈ batch.keys
      · rw [List.filter_cons_of_pos (by simpa using hkey), List.foldl_cons, List.foldl_cons, ih]
      · rw [List.filter_cons_of_neg (by simpa using hkey), List.foldl_cons, ih,
          batch.applyTo_of_notMem_keys doc none hkey]

omit [MutationQueue κ Q] in
@[simp] theorem mem_keysOf {batches : List (MutationBatch κ)} {key : κ} :
    key ∈ keysOf batches ↔ ∃ batch ∈ batches, key ∈ batch.keys := by
  have hfold : ∀ keys : Finset κ, key ∈ batches.foldl (fun keys batch => keys ∪ batch.keys) keys ↔
      key ∈ keys ∨ ∃ batch ∈ batches, key ∈ batch.keys := by
    induction batches with
    | nil => simp
    | cons batch batches ih =>
        intro keys
        rw [List.foldl_cons, ih, Finset.mem_union, List.exists_mem_cons_iff, or_assoc]
  rw [keysOf, hfold]
  simp

end LocalStore

/-- A document with the pending batches applied to it, in order. -/
def Pending.view {κ : Type} [DecidableEq κ] (p : Pending κ) (key : κ) (doc : Option MaybeDocument) :
    Option MaybeDocument :=
  p.batches.foldl (fun doc batch => batch.applyTo doc key none) doc

namespace LocalStore

variable {κ υ Q : Type} [LinearOrder κ] [MutationQueue κ Q] [UserQueues υ Q]
  [LawfulUserQueues κ υ Q]

open LawfulMutationQueue LawfulUserQueues

/-- The user whose queue is in use. -/
def user (s : LocalStore κ Q) : υ := LawfulUserQueues.user s.mutationQueue

/-- A result names the version of every document that its batch writes. -/
def Named (r : MutationBatchResult κ) : Prop := ∀ key ∈ r.batch.keys, r.docVersions key ≠ none

/-- The results held are those of the batches that are acknowledged and still pending. -/
structure Consistent (s : LocalStore κ Q) (pending : υ → Pending κ) : Prop where
  queues : RepresentsAll s.mutationQueue pending
  current : ∀ v, (pending v).Current
  held : (pending s.user).acknowledgedBatches = s.heldBatchResults.map MutationBatchResult.batch
  named : ∀ r ∈ s.heldBatchResults, Named r

/-- **The invariant.**  Moreover a result is held only while the watch stream is behind the
oldest of them. -/
structure Valid (s : LocalStore κ Q) (pending : υ → Pending κ) : Prop
    extends Consistent s pending where
  behind : ∀ r ∈ s.heldBatchResults.head?, s.isRemoteUpToVersion r.commitVersion = false

variable {s s' : LocalStore κ Q} {pending : υ → Pending κ}

/-- **The local view is the cache with the pending batches on top.** -/
theorem Consistent.documentForKey (h : s.Consistent pending) (key : κ) :
    s.documentForKey key = some ((pending s.user).view key (s.remoteDocumentCache key)) := by
  rw [LocalStore.documentForKey, localDocument,
    allMutationBatchesAffectingDocumentKey_spec key h.queues.current, Option.map_some,
    foldl_applyTo_filter]
  rfl

theorem Consistent.documentsForKeys (h : s.Consistent pending) (keys : Finset κ) :
    s.documentsForKeys keys = some ((keys.sort (· ≤ ·)).map fun key =>
      (key, ((pending s.user).view key (s.remoteDocumentCache key)).getD
        (.deletedDocument .noVersion))) := by
  rw [LocalStore.documentsForKeys]
  simp only [h.documentForKey, Option.map_some]
  exact List.mapM_pure

/-- What is returned as changed is the local view of some documents, and no other document looks
different from before. -/
def Reports (s s' : LocalStore κ Q) (changes : Changes κ) : Prop :=
  ∃ keys, s'.documentsForKeys keys = some changes ∧
    ∀ key, key ∉ keys → s'.documentForKey key = s.documentForKey key

theorem Consistent.reports {pending' : υ → Pending κ} (h : s.Consistent pending)
    (h' : s'.Consistent pending') (keys : Finset κ)
    (hframe : ∀ key, key ∉ keys → (pending' s'.user).view key (s'.remoteDocumentCache key) =
      (pending s.user).view key (s.remoteDocumentCache key)) :
    ∃ changes, s'.documentsForKeys keys = some changes ∧ Reports s s' changes := by
  refine ⟨_, h'.documentsForKeys keys, keys, h'.documentsForKeys keys, fun key hkey => ?_⟩
  rw [h'.documentForKey, h.documentForKey, hframe key hkey]

/-! ## Releasing results -/

/-- The cached document after the release of a result. -/
def released (r : MutationBatchResult κ) (key : κ) (doc : Option MaybeDocument) :
    Option MaybeDocument :=
  if key ∈ r.batch.keys ∧ ∀ ackVersion ∈ r.docVersions key, ∀ d ∈ doc, d.version < ackVersion then
    r.batch.applyTo doc key (some r.mutationResults)
  else doc

omit [MutationQueue κ Q] in
theorem released_of_notMem {r : MutationBatchResult κ} {key : κ} (h : key ∉ r.batch.keys)
    (doc : Option MaybeDocument) : released r key doc = doc := if_neg fun hr => h hr.1

omit [MutationQueue κ Q] in
theorem applyToDocument_spec {r : MutationBatchResult κ} (hr : Named r) {key : κ}
    (hkey : key ∈ r.batch.keys) (cache : κ → Option MaybeDocument) :
    applyToDocument r cache key = some (Function.update cache key (released r key (cache key))) := by
  obtain ⟨ackVersion, hack⟩ := Option.ne_none_iff_exists'.mp (hr key hkey)
  have hall : ((cache key).all fun doc => doc.version < ackVersion) = true ↔
      ∀ version ∈ r.docVersions key, ∀ d ∈ cache key, d.version < version := by
    rw [hack]
    cases cache key <;> simp
  simp only [applyToDocument, hack, Option.bind_eq_bind, Option.bind_some]
  by_cases hversion : ((cache key).all fun doc => doc.version < ackVersion) = true
  · have hreleased : released r key (cache key) =
        r.batch.applyTo (cache key) key (some r.mutationResults) :=
      if_pos ⟨hkey, hall.mp hversion⟩
    rw [if_pos hversion, hreleased]
    cases happly : r.batch.applyTo (cache key) key (some r.mutationResults) with
    | some doc => rfl
    | none =>
        -- a batch does not make a cached document unknown
        have hnone : cache key = none := by
          by_contra hsome
          exact r.batch.applyTo_ne_none key (some r.mutationResults) hsome happly
        have hself : Function.update cache key none = cache := by rw [← hnone, Function.update_eq_self]
        rw [hself]
        exact if_neg (by simp [hnone])
  · have hreleased : released r key (cache key) = cache key :=
      if_neg fun h => hversion (hall.mpr h.2)
    rw [if_neg hversion, hreleased, Function.update_eq_self]

omit [MutationQueue κ Q] in
/-- **A result is applied document by document**, and its assertions hold. -/
theorem applyBatchResult_spec {r : MutationBatchResult κ} (hr : Named r)
    (cache : κ → Option MaybeDocument) :
    applyBatchResult cache r = some fun key => released r key (cache key) := by
  have hfold : ∀ keys : List κ, keys.Nodup → (∀ key ∈ keys, key ∈ r.batch.keys) →
      ∀ cache : κ → Option MaybeDocument, keys.foldlM (applyToDocument r) cache =
        some fun key => if key ∈ keys then released r key (cache key) else cache key := by
    intro keys hnodup hkeys
    induction keys with
    | nil => intro cache; rfl
    | cons key keys ih =>
        intro cache
        obtain ⟨hnotMem, hnodup⟩ := List.nodup_cons.mp hnodup
        rw [List.foldlM_cons, applyToDocument_spec hr (hkeys key List.mem_cons_self),
          Option.bind_eq_bind, Option.bind_some,
          ih hnodup fun k hk => hkeys k (List.mem_cons_of_mem key hk)]
        congr 1
        funext k
        by_cases hk : k = key
        · subst hk
          simp [hnotMem]
        · simp [hk]
  rw [applyBatchResult, hfold _ (Finset.sort_nodup _ _) fun key hkey => by simpa using hkey]
  congr 1
  funext key
  by_cases hkey : key ∈ r.batch.keys
  · simp [hkey]
  · simp [hkey, released_of_notMem hkey]

/-- Several results, the oldest first. -/
def releasedAll (rs : List (MutationBatchResult κ)) (key : κ) (doc : Option MaybeDocument) :
    Option MaybeDocument :=
  rs.foldl (fun doc r => released r key doc) doc

omit [MutationQueue κ Q] in
theorem foldlM_applyBatchResult {rs : List (MutationBatchResult κ)} (hrs : ∀ r ∈ rs, Named r)
    (cache : κ → Option MaybeDocument) :
    rs.foldlM applyBatchResult cache = some fun key => releasedAll rs key (cache key) := by
  induction rs generalizing cache with
  | nil => rfl
  | cons r rs ih =>
      rw [List.foldlM_cons, applyBatchResult_spec (hrs r List.mem_cons_self), Option.bind_eq_bind,
        Option.bind_some, ih fun r' hr' => hrs r' (List.mem_cons_of_mem r hr')]
      rfl

variable [DecidableEq υ]

/-- The user's batches and the results held change together. -/
theorem Consistent.update (h : s.Consistent pending) {p' : Pending κ}
    (huser : s'.user = s.user)
    (hqueues : RepresentsAll s'.mutationQueue (Function.update pending s.user p'))
    (hcurrent : p'.Current)
    (hheld : p'.acknowledgedBatches = s'.heldBatchResults.map MutationBatchResult.batch)
    (hnamed : ∀ r ∈ s'.heldBatchResults, Named r) :
    s'.Consistent (Function.update pending s.user p') where
  queues := hqueues
  current v := by
    by_cases hv : v = s.user
    · rw [hv, Function.update_self]
      exact hcurrent
    · rw [Function.update_of_ne hv]
      exact h.current v
  held := by rw [huser, Function.update_self, hheld]
  named := hnamed

/-- **Results are released**: their batches leave the queue, into the cache. -/
theorem releaseBatchResults_spec (h : RepresentsAll s.mutationQueue pending)
    {rs : List (MutationBatchResult κ)} (hne : rs ≠ []) (hnamed : ∀ r ∈ rs, Named r)
    {rest : List (MutationBatch κ)}
    (hacked : (pending s.user).acknowledgedBatches = rs.map MutationBatchResult.batch ++ rest) :
    ∃ q', s.releaseBatchResults rs = some (keysOf (rs.map MutationBatchResult.batch),
        { s with
          mutationQueue := q'
          remoteDocumentCache := fun key => releasedAll rs key (s.remoteDocumentCache key) }) ∧
      LawfulUserQueues.user q' = s.user ∧
      RepresentsAll q' (Function.update pending s.user
        ((pending s.user).remove (rs.map MutationBatchResult.batch))) := by
  have hpart : rs.map MutationBatchResult.batch <:+: (pending s.user).batches := by
    refine ⟨[], rest ++ (pending s.user).unacknowledged, ?_⟩
    rw [List.nil_append, ← List.append_assoc, ← hacked, ← Pending.batches_eq]
  obtain ⟨q', hq', huser, hall⟩ := h.removeMutationBatches (by simpa using hne) hpart
  refine ⟨q', ?_, huser, hall⟩
  rw [releaseBatchResults, foldlM_applyBatchResult hnamed, Option.bind_eq_bind, Option.bind_some,
    removeMutationBatches, hq', Option.map_some]

/-- The results `rs` went from the queue of the user into the cache: what was pending as `p`
is pending as `p'`, and the rest of the store is as in `s`. -/
structure Releases (s : LocalStore κ Q) (p : Pending κ) (rs : List (MutationBatchResult κ))
    (s' : LocalStore κ Q) (p' : Pending κ) : Prop where
  cache : ∀ key, s'.remoteDocumentCache key = releasedAll rs key (s.remoteDocumentCache key)
  remove : p' = p.remove (rs.map MutationBatchResult.batch)
  acknowledged : p.acknowledgedBatches =
    rs.map MutationBatchResult.batch ++ s'.heldBatchResults.map MutationBatchResult.batch
  version : s'.lastRemoteSnapshotVersion = s.lastRemoteSnapshotVersion
  targets : s'.targetIDs = s.targetIDs

omit [MutationQueue κ Q] [UserQueues υ Q] [LawfulUserQueues κ υ Q] [DecidableEq υ] in
theorem Releases.unacknowledged {p p' : Pending κ} {rs : List (MutationBatchResult κ)}
    (h : Releases s p rs s' p') : p'.unacknowledged = p.unacknowledged := by
  rw [h.remove]
  exact (Pending.remove_acknowledged h.acknowledged).2.2

omit [MutationQueue κ Q] [UserQueues υ Q] [LawfulUserQueues κ υ Q] [DecidableEq υ] in
theorem Releases.nextBatchID {p p' : Pending κ} {rs : List (MutationBatchResult κ)}
    (h : Releases s p rs s' p') : p'.nextBatchID = p.nextBatchID := by
  rw [h.remove, Pending.remove_nextBatchID]

omit [MutationQueue κ Q] [UserQueues υ Q] [LawfulUserQueues κ υ Q] [DecidableEq υ] in
/-- The documents that the released batches do not write look as before. -/
theorem Releases.view_of_notMem {p p' : Pending κ} {rs : List (MutationBatchResult κ)}
    (h : Releases s p rs s' p') {key : κ}
    (hkey : key ∉ keysOf (rs.map MutationBatchResult.batch)) :
    p'.view key (s'.remoteDocumentCache key) = p.view key (s.remoteDocumentCache key) := by
  have hnot : ∀ r ∈ rs, key ∉ r.batch.keys := fun r hr hr' =>
    hkey (mem_keysOf.mpr ⟨r.batch, List.mem_map_of_mem hr, hr'⟩)
  have hcache : releasedAll rs key (s.remoteDocumentCache key) = s.remoteDocumentCache key :=
    List.foldlRecOn rs _ (motive := fun doc => doc = s.remoteDocumentCache key) rfl
      fun doc hdoc r hr => (released_of_notMem (hnot r hr) doc).trans hdoc
  have hbatches : (rs.map MutationBatchResult.batch).foldl
      (fun doc batch => batch.applyTo doc key none) (s.remoteDocumentCache key) =
        s.remoteDocumentCache key := by
    refine List.foldlRecOn _ _ (motive := fun doc => doc = s.remoteDocumentCache key) rfl
      fun doc hdoc batch hbatch => ?_
    obtain ⟨r, hr, rfl⟩ := List.mem_map.mp hbatch
    exact (r.batch.applyTo_of_notMem_keys doc none (hnot r hr)).trans hdoc
  rw [h.cache, hcache, Pending.view, Pending.view, h.remove,
    (Pending.remove_acknowledged h.acknowledged).1, p.batches_eq, h.acknowledged, List.append_assoc,
    List.foldl_append (l := rs.map MutationBatchResult.batch), hbatches]

/-- **What the watch stream has caught up with is released**, and nothing else. -/
theorem releaseHeldBatchResults_spec (h : s.Consistent pending) :
    ∃ rs s' p', s.releaseHeldBatchResults = some (keysOf (rs.map MutationBatchResult.batch), s') ∧
      s'.user = s.user ∧ s'.Valid (Function.update pending s.user p') ∧
      Releases s (pending s.user) rs s' p' ∧
      rs ++ s'.heldBatchResults = s.heldBatchResults := by
  set upTo : MutationBatchResult κ → Bool := fun r => s.isRemoteUpToVersion r.commitVersion with hupTo
  have hsplit : s.heldBatchResults.takeWhile upTo ++ s.heldBatchResults.dropWhile upTo =
      s.heldBatchResults := List.takeWhile_append_dropWhile
  have hrest : ∀ r ∈ (s.heldBatchResults.dropWhile upTo).head?, upTo r = false := by
    intro r hr
    have := List.head?_dropWhile_not upTo s.heldBatchResults
    rw [Option.mem_def.mp hr] at this
    simpa using this
  cases htake : s.heldBatchResults.takeWhile upTo with
  | nil =>
      rw [htake, List.nil_append] at hsplit
      refine ⟨[], s, pending s.user, ?_, rfl, ?_, ?_, rfl⟩
      · rw [releaseHeldBatchResults, ← hupTo, htake]
        rfl
      · rw [Function.update_eq_self]
        exact { h with behind := by rwa [hsplit] at hrest }
      · exact {
          cache := fun _ => rfl
          remove := (Pending.remove_nil _).symm
          acknowledged := by rw [h.held]; rfl
          version := rfl
          targets := rfl }
  | cons r rs =>
      rw [htake] at hsplit
      have hdrop : s.heldBatchResults.drop (r :: rs).length = s.heldBatchResults.dropWhile upTo := by
        conv_lhs => rw [← hsplit]
        exact List.drop_left
      have hacked : (pending s.user).acknowledgedBatches =
          (r :: rs).map MutationBatchResult.batch ++
            (s.heldBatchResults.dropWhile upTo).map MutationBatchResult.batch := by
        rw [h.held, ← List.map_append, hsplit]
      have hnamed : ∀ r' ∈ r :: rs, Named r' := fun r' hr' =>
        h.named r' (hsplit ▸ List.mem_append_left _ hr')
      let s₀ : LocalStore κ Q :=
        { s with heldBatchResults := s.heldBatchResults.dropWhile upTo }
      have hqueues₀ : RepresentsAll s₀.mutationQueue pending := h.queues
      obtain ⟨q', hrelease, huser, hqueues⟩ := releaseBatchResults_spec hqueues₀
        (List.cons_ne_nil r rs) hnamed hacked
      let s₁ : LocalStore κ Q := { s₀ with
        mutationQueue := q'
        remoteDocumentCache := fun key => releasedAll (r :: rs) key (s.remoteDocumentCache key) }
      have hconsistent : s₁.Consistent (Function.update pending s.user
          ((pending s.user).remove ((r :: rs).map MutationBatchResult.batch))) :=
        h.update huser hqueues ((h.current s.user).remove_acknowledged hacked)
          (Pending.remove_acknowledged hacked).2.1 fun r' hr' =>
            h.named r' (hsplit ▸ List.mem_append_right _ hr')
      refine ⟨r :: rs, s₁, _, ?_, huser, { hconsistent with behind := hrest }, ?_, hsplit⟩
      · rw [releaseHeldBatchResults, ← hupTo, htake, hdrop]
        exact hrelease
      · exact {
          cache := fun _ => rfl
          remove := rfl
          acknowledged := hacked
          version := rfl
          targets := rfl }

/-! ## What each operation does -/

omit [MutationQueue κ Q] [UserQueues υ Q] [LawfulUserQueues κ υ Q] [DecidableEq υ] in
theorem view_add (p : Pending κ) {mutations : List (Mutation κ)} (hne : mutations ≠ []) (key : κ)
    (doc : Option MaybeDocument) :
    (p.add mutations hne).view key doc = (p.nextBatch mutations).applyTo (p.view key doc) key none := by
  rw [Pending.view, Pending.add_batches, List.foldl_append]
  rfl

/-- A request of the app joins the queue, at the end. -/
theorem locallyWriteMutations_spec (h : s.Valid pending) {mutations : List (Mutation κ)}
    (hne : mutations ≠ []) :
    ∃ changes s', s.locallyWriteMutations mutations =
        some (((pending s.user).nextBatchID, changes), s') ∧ s'.user = s.user ∧
      s'.Valid (Function.update pending s.user ((pending s.user).add mutations hne)) ∧
      s'.remoteDocumentCache = s.remoteDocumentCache ∧
      s'.heldBatchResults = s.heldBatchResults ∧ Reports s s' changes := by
  obtain ⟨q', hq', huser, hqueues⟩ := h.queues.addMutationBatch hne
  let s' : LocalStore κ Q := { s with mutationQueue := q' }
  have hconsistent : s'.Consistent
      (Function.update pending s.user ((pending s.user).add mutations hne)) :=
    h.update huser hqueues ((h.current s.user).add hne)
      (by rw [Pending.acknowledgedBatches_add, h.held]) h.named
  obtain ⟨changes, hchanges, hreports⟩ := h.reports hconsistent
    ((pending s.user).nextBatch mutations).keys fun key hkey => by
      have huser' : s'.user = s.user := huser
      rw [huser', Function.update_self, view_add]
      exact MutationBatch.applyTo_of_notMem_keys _ _ none hkey
  refine ⟨changes, s', ?_, huser, { hconsistent with behind := h.behind }, rfl, rfl, hreports⟩
  simp only [locallyWriteMutations, hq', Option.bind_eq_bind, Option.bind_some]
  exact Option.bind_eq_some_iff.mpr ⟨changes, hchanges, rfl⟩

/-- **The oldest unacknowledged batch is acknowledged**: its result is held, behind those held
before, or released at once. -/
theorem acknowledgeBatchWithResult_spec (h : s.Valid pending) {r : MutationBatchResult κ}
    {rest : List (MutationBatch κ)}
    (hunack : (pending s.user).unacknowledged = r.batch :: rest) (hr : Named r) :
    ∃ hb changes rs s' p', s.acknowledgeBatchWithResult r = some (changes, s') ∧
      s'.user = s.user ∧ s'.Valid (Function.update pending s.user p') ∧
      Releases s ((pending s.user).acknowledge r.batch.batchID hb) rs s' p' ∧
      rs ++ s'.heldBatchResults = s.heldBatchResults ++ [r] ∧ Reports s s' changes := by
  have hmem : r.batch ∈ (pending s.user).unacknowledged := hunack ▸ List.mem_cons_self
  obtain ⟨hbatches, hlt⟩ := Pending.mem_unacknowledged.mp hmem
  obtain ⟨q₁, hq₁, huser₁, hqueues₁⟩ := h.queues.acknowledgeBatch hbatches hlt
  have hb := ((pending s.user).bounded r.batch hbatches).2
  obtain ⟨hacked, -⟩ := Pending.acknowledge_eq hunack hb
  rw [h.held] at hacked
  have hcurrent := Pending.current_acknowledge hunack hb
  let s₁ : LocalStore κ Q := { s with mutationQueue := q₁ }
  have huser₁ : s₁.user = s.user := huser₁
  cases hhold : s₁.shouldHoldBatchResultWithVersion r.commitVersion with
  | true =>
      let s₂ : LocalStore κ Q := { s₁ with heldBatchResults := s.heldBatchResults ++ [r] }
      have hconsistent : s₂.Consistent (Function.update pending s.user
          ((pending s.user).acknowledge r.batch.batchID hb)) :=
        h.update huser₁ hqueues₁ hcurrent (by rw [hacked, List.map_append]; rfl) fun r' hr' =>
          (List.mem_append.mp hr').elim (h.named r') fun hlast => List.mem_singleton.mp hlast ▸ hr
      have hbehind : ∀ r' ∈ s₂.heldBatchResults.head?,
          s₂.isRemoteUpToVersion r'.commitVersion = false := by
        intro r' hr'
        cases hheld : s.heldBatchResults with
        | nil =>
            have hhead : s₂.heldBatchResults.head? = some r := by
              change (s.heldBatchResults ++ [r]).head? = some r
              rw [hheld]
              rfl
            rw [hhead, Option.mem_some_iff] at hr'
            have hempty : s₁.heldBatchResults = [] := hheld
            rw [shouldHoldBatchResultWithVersion, hempty, List.isEmpty_nil, Bool.not_true,
              Bool.or_false, Bool.not_eq_true'] at hhold
            rw [← hr']
            exact hhold
        | cons r₀ held =>
            have hhead : s₂.heldBatchResults.head? = some r₀ := by
              change (s.heldBatchResults ++ [r]).head? = some r₀
              rw [hheld]
              rfl
            rw [hhead, Option.mem_some_iff] at hr'
            rw [← hr']
            exact h.behind r₀ (by rw [hheld]; rfl)
      obtain ⟨changes, hchanges, hreports⟩ := h.reports hconsistent ∅ fun key _ => by
        have huser₂ : s₂.user = s.user := huser₁
        rw [huser₂, Function.update_self]
        rfl
      refine ⟨hb, changes, [], s₂, _, ?_, huser₁, { hconsistent with behind := hbehind }, ?_, rfl,
        hreports⟩
      · simp only [acknowledgeBatchWithResult, hq₁, Option.bind_eq_bind, Option.bind_some]
        rw [if_pos hhold, performConsistencyCheck_spec hqueues₁.current, Option.bind_some]
        exact Option.bind_eq_some_iff.mpr ⟨changes, hchanges, rfl⟩
      · exact {
          cache := fun _ => rfl
          remove := (Pending.remove_nil _).symm
          acknowledged := by rw [hacked, List.map_nil, List.nil_append, List.map_append]; rfl
          version := rfl
          targets := rfl }
  | false =>
      have hempty : s.heldBatchResults = [] := by
        rw [shouldHoldBatchResultWithVersion, Bool.or_eq_false_iff] at hhold
        simpa using hhold.2
      rw [hempty, List.map_nil, List.nil_append] at hacked
      set p₁ := (pending s.user).acknowledge r.batch.batchID hb with hp₁
      have hpending₁ : Function.update pending s.user p₁ s₁.user = p₁ := by
        rw [huser₁, Function.update_self]
      have hacked₁ : (Function.update pending s.user p₁ s₁.user).acknowledgedBatches =
          [r].map MutationBatchResult.batch ++ [] := by rw [hpending₁, hacked]; rfl
      have hqueues₁ : RepresentsAll s₁.mutationQueue (Function.update pending s.user p₁) := hqueues₁
      obtain ⟨q₂, hrelease, huser₂, hqueues₂⟩ := releaseBatchResults_spec hqueues₁
        (List.cons_ne_nil r []) (List.forall_mem_singleton.mpr hr) hacked₁
      rw [hpending₁, huser₁, Function.update_idem] at hqueues₂
      let s₂ : LocalStore κ Q := { s₁ with
        mutationQueue := q₂
        remoteDocumentCache := fun key => releasedAll [r] key (s.remoteDocumentCache key) }
      have huser₂ : s₂.user = s.user := huser₂.trans huser₁
      have hacked₂ : p₁.acknowledgedBatches = [r].map MutationBatchResult.batch ++ [] := hacked
      have hrest := (Pending.remove_acknowledged hacked₂).2.1
      have hheld₂ : s₂.heldBatchResults = [] := hempty
      have hconsistent : s₂.Consistent (Function.update pending s.user
          (p₁.remove ([r].map MutationBatchResult.batch))) :=
        h.update huser₂ hqueues₂ (hcurrent.remove_acknowledged hacked₂) (by rw [hrest, hheld₂]; rfl)
          (by rw [hheld₂]; exact fun _ hr' => absurd hr' List.not_mem_nil)
      have hreleases : Releases s p₁ [r] s₂ (p₁.remove ([r].map MutationBatchResult.batch)) := {
        cache := fun _ => rfl
        remove := rfl
        acknowledged := by rw [hheld₂]; exact hacked₂
        version := rfl
        targets := rfl }
      obtain ⟨changes, hchanges, hreports⟩ := h.reports hconsistent
        (keysOf ([r].map MutationBatchResult.batch)) fun key hkey => by
          rw [huser₂, Function.update_self, hreleases.view_of_notMem hkey]
          rfl
      refine ⟨hb, changes, [r], s₂, _, ?_, huser₂, { hconsistent with behind := ?_ }, hreleases,
        by rw [hheld₂]; rfl, hreports⟩
      · simp only [acknowledgeBatchWithResult, hq₁, Option.bind_eq_bind, Option.bind_some]
        rw [if_neg (by rw [hhold]; exact Bool.false_ne_true), hrelease, Option.bind_some]
        refine Option.bind_eq_some_iff.mpr
          ⟨(), performConsistencyCheck_spec hqueues₂.current, ?_⟩
        exact Option.bind_eq_some_iff.mpr ⟨changes, hchanges, rfl⟩
      · rw [hheld₂]
        simp

/-- **An unacknowledged batch is rejected**, and is gone. -/
theorem rejectBatchID_spec (h : s.Valid pending) {batch : MutationBatch κ}
    {pre rest : List (MutationBatch κ)}
    (hunack : (pending s.user).unacknowledged = pre ++ batch :: rest) :
    ∃ changes s', s.rejectBatchID batch.batchID = some (changes, s') ∧ s'.user = s.user ∧
      s'.Valid (Function.update pending s.user ((pending s.user).remove [batch])) ∧
      s'.remoteDocumentCache = s.remoteDocumentCache ∧
      s'.heldBatchResults = s.heldBatchResults ∧ Reports s s' changes := by
  have hmem : batch ∈ (pending s.user).unacknowledged :=
    hunack ▸ List.mem_append_right pre List.mem_cons_self
  obtain ⟨hbatches, hlt⟩ := Pending.mem_unacknowledged.mp hmem
  obtain ⟨hremove, hacked, -⟩ := Pending.remove_unacknowledged hunack
  have hpart : [batch] <:+: (pending s.user).batches := by
    obtain ⟨front, back, hsplit⟩ := List.append_of_mem hbatches
    exact ⟨front, back, by rw [hsplit, List.append_assoc]; rfl⟩
  obtain ⟨q', hq', huser, hqueues⟩ := h.queues.removeMutationBatches (List.cons_ne_nil batch []) hpart
  let s' : LocalStore κ Q := { s with mutationQueue := q' }
  have huser : s'.user = s.user := huser
  have hconsistent : s'.Consistent
      (Function.update pending s.user ((pending s.user).remove [batch])) :=
    h.update huser hqueues ((h.current s.user).remove_unacknowledged hunack)
      (by rw [hacked, h.held]) h.named
  obtain ⟨changes, hchanges, hreports⟩ := h.reports hconsistent (keysOf [batch]) fun key hkey => by
    have hnot : key ∉ batch.keys := fun hb => hkey (mem_keysOf.mpr ⟨batch, List.mem_singleton_self _, hb⟩)
    rw [huser, Function.update_self, Pending.view, Pending.view, hremove, Pending.batches_eq, hunack]
    simp only [List.foldl_append, List.foldl_cons, batch.applyTo_of_notMem_keys _ none hnot]
    rfl
  refine ⟨changes, s', ?_, huser, { hconsistent with behind := h.behind }, rfl, rfl, hreports⟩
  have hfind : ((pending s.user).batches.find? fun b => b.batchID = batch.batchID) = some batch :=
    (pending s.user).increasing.find?_eq_some_iff.mpr ⟨hbatches, rfl⟩
  have hlookup : (MutationQueue.lookupMutationBatch s.mutationQueue batch.batchID).join = some batch :=
    congrArg Option.join
      ((lookupMutationBatch_spec batch.batchID h.queues.current).trans (congrArg some hfind))
  have hguard : MutationQueue.highestAcknowledgedBatchID s.mutationQueue < batch.batchID := by
    rw [highestAcknowledgedBatchID_spec h.queues.current]
    exact hlt
  simp only [rejectBatchID, hlookup, hguard, guard, if_true, removeMutationBatches, hq',
    Option.map_some, Option.bind_eq_bind, Option.bind_some, Option.pure_def]
  refine Option.bind_eq_some_iff.mpr ⟨(), performConsistencyCheck_spec hqueues.current, ?_⟩
  exact Option.bind_eq_some_iff.mpr ⟨changes, hchanges, rfl⟩

/-! ### The watch stream -/

/-- The cached document after an update of the watch stream. -/
def delivered (update : Option MaybeDocument) (existingDoc : Option MaybeDocument) :
    Option MaybeDocument :=
  match update with
  | none => existingDoc
  | some doc => if isNewer doc existingDoc then some doc else existingDoc

omit [MutationQueue κ Q] [UserQueues υ Q] [LawfulUserQueues κ υ Q] [DecidableEq υ] in
/-- The updates of a remote event, document by document. -/
theorem foldl_delivered (updates : SortedMap κ MaybeDocument) (cache : κ → Option MaybeDocument) :
    (updates.entries.foldl (fun (cache : κ → Option MaybeDocument) kv =>
      if isNewer kv.2 (cache kv.1) then Function.update cache kv.1 (some kv.2) else cache) cache) =
      fun key => delivered (updates.lookup key) (cache key) := by
  have hfold : ∀ entries : List (κ × MaybeDocument), Increasing Prod.fst entries →
      ∀ cache : κ → Option MaybeDocument, (entries.foldl (fun (cache : κ → Option MaybeDocument) kv =>
        if isNewer kv.2 (cache kv.1) then Function.update cache kv.1 (some kv.2) else cache) cache) =
      fun key => delivered ((entries.find? fun kv => kv.1 = key).map Prod.snd) (cache key) := by
    intro entries hentries
    induction entries with
    | nil => intro cache; rfl
    | cons kv entries ih =>
        intro cache
        obtain ⟨hhead, htail⟩ := Increasing.cons_iff.mp hentries
        rw [List.foldl_cons, ih htail]
        funext key
        by_cases hkey : kv.1 = key
        · subst hkey
          have hnone : (entries.find? fun e => e.1 = kv.1) = none := by
            rw [List.find?_eq_none]
            intro e he
            simpa using (hhead e he).ne'
          rw [hnone, List.find?_cons_of_pos (by simp)]
          by_cases hnewer : isNewer kv.2 (cache kv.1) = true <;> simp [hnewer, delivered]
        · rw [List.find?_cons_of_neg (by simpa using hkey)]
          have hother : (if isNewer kv.2 (cache kv.1) then Function.update cache kv.1 (some kv.2)
              else cache) key = cache key := by
            split
            · exact Function.update_of_ne (Ne.symm hkey) ..
            · rfl
          rw [hother]
  exact hfold updates.entries updates.increasing cache

/-- The store with the documents and the version of a remote event in its cache. -/
def deliver (s : LocalStore κ Q) (snapshotVersion : SnapshotVersion)
    (documentUpdates : SortedMap κ MaybeDocument) : LocalStore κ Q where
  mutationQueue := s.mutationQueue
  remoteDocumentCache key := delivered (documentUpdates.lookup key) (s.remoteDocumentCache key)
  lastRemoteSnapshotVersion :=
    if snapshotVersion = .noVersion then s.lastRemoteSnapshotVersion else snapshotVersion
  targetIDs := s.targetIDs
  heldBatchResults := s.heldBatchResults

/-- **A remote event**: what it has caught up with is released over the documents it
delivers. -/
theorem applyRemoteEvent_spec (h : s.Valid pending) {snapshotVersion : SnapshotVersion}
    (hversion : snapshotVersion = .noVersion ∨ s.lastRemoteSnapshotVersion ≤ snapshotVersion)
    (documentUpdates : SortedMap κ MaybeDocument) :
    ∃ changes rs s' p', s.applyRemoteEvent snapshotVersion documentUpdates = some (changes, s') ∧
      s'.user = s.user ∧ s'.Valid (Function.update pending s.user p') ∧
      Releases (s.deliver snapshotVersion documentUpdates) (pending s.user) rs s' p' ∧
      rs ++ s'.heldBatchResults = s.heldBatchResults ∧ Reports s s' changes := by
  have hdeliver : (s.deliver snapshotVersion documentUpdates).Consistent pending :=
    ⟨h.queues, h.current, h.held, h.named⟩
  obtain ⟨rs, s', p', hrelease, huser, hvalid, hreleases, hheld⟩ :=
    releaseHeldBatchResults_spec hdeliver
  have huser : s'.user = s.user := huser
  have hvalid : s'.Valid (Function.update pending s.user p') := hvalid
  obtain ⟨changes, hchanges, hreports⟩ := h.reports hvalid.toConsistent
    ((documentUpdates.entries.map Prod.fst).toFinset ∪ keysOf (rs.map MutationBatchResult.batch))
    fun key hkey => by
      obtain ⟨hupdates, hkeys⟩ := not_or.mp fun hmem => hkey (Finset.mem_union.mpr hmem)
      have hlookup : documentUpdates.lookup key = none :=
        SortedMap.lookup_eq_none_iff.mpr fun kv hkv heq =>
          hupdates (List.mem_toFinset.mpr (List.mem_map.mpr ⟨kv, hkv, heq⟩))
      have hcache : (s.deliver snapshotVersion documentUpdates).remoteDocumentCache key =
          s.remoteDocumentCache key := by
        change delivered (documentUpdates.lookup key) _ = _
        rw [hlookup]
        rfl
      rw [huser, Function.update_self, hreleases.view_of_notMem hkeys, hcache]
      rfl
  refine ⟨changes, rs, s', p', ?_, huser, hvalid, hreleases, hheld, hreports⟩
  have hrelease' := hrelease
  rw [deliver, ← foldl_delivered] at hrelease'
  simp only [applyRemoteEvent, hversion, guard, if_true, Option.bind_eq_bind, Option.bind_some,
    Option.pure_def, hrelease']
  exact Option.bind_eq_some_iff.mpr ⟨changes, hchanges, rfl⟩

omit [DecidableEq υ] in
theorem allocateQuery_spec (h : s.Valid pending) {targetID : ℤ} (htarget : targetID ∉ s.targetIDs) :
    s.allocateQuery targetID = some { s with targetIDs := targetID :: s.targetIDs } ∧
      ({ s with targetIDs := targetID :: s.targetIDs } : LocalStore κ Q).Valid pending := by
  refine ⟨if_neg htarget, ⟨h.queues, h.current, h.held, h.named⟩, fun r hr => ?_⟩
  have hbehind := h.behind r hr
  rw [isRemoteUpToVersion, Bool.or_eq_false_iff] at hbehind
  rw [isRemoteUpToVersion, Bool.or_eq_false_iff]
  exact ⟨hbehind.1, rfl⟩

/-- The last target takes the held results with it. -/
theorem releaseQuery_spec (h : s.Valid pending) (targetID : ℤ) :
    ∃ rs s' p', s.releaseQuery targetID = some s' ∧ s'.user = s.user ∧
      s'.Valid (Function.update pending s.user p') ∧
      Releases { s with targetIDs := s.targetIDs.erase targetID } (pending s.user) rs s' p' ∧
      rs ++ s'.heldBatchResults = s.heldBatchResults := by
  let s₁ : LocalStore κ Q := { s with targetIDs := s.targetIDs.erase targetID }
  have hconsistent : s₁.Consistent pending := ⟨h.queues, h.current, h.held, h.named⟩
  cases hempty : s₁.targetIDs.isEmpty with
  | true =>
      obtain ⟨rs, s', p', hrelease, huser, hvalid, hreleases, hheld⟩ :=
        releaseHeldBatchResults_spec hconsistent
      refine ⟨rs, s', p', ?_, huser, hvalid, hreleases, hheld⟩
      rw [releaseQuery, if_pos hempty, hrelease, Option.map_some]
  | false =>
      refine ⟨[], s₁, pending s.user, ?_, rfl, ?_, ?_, rfl⟩
      · exact if_neg (by rw [hempty]; exact Bool.false_ne_true)
      · rw [Function.update_eq_self]
        refine { hconsistent with behind := fun r hr => ?_ }
        have hbehind := h.behind r hr
        rw [isRemoteUpToVersion, Bool.or_eq_false_iff] at hbehind
        rw [isRemoteUpToVersion, Bool.or_eq_false_iff]
        exact ⟨hbehind.1, hempty⟩
      · exact {
          cache := fun _ => rfl
          remove := (Pending.remove_nil _).symm
          acknowledged := by rw [h.held]; rfl
          version := rfl
          targets := rfl }

/-! ### The user changes -/

omit [MutationQueue κ Q] [UserQueues υ Q] [LawfulUserQueues κ υ Q] [DecidableEq υ] in
theorem view_of_notMem_keysOf {p : Pending κ} {key : κ} (h : key ∉ keysOf p.batches)
    (doc : Option MaybeDocument) : p.view key doc = doc :=
  List.foldlRecOn _ _ (motive := fun d => d = doc) rfl fun d hd batch hbatch =>
    (batch.applyTo_of_notMem_keys d none fun hkey => h (mem_keysOf.mpr ⟨batch, hbatch, hkey⟩)).trans hd

omit [LinearOrder κ] [MutationQueue κ Q] [UserQueues υ Q] [LawfulUserQueues κ υ Q] [DecidableEq υ] in
/-- A restart does not change what is acknowledged. -/
theorem acknowledgedBatches_of_start [DecidableEq κ] {p p' : Pending κ}
    (h : QueueCall.start.Answers p .done p') :
    p'.acknowledgedBatches = p.acknowledgedBatches ∧ p'.unacknowledged = p.unacknowledged := by
  obtain ⟨-, hbatches, hack | ⟨hempty, -⟩⟩ := h
  · rw [Pending.acknowledgedBatches, Pending.acknowledgedBatches, Pending.unacknowledged,
      Pending.unacknowledged, hbatches, hack]
    exact ⟨rfl, rfl⟩
  · rw [Pending.acknowledgedBatches, Pending.acknowledgedBatches, Pending.unacknowledged,
      Pending.unacknowledged, hbatches, hempty]
    exact ⟨rfl, rfl⟩

/-- **The start of the queue** leaves what is not acknowledged. -/
theorem startMutationQueue_spec {q : Q} {pending : υ → Pending κ}
    (hstart : MutationQueue.start s.mutationQueue = some q) (h : RepresentsAll q pending) :
    ∃ q' p', s.startMutationQueue = some { s with mutationQueue := q', heldBatchResults := [] } ∧
      LawfulUserQueues.user q' = LawfulUserQueues.user q ∧
      RepresentsAll q' (Function.update pending (LawfulUserQueues.user q) p') ∧
      p'.acknowledgedBatches = [] ∧
      p'.unacknowledged = (pending (LawfulUserQueues.user q)).unacknowledged := by
  set p := pending (LawfulUserQueues.user q) with hp
  have hunchanged : RepresentsAll q (Function.update pending (LawfulUserQueues.user q) p) := by
    rwa [hp, Function.update_eq_self]
  have hhighest : MutationQueue.highestAcknowledgedBatchID q = p.highestAcknowledgedBatchID :=
    highestAcknowledgedBatchID_spec h.current
  have hthrough : MutationQueue.allMutationBatchesThroughBatchID q p.highestAcknowledgedBatchID =
      p.acknowledgedBatches := allMutationBatchesThroughBatchID_spec _ h.current
  by_cases hunknown : p.highestAcknowledgedBatchID = batchIDUnknown
  · refine ⟨q, p, ?_, rfl, hunchanged, ?_, rfl⟩
    · simp only [startMutationQueue, hstart, hhighest, Option.bind_eq_bind, Option.bind_some]
      rw [if_neg (not_not.mpr hunknown)]
      rfl
    · refine List.filter_eq_nil_iff.mpr fun b hb => ?_
      have := (p.bounded b hb).1
      rw [hunknown, batchIDUnknown]
      simp only [decide_eq_true_eq, not_le]
      omega
  · by_cases hempty : p.acknowledgedBatches = []
    · refine ⟨q, p, ?_, rfl, hunchanged, hempty, rfl⟩
      simp only [startMutationQueue, hstart, hhighest, hthrough, Option.bind_eq_bind,
        Option.bind_some]
      rw [if_pos hunknown, if_neg (by simp [hempty])]
      rfl
    · have hpart : p.acknowledgedBatches <:+: p.batches :=
        ⟨[], p.unacknowledged, by rw [List.nil_append, ← Pending.batches_eq]⟩
      obtain ⟨q', hq', huser, hqueues⟩ := h.removeMutationBatches hempty hpart
      obtain ⟨-, hacked, hunack⟩ := Pending.remove_acknowledged (List.append_nil p.acknowledgedBatches).symm
      refine ⟨q', p.remove p.acknowledgedBatches, ?_, huser, hqueues, hacked, hunack⟩
      simp only [startMutationQueue, hstart, hhighest, hthrough, Option.bind_eq_bind,
        Option.bind_some]
      rw [if_pos hunknown, if_pos (List.length_pos_iff.mpr hempty), hq']
      rfl

/-- **The queue of a user is started**: what he has not had acknowledged is in the queue again,
and nothing is held. -/
theorem restart_spec {q : Q} (hqueues : RepresentsAll q pending)
    (hcurrent : ∀ v, (pending v).Current) {u : υ}
    (hqueue : s.mutationQueue = UserQueues.mutationQueueForUser q u) :
    ∃ q' p', s.startMutationQueue = some { s with mutationQueue := q', heldBatchResults := [] } ∧
      LawfulUserQueues.user q' = u ∧
      ({ s with mutationQueue := q', heldBatchResults := [] } : LocalStore κ Q).Valid
        (Function.update pending u p') ∧
      p'.unacknowledged = (pending u).unacknowledged ∧ p'.acknowledgedBatches = [] := by
  obtain ⟨q₁, p₁, hstart, rfl, hanswers, hqueues₁⟩ := hqueues.userDidChange (hcurrent u).startable
  rw [← hqueue] at hstart
  obtain ⟨q₂, p₂, hrun, huser₂, hqueues₂, hacked₂, hunack₂⟩ :=
    startMutationQueue_spec hstart hqueues₁
  rw [Function.update_self] at hunack₂
  rw [Function.update_idem] at hqueues₂
  refine ⟨q₂, p₂, hrun, huser₂, ⟨⟨hqueues₂, fun v => ?_, ?_, ?_⟩, ?_⟩,
    hunack₂.trans (acknowledgedBatches_of_start hanswers).2, hacked₂⟩
  · by_cases hv : v = LawfulUserQueues.user q₁
    · rw [hv, Function.update_self]
      intro b hb
      rw [hacked₂] at hb
      cases hb
    · rw [Function.update_of_ne hv]
      exact hcurrent v
  · have huser : user ({ s with mutationQueue := q₂, heldBatchResults := [] } : LocalStore κ Q) =
        LawfulUserQueues.user q₁ := huser₂
    rw [huser, Function.update_self, hacked₂]
    rfl
  · exact fun _ hr => absurd hr List.not_mem_nil
  · simp

/-- **The user changes.**  The changes reported are those of the old and the new queue. -/
theorem userDidChange_spec (h : s.Valid pending) (u : υ) :
    ∃ changes s' p', s.userDidChange u = some (changes, s') ∧ s'.user = u ∧
      s'.Valid (Function.update pending u p') ∧
      p'.unacknowledged = (pending u).unacknowledged ∧ p'.acknowledgedBatches = [] ∧
      s'.remoteDocumentCache = s.remoteDocumentCache ∧ s'.heldBatchResults = [] ∧
      Reports s s' changes := by
  let s₁ : LocalStore κ Q :=
    { s with mutationQueue := UserQueues.mutationQueueForUser s.mutationQueue u }
  obtain ⟨q', p', hstart, huser, hvalid, hunack, hacked⟩ :=
    restart_spec (s := s₁) h.queues h.current rfl
  let s' : LocalStore κ Q := { s₁ with mutationQueue := q', heldBatchResults := [] }
  have hold := allMutationBatches_spec h.queues.current
  have hnew := allMutationBatches_spec hvalid.queues.current
  obtain ⟨changes, hchanges, hreports⟩ := h.reports hvalid.toConsistent
    (keysOf (MutationQueue.allMutationBatches s.mutationQueue) ∪
      keysOf (MutationQueue.allMutationBatches s'.mutationQueue)) fun key hkey => by
      obtain ⟨hkey, hkey'⟩ := not_or.mp fun hmem => hkey (Finset.mem_union.mpr hmem)
      rw [hold] at hkey
      rw [hnew] at hkey'
      exact (view_of_notMem_keysOf hkey' _).trans (view_of_notMem_keysOf hkey _).symm
  refine ⟨changes, s', p', ?_, huser, hvalid, hunack, hacked, rfl, rfl, hreports⟩
  have hstart' : s₁.startMutationQueue = some s' := hstart
  simp only [userDidChange, Option.bind_eq_bind]
  exact Option.bind_eq_some_iff.mpr
    ⟨s', hstart', Option.bind_eq_some_iff.mpr ⟨changes, hchanges, rfl⟩⟩

/-- **A new process** finds every batch that was not acknowledged. -/
theorem launch_spec (h : s.Valid pending) (u : υ) :
    ∃ s' p', s.launch u = some s' ∧ s'.user = u ∧ s'.Valid (Function.update pending u p') ∧
      p'.unacknowledged = (pending u).unacknowledged ∧ p'.acknowledgedBatches = [] ∧
      s'.remoteDocumentCache = s.remoteDocumentCache ∧ s'.heldBatchResults = [] := by
  obtain ⟨q', p', hstart, huser, hvalid, hunack, hacked⟩ := restart_spec
    (s := { s with
      mutationQueue := UserQueues.mutationQueueForUser s.mutationQueue u
      targetIDs := []
      heldBatchResults := [] }) h.queues h.current rfl
  exact ⟨_, p', hstart, huser, hvalid, hunack, hacked, rfl, rfl⟩

end LocalStore

end CocoMap
