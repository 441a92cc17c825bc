import CocoMap.LocalStore

/-!
# Views

`FSTView` keeps what a query shows.  It begins with the result of the query, and is then told
which documents have changed; from these it works out the documents it shows, what has
changed for its listeners, and whether the server is known to agree (`syncState`).

The queries of the app are all for one document, named by its path, so a query is its path
here.  A view of such a query shows one document or none (`View.Shows`), and each of its
operations has a spec lemma in these terms.

Limits and the refill they need, the order of the changes of a snapshot, and the listens that
resolve limbo documents are left out.
-/

namespace CocoMap

instance : Fintype Field :=
  ⟨{.email, .name, .uid, .lat, .lon, .partner}, fun field => by cases field <;> decide⟩

/-- `FSTDocument`: a document that exists. -/
structure ExistingDocument where
  data : Document
  version : SnapshotVersion
  hasLocalMutations : Bool
deriving DecidableEq

/-- `isKindOfClass:[FSTDocument class]` -/
def MaybeDocument.asDocument : MaybeDocument → Option ExistingDocument
  | .document data version hasLocalMutations => some ⟨data, version, hasLocalMutations⟩
  | .deletedDocument _ => none

/-- `FSTSyncState` -/
inductive SyncState
  | none | localOnly | synced
deriving DecidableEq

/-- `FSTOnlineState` -/
inductive OnlineState
  | unknown | online | offline
deriving DecidableEq

/-- `FSTDocumentViewChangeType` -/
inductive ViewChangeType
  | removed | added | modified | metadata
deriving DecidableEq

/-- `FSTTargetMapping`: the documents of a target, or how they change. -/
inductive TargetMapping (κ : Type)
  | reset (documents : Finset κ)
  | update (addedDocuments removedDocuments : Finset κ)

/-- `FSTCurrentStatusUpdate` -/
inductive CurrentStatusUpdate
  | none | markNotCurrent | markCurrent
deriving DecidableEq

/-- `FSTTargetChange`, without its resume token. -/
structure TargetChange (κ : Type) where
  mapping : TargetMapping κ
  currentStatusUpdate : CurrentStatusUpdate

/-- `FSTViewSnapshot` -/
structure ViewSnapshot (κ : Type) [LinearOrder κ] where
  query : κ
  documents : SortedMap κ ExistingDocument
  documentChanges : List (κ × ViewChangeType)
  fromCache : Bool
  hasPendingWrites : Bool
  syncStateChanged : Bool

/-- `FSTViewDocumentChanges` -/
structure ViewDocumentChanges (κ : Type) [LinearOrder κ] where
  documentSet : SortedMap κ ExistingDocument
  changeSet : List (κ × ViewChangeType)
  mutatedKeys : Finset κ

/-- `FSTView` -/
structure View (κ : Type) [LinearOrder κ] where
  query : κ
  syncState : SyncState
  /-- Has the server said that the view is up to date? -/
  current : Bool
  documentSet : SortedMap κ ExistingDocument
  /-- Documents included in the remote target. -/
  syncedDocuments : Finset κ
  /-- Documents in the view but not in the remote target. -/
  limboDocuments : Finset κ
  /-- Documents that have local changes. -/
  mutatedKeys : Finset κ

variable {κ : Type} [LinearOrder κ]

/-- `applyTo:`, and a reset. -/
def TargetMapping.applyTo (keys : Finset κ) : TargetMapping κ → Finset κ
  | .reset documents => documents
  | .update addedDocuments removedDocuments => (keys ∪ addedDocuments) \ removedDocuments

namespace View

/-- `initWithQuery:remoteDocuments:` -/
def init (query : κ) (remoteDocuments : Finset κ) : View κ where
  query := query
  syncState := .none
  current := false
  documentSet := .empty
  syncedDocuments := remoteDocuments
  limboDocuments := ∅
  mutatedKeys := ∅

/-- `matchesDocument:` of a document query. -/
def matchesDocument (query key : κ) : Bool := key = query

/-- What has changed between two documents; a new version alone is no change. -/
def documentChange : Option ExistingDocument → Option ExistingDocument → Option ViewChangeType
  | some oldDoc, some newDoc =>
      if oldDoc.data ≠ newDoc.data then some .modified
      else if oldDoc.hasLocalMutations ≠ newDoc.hasLocalMutations then some .metadata
      else none
  | none, some _ => some .added
  | some _, none => some .removed
  | none, none => none

/-- The block of `computeChangesWithDocuments:`. -/
def computeChange (query : κ) (oldDocumentSet : SortedMap κ ExistingDocument)
    (changes : ViewDocumentChanges κ) (change : κ × MaybeDocument) : ViewDocumentChanges κ :=
  let key := change.1
  let newDoc := if matchesDocument query key then change.2.asDocument else none
  { documentSet := match newDoc with
      | some newDoc => changes.documentSet.insert key newDoc
      | none => changes.documentSet.erase key
    changeSet := changes.changeSet ++
      (documentChange (oldDocumentSet.lookup key) newDoc).toList.map fun type => (key, type)
    mutatedKeys := if newDoc.any ExistingDocument.hasLocalMutations then
        insert key changes.mutatedKeys
      else changes.mutatedKeys.erase key }

/-- `computeChangesWithDocuments:` -/
def computeChanges (v : View κ) (docChanges : Changes κ) : ViewDocumentChanges κ :=
  docChanges.foldl (computeChange v.query v.documentSet) ⟨v.documentSet, [], v.mutatedKeys⟩

def applyTargetChange (v : View κ) : Option (TargetChange κ) → View κ
  | none => v
  | some targetChange =>
      { v with
        syncedDocuments := targetChange.mapping.applyTo v.syncedDocuments
        current := match targetChange.currentStatusUpdate with
          | .markCurrent => true
          | .markNotCurrent => false
          | .none => v.current }

/-- A document of the view that the server does not know to be in it, and that has no local
changes which might explain this. -/
def shouldBeLimboDocumentKey (v : View κ) (key : κ) : Bool :=
  if key ∈ v.syncedDocuments then false
  else match v.documentSet.lookup key with
    | none => false
    | some doc => !doc.hasLocalMutations

/-- We can only determine limbo documents when we're in-sync with the server. -/
def updateLimboDocuments (v : View κ) : View κ :=
  if !v.current then v
  else { v with
    limboDocuments :=
      ((v.documentSet.entries.map Prod.fst).filter v.shouldBeLimboDocumentKey).toFinset }

def newSyncState (v : View κ) : SyncState :=
  if v.limboDocuments = ∅ ∧ v.current then .synced else .localOnly

/-- The first half of `applyChangesToDocuments:targetChange:` — the view with the changes. -/
def withChanges (v : View κ) (docChanges : ViewDocumentChanges κ)
    (targetChange : Option (TargetChange κ)) : View κ :=
  let v := ({ v with
    documentSet := docChanges.documentSet
    mutatedKeys := docChanges.mutatedKeys }.applyTargetChange targetChange).updateLimboDocuments
  { v with syncState := v.newSyncState }

/-- The second half — there is a snapshot if anything has changed. -/
def snapshot (v oldView : View κ) (changes : List (κ × ViewChangeType)) : Option (ViewSnapshot κ) :=
  let syncStateChanged : Bool := v.syncState ≠ oldView.syncState
  if changes = [] ∧ !syncStateChanged then none
  else some {
    query := v.query
    documents := v.documentSet
    documentChanges := changes
    fromCache := v.syncState = .localOnly
    hasPendingWrites := v.mutatedKeys ≠ ∅
    syncStateChanged }

def applyChangesToDocuments (v : View κ) (docChanges : ViewDocumentChanges κ)
    (targetChange : Option (TargetChange κ)) : View κ × Option (ViewSnapshot κ) :=
  let v' := v.withChanges docChanges targetChange
  (v', v'.snapshot v docChanges.changeSet)

/-- If we're offline, the view is not current any more. -/
def applyChangedOnlineState (v : View κ) (onlineState : OnlineState) :
    View κ × Option (ViewSnapshot κ) :=
  if v.current ∧ onlineState = .offline then
    { v with current := false }.applyChangesToDocuments ⟨v.documentSet, [], v.mutatedKeys⟩ none
  else (v, none)

/-! ## What a view shows -/

/-- The keys of the pending writes, if the document has one. -/
def pendingKeys (query : κ) (doc : Option ExistingDocument) : Finset κ :=
  if doc.any ExistingDocument.hasLocalMutations then {query} else ∅

/-- The view shows the document for its query, and nothing else. -/
structure Shows (v : View κ) (doc : Option ExistingDocument) : Prop where
  documentSet : v.documentSet = .single v.query doc
  mutatedKeys : v.mutatedKeys = pendingKeys v.query doc

theorem shows_init (query : κ) (remoteDocuments : Finset κ) :
    (init query remoteDocuments).Shows none := ⟨rfl, rfl⟩

theorem erase_pendingKeys {query key : κ} (h : key ≠ query) (doc : Option ExistingDocument) :
    (pendingKeys query doc).erase key = pendingKeys query doc := by
  refine Finset.erase_eq_of_notMem fun hkey => ?_
  unfold pendingKeys at hkey
  split at hkey
  · exact h (Finset.mem_singleton.mp hkey)
  · exact Finset.notMem_empty key hkey

/-- The changes when the document of the query is another one. -/
def changesTo (query : κ) (doc doc' : Option ExistingDocument) : ViewDocumentChanges κ where
  documentSet := .single query doc'
  changeSet := (documentChange doc doc').toList.map fun type => (query, type)
  mutatedKeys := pendingKeys query doc'

/-- Changes of other documents do not matter. -/
theorem computeChange_of_ne {query key : κ} (h : key ≠ query) (doc doc' : Option ExistingDocument)
    (maybeDoc : MaybeDocument) (changeSet : List (κ × ViewChangeType)) :
    computeChange query (.single query doc) ⟨.single query doc', changeSet, pendingKeys query doc'⟩
      (key, maybeDoc) = ⟨.single query doc', changeSet, pendingKeys query doc'⟩ := by
  have hmatches : matchesDocument query key = false := decide_eq_false h
  have hlookup : (SortedMap.single query doc).lookup key = none := by
    rw [SortedMap.lookup_single, if_neg h]
  rw [computeChange]
  simp only [hmatches, hlookup, Bool.false_eq_true, if_false, Option.any_none,
    SortedMap.erase_single_of_ne h, erase_pendingKeys h, documentChange, Option.toList_none,
    List.map_nil, List.append_nil]

theorem foldl_computeChange_of_notMem {query : κ} {docChanges : Changes κ}
    (h : ∀ change ∈ docChanges, change.1 ≠ query) (doc doc' : Option ExistingDocument)
    (changeSet : List (κ × ViewChangeType)) :
    docChanges.foldl (computeChange query (.single query doc))
      ⟨.single query doc', changeSet, pendingKeys query doc'⟩ =
        ⟨.single query doc', changeSet, pendingKeys query doc'⟩ := by
  induction docChanges with
  | nil => rfl
  | cons change docChanges ih =>
      rw [List.foldl_cons, computeChange_of_ne (h change List.mem_cons_self)]
      exact ih fun c hc => h c (List.mem_cons_of_mem change hc)

theorem computeChange_self (query : κ) (doc : Option ExistingDocument) (maybeDoc : MaybeDocument) :
    computeChange query (.single query doc) ⟨.single query doc, [], pendingKeys query doc⟩
      (query, maybeDoc) = changesTo query doc maybeDoc.asDocument := by
  have hmatches : matchesDocument query query = true := decide_eq_true rfl
  have hinsert : insert query (pendingKeys query doc) = {query} := by
    unfold pendingKeys
    split
    · exact Finset.insert_eq_of_mem (Finset.mem_singleton_self query)
    · rfl
  have herase : (pendingKeys query doc).erase query = ∅ := by
    unfold pendingKeys
    split
    · exact Finset.erase_singleton query
    · rfl
  rw [computeChange, changesTo]
  simp only [hmatches, if_true, SortedMap.lookup_single_self, List.nil_append]
  cases hdoc : maybeDoc.asDocument with
  | none =>
      rw [SortedMap.erase_single_self, herase]
      rfl
  | some newDoc =>
      dsimp only
      rw [SortedMap.insert_single, hinsert, herase]
      rfl

theorem documentChange_self (doc : Option ExistingDocument) : documentChange doc doc = none := by
  cases doc <;> simp [documentChange]

/-- **The incremental computation.**  Of the changed documents the view takes the one it is for. -/
theorem computeChanges_spec {v : View κ} {doc : Option ExistingDocument} (h : v.Shows doc)
    {docChanges : Changes κ} (hnodup : (docChanges.map Prod.fst).Nodup) :
    v.computeChanges docChanges = changesTo v.query doc
      ((docChanges.find? fun change => change.1 = v.query).elim doc fun change =>
        change.2.asDocument) := by
  rw [computeChanges, h.documentSet, h.mutatedKeys]
  cases hfind : docChanges.find? fun change => change.1 = v.query with
  | none =>
      have hnot : ∀ change ∈ docChanges, change.1 ≠ v.query := by
        simpa using List.find?_eq_none.mp hfind
      rw [foldl_computeChange_of_notMem hnot, Option.elim_none, changesTo, documentChange_self]
      rfl
  | some change =>
      obtain ⟨hkey, pre, post, rfl, hpre⟩ := List.find?_eq_some_iff_append.mp hfind
      have hkey : change.1 = v.query := of_decide_eq_true hkey
      have hpre : ∀ c ∈ pre, c.1 ≠ v.query := by simpa using hpre
      have hpost : ∀ c ∈ post, c.1 ≠ v.query := by
        intro c hc heq
        rw [List.map_append, List.map_cons] at hnodup
        refine (List.nodup_cons.mp (List.nodup_append.mp hnodup).2.1).1 ?_
        exact List.mem_map.mpr ⟨c, hc, heq.trans hkey.symm⟩
      obtain ⟨key, maybeDoc⟩ := change
      obtain rfl : key = v.query := hkey
      rw [List.foldl_append, foldl_computeChange_of_notMem hpre, List.foldl_cons,
        computeChange_self, changesTo, foldl_computeChange_of_notMem hpost, Option.elim_some]
      rfl

/-! ## Applying changes -/

/-- What a listener is told of a document. -/
def look (doc : Option ExistingDocument) : Option (Document × Bool) :=
  doc.map fun d => (d.data, d.hasLocalMutations)

theorem look_eq_of_documentChange_eq_none {doc doc' : Option ExistingDocument}
    (h : documentChange doc doc' = none) : look doc = look doc' := by
  rcases doc with - | doc <;> rcases doc' with - | doc'
  · rfl
  · cases h
  · cases h
  · simp only [documentChange] at h
    split at h
    · cases h
    · split at h
      · cases h
      · simp_all [look]

/-- The snapshot is one of what the view shows. -/
structure SnapshotOf (snapshot : ViewSnapshot κ) (v : View κ) (doc : Option ExistingDocument) :
    Prop where
  query : snapshot.query = v.query
  documents : ∃ d, snapshot.documents = .single v.query d ∧ look d = look doc
  fromCache : snapshot.fromCache = decide (v.syncState = .localOnly)

/-- The snapshot is worth an event. -/
def Loud (snapshot : ViewSnapshot κ) : Prop :=
  snapshot.documentChanges ≠ [] ∨ snapshot.syncStateChanged = true

instance : DecidablePred (Loud : ViewSnapshot κ → Prop) := fun snapshot =>
  inferInstanceAs (Decidable (snapshot.documentChanges ≠ [] ∨ snapshot.syncStateChanged = true))

/-- The limbo documents of a view that is current. -/
def limboKeys (v : View κ) (doc : Option ExistingDocument) : Finset κ :=
  if doc.any (fun d => !d.hasLocalMutations) ∧ v.query ∉ v.syncedDocuments then {v.query} else ∅

/-- A view whose changes have been applied. -/
structure Applied (v : View κ) (doc : Option ExistingDocument) : Prop extends Shows v doc where
  syncState : v.syncState = if v.limboDocuments = ∅ ∧ v.current then .synced else .localOnly
  limbo : v.current = true → v.limboDocuments = v.limboKeys doc

/-- **When the server agrees**: it has said so, and it knows the document that the view shows, or
there is none, or a pending write explains it. -/
theorem Applied.synced_iff {v : View κ} {doc : Option ExistingDocument} (h : v.Applied doc) :
    v.syncState = .synced ↔ v.current = true ∧
      (v.query ∈ v.syncedDocuments ∨ ∀ d ∈ doc, d.hasLocalMutations = true) := by
  have hlimbo : v.limboKeys doc = ∅ ↔
      v.query ∈ v.syncedDocuments ∨ ∀ d ∈ doc, d.hasLocalMutations = true := by
    unfold limboKeys
    cases doc with
    | none => simp
    | some d =>
        by_cases hsynced : v.query ∈ v.syncedDocuments <;> cases hmut : d.hasLocalMutations <;>
          simp [hsynced, hmut]
  rw [h.syncState]
  cases hcurrent : v.current with
  | false => simp
  | true =>
      rw [h.limbo hcurrent, ← hlimbo]
      by_cases hempty : v.limboKeys doc = ∅ <;> simp [hempty]

theorem Applied.syncState_ne_none {v : View κ} {doc : Option ExistingDocument} (h : v.Applied doc) :
    v.syncState ≠ .none := by
  rw [h.syncState]
  split <;> exact SyncState.noConfusion

section TargetChange

variable (v : View κ) (targetChange : Option (TargetChange κ))

@[simp] theorem query_applyTargetChange : (v.applyTargetChange targetChange).query = v.query := by
  cases targetChange <;> rfl

@[simp] theorem documentSet_applyTargetChange :
    (v.applyTargetChange targetChange).documentSet = v.documentSet := by
  cases targetChange <;> rfl

@[simp] theorem mutatedKeys_applyTargetChange :
    (v.applyTargetChange targetChange).mutatedKeys = v.mutatedKeys := by
  cases targetChange <;> rfl

@[simp] theorem query_updateLimboDocuments : v.updateLimboDocuments.query = v.query := by
  unfold updateLimboDocuments
  split <;> rfl

@[simp] theorem documentSet_updateLimboDocuments :
    v.updateLimboDocuments.documentSet = v.documentSet := by
  unfold updateLimboDocuments
  split <;> rfl

@[simp] theorem mutatedKeys_updateLimboDocuments :
    v.updateLimboDocuments.mutatedKeys = v.mutatedKeys := by
  unfold updateLimboDocuments
  split <;> rfl

@[simp] theorem current_updateLimboDocuments : v.updateLimboDocuments.current = v.current := by
  unfold updateLimboDocuments
  split <;> rfl

@[simp] theorem syncedDocuments_updateLimboDocuments :
    v.updateLimboDocuments.syncedDocuments = v.syncedDocuments := by
  unfold updateLimboDocuments
  split <;> rfl

end TargetChange

theorem Shows.limboDocuments {v : View κ} {doc : Option ExistingDocument} (h : v.Shows doc)
    (hcurrent : v.current = true) : v.updateLimboDocuments.limboDocuments = v.limboKeys doc := by
  rw [updateLimboDocuments, if_neg (by rw [hcurrent]; exact Bool.false_ne_true)]
  dsimp only
  rw [h.documentSet, SortedMap.keys_single, limboKeys]
  cases doc with
  | none => rfl
  | some d =>
      have hshould : v.shouldBeLimboDocumentKey v.query =
          (decide (v.query ∉ v.syncedDocuments) && !d.hasLocalMutations) := by
        rw [shouldBeLimboDocumentKey, h.documentSet, SortedMap.lookup_single_self]
        by_cases hsynced : v.query ∈ v.syncedDocuments <;> simp [hsynced]
      rw [Option.map_some, Option.toList_some, List.filter_singleton, hshould, Option.any_some]
      by_cases hsynced : v.query ∈ v.syncedDocuments <;> cases d.hasLocalMutations <;>
        simp [hsynced]

theorem withChanges_spec (v : View κ) (doc doc' : Option ExistingDocument)
    (targetChange : Option (TargetChange κ)) :
    (v.withChanges (changesTo v.query doc doc') targetChange).query = v.query ∧
      (v.withChanges (changesTo v.query doc doc') targetChange).Applied doc' := by
  set v₁ : View κ := { v with
    documentSet := .single v.query doc'
    mutatedKeys := pendingKeys v.query doc' }.applyTargetChange targetChange with hv₁
  have hquery : v₁.updateLimboDocuments.query = v.query := by simp [hv₁]
  have hshows : v₁.Shows doc' := ⟨by simp [hv₁], by simp [hv₁]⟩
  have happlied : ({ v₁.updateLimboDocuments with
      syncState := v₁.updateLimboDocuments.newSyncState } : View κ).Applied doc' := {
    documentSet := by simpa using hshows.documentSet
    mutatedKeys := by simpa using hshows.mutatedKeys
    syncState := rfl
    limbo := fun hcurrent => by
      have hcurrent : v₁.updateLimboDocuments.current = true := hcurrent
      rw [current_updateLimboDocuments] at hcurrent
      refine (hshows.limboDocuments hcurrent).trans ?_
      simp [limboKeys] }
  exact ⟨hquery, happlied⟩

/-- **When there is a snapshot**: when the view looks different, or the server has come to agree or
not to agree. -/
theorem snapshot_spec {v' : View κ} {doc' : Option ExistingDocument} (h : v'.Applied doc') (v : View κ)
    (doc : Option ExistingDocument) :
    (v'.snapshot v (changesTo v.query doc doc').changeSet = none →
      look doc = look doc' ∧ v'.syncState = v.syncState) ∧
      ∀ s ∈ v'.snapshot v (changesTo v.query doc doc').changeSet, SnapshotOf s v' doc' ∧ Loud s := by
  unfold snapshot
  dsimp only
  split
  · rename_i hquiet
    refine ⟨fun _ => ⟨look_eq_of_documentChange_eq_none ?_, by simpa using hquiet.2⟩,
      fun s hs => absurd hs (Option.not_mem_none s)⟩
    simpa [changesTo] using hquiet.1
  · rename_i hloud
    refine ⟨fun hnone => absurd hnone (Option.some_ne_none _), fun s hs => ?_⟩
    obtain rfl := Option.mem_some_iff.mp hs
    refine ⟨⟨rfl, ⟨doc', h.documentSet, rfl⟩, rfl⟩, ?_⟩
    rcases not_and_or.mp hloud with hchange | hstate
    · exact Or.inl hchange
    · exact Or.inr (by simpa using hstate)

/-- **A step of a view** that showed `doc` and now shows `doc'`: the view with the changes, and a
snapshot of it, unless it looks the same to a listener. -/
structure Advances (v : View κ) (doc : Option ExistingDocument)
    (next : View κ × Option (ViewSnapshot κ)) (doc' : Option ExistingDocument) : Prop where
  query : next.1.query = v.query
  applied : next.1.Applied doc'
  quiet : next.2 = none → look doc = look doc' ∧ next.1.syncState = v.syncState
  loud : ∀ s ∈ next.2, SnapshotOf s next.1 doc' ∧ Loud s

theorem advances_applyChanges (v : View κ) (doc doc' : Option ExistingDocument)
    (targetChange : Option (TargetChange κ)) :
    v.Advances doc (v.applyChangesToDocuments (changesTo v.query doc doc') targetChange) doc' where
  query := (withChanges_spec v doc doc' targetChange).1
  applied := (withChanges_spec v doc doc' targetChange).2
  quiet := (snapshot_spec (withChanges_spec v doc doc' targetChange).2 v doc).1
  loud := (snapshot_spec (withChanges_spec v doc doc' targetChange).2 v doc).2

theorem advances_applyChangedOnlineState {v : View κ} {doc : Option ExistingDocument}
    (h : v.Applied doc) (onlineState : OnlineState) :
    v.Advances doc (v.applyChangedOnlineState onlineState) doc := by
  unfold applyChangedOnlineState
  split
  · have hsame : (⟨v.documentSet, [], v.mutatedKeys⟩ : ViewDocumentChanges κ) =
        changesTo v.query doc doc := by
      rw [changesTo, documentChange_self, ← h.documentSet, ← h.mutatedKeys]
      rfl
    rw [hsame]
    -- the comparison is with the view as it was
    have hspec := withChanges_spec { v with current := false } doc doc none
    exact {
      query := hspec.1
      applied := hspec.2
      quiet := (snapshot_spec hspec.2 v doc).1
      loud := (snapshot_spec hspec.2 v doc).2 }
  · exact ⟨rfl, h, fun _ => ⟨rfl, rfl⟩, fun s hs => absurd hs (Option.not_mem_none s)⟩

end View

/-! ## The store behind the views -/

namespace LocalStore

variable {υ Q : Type} [MutationQueue κ Q] [UserQueues υ Q] [LawfulUserQueues κ υ Q]
  {s s' : LocalStore κ Q} {pending' : υ → Pending κ}

/-- The document that a view of the store is to show. -/
def shown (s : LocalStore κ Q) (key : κ) : Option ExistingDocument :=
  (s.documentForKey key).join.bind MaybeDocument.asDocument

/-- **What the store reports makes a view show what the store has.** -/
theorem Reports.computeChanges (h : s'.Consistent pending') {changes : Changes κ}
    (hreports : Reports s s' changes) {v : View κ} (hshows : v.Shows (s.shown v.query)) :
    v.computeChanges changes = View.changesTo v.query (s.shown v.query) (s'.shown v.query) := by
  obtain ⟨keys, hchanges, hframe⟩ := hreports
  rw [h.documentsForKeys, Option.some_inj] at hchanges
  subst hchanges
  have hkeys : ∀ p : κ → MaybeDocument,
      ((keys.sort (· ≤ ·)).map fun key => (key, p key)).map Prod.fst = keys.sort (· ≤ ·) := by
    intro p
    rw [List.map_map]
    exact List.map_id _
  rw [View.computeChanges_spec hshows]
  · congr 1
    have hdoc : s'.shown v.query =
        (((pending' s'.user).view v.query (s'.remoteDocumentCache v.query)).getD
          (.deletedDocument .noVersion)).asDocument := by
      rw [shown, h.documentForKey, Option.join_some]
      cases (pending' s'.user).view v.query (s'.remoteDocumentCache v.query) <;> rfl
    rw [List.find?_map]
    cases hfind : (keys.sort (· ≤ ·)).find? _ with
    | some key =>
        obtain rfl : key = v.query := by simpa using List.find?_some hfind
        exact hdoc.symm
    | none =>
        have hnot : v.query ∉ keys := by
          have hnone := List.find?_eq_none.mp hfind v.query
          simpa using hnone
        rw [shown, shown, hframe v.query hnot]
        rfl
  · rw [hkeys]
    exact keys.sort_nodup (· ≤ ·)

end LocalStore

end CocoMap
