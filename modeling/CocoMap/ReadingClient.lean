import CocoMap.EventManager
import CocoMap.FirestoreClient

/-!
# Reading documents

A read of the app (`getDocument`) listens to the query for its document until the first event.
The event manager asks the sync engine to listen when a query has its first listener and to stop
when the last one is gone; the sync engine keeps the views, and advances them with whatever the
local store has changed.

Three queues run a client.  The worker queue does what the network and the app ask for, one event
of `ReadingEvent` at a time; the queue of the user calls the handlers (`deliver`); and what a
handler asks for in turn, to remove its listener, waits on the worker queue again.

Left out are the watch stream and the listens that resolve limbo documents, whose target changes
have no view.
-/

namespace CocoMap

/-- `FSTQueryCache`, and the generator of the target IDs. -/
structure QueryCache (κ : Type) [LinearOrder κ] where
  targets : SortedMap κ ℤ
  /-- The documents that the server has said are in a target. -/
  matchingKeys : ℤ → Finset κ
  highestTargetID : ℤ

/-- `FSTQueryView` -/
structure QueryView (κ : Type) [LinearOrder κ] where
  targetID : ℤ
  view : View κ

/-- What the completion handler of a read is called with: a document, and whether it has pending
writes, or an error. -/
inductive ReadAnswer
  | document (document : Option (Document × Bool)) (fromCache : Bool)
  | error (error : FirestoreErrorCode)
deriving DecidableEq

variable {κ υ Q γ : Type} [LinearOrder κ]

namespace QueryCache

def init : QueryCache κ where
  targets := .empty
  matchingKeys := fun _ => ∅
  highestTargetID := 0

/-- `allocateQuery:` of the local store.  The target IDs of the local store are even. -/
def allocateQuery (cache : QueryCache κ) (query : κ) : ℤ × QueryCache κ :=
  match cache.targets.lookup query with
  | some targetID => (targetID, cache)
  | none =>
      let targetID := cache.highestTargetID + 2
      (targetID, { cache with
        targets := cache.targets.insert query targetID
        highestTargetID := max cache.highestTargetID targetID })

/-- `removeMatchingKeys:` and `addMatchingKeys:`, in the loop of `applyRemoteEvent:`. -/
def applyTargetChange (cache : QueryCache κ) (targetID : ℤ) (change : TargetChange κ) :
    QueryCache κ :=
  { cache with
    matchingKeys := Function.update cache.matchingKeys targetID <|
      match change.mapping with
      | .reset documents => documents
      | .update addedDocuments removedDocuments =>
          (cache.matchingKeys targetID \ removedDocuments) ∪ addedDocuments }

end QueryCache

/-- `filterUpdatesFromTargetChange:existingDocuments:` -/
def TargetChange.filterUpdates (change : TargetChange κ) (existingDocuments : Finset κ) :
    TargetChange κ :=
  match change.mapping with
  | .reset _ => change
  | .update addedDocuments removedDocuments =>
      { change with mapping := .update (addedDocuments \ existingDocuments) removedDocuments }

/-- `executeQuery:`, for the query of a document. -/
def LocalStore.executeQuery [MutationQueue κ Q] (s : LocalStore κ Q) (query : κ) :
    Option (Changes κ) :=
  (s.documentForKey query).map fun doc =>
    (doc.filter fun doc => doc.asDocument.isSome).toList.map fun doc => (query, doc)

/-- The state of a client that reads, too.  The reads are numbered; `answered` is the log of their
completion handlers, and `begun` the number of reads that were begun in earlier processes. -/
structure ReadingClient (κ υ Q γ : Type) [LinearOrder κ] where
  client : FirestoreClient κ υ Q γ
  queryCache : QueryCache κ
  /-- `queryViewsByQuery`, and by target -/
  queryViews : SortedMap κ (QueryView κ)
  eventManager : EventManager κ
  /-- The events that are to be delivered. -/
  userQueue : List (ℕ × ViewEvent κ)
  /-- The reads whose listeners are to be removed. -/
  removals : List ℕ
  muted : Finset ℕ
  reads : List κ
  begun : ℕ
  answered : List (ℕ × ReadAnswer)

/-- What happens to a client that reads. -/
inductive ReadingEvent (κ υ γ : Type) [LinearOrder κ]
  | client (e : ClientEvent κ υ γ)
  | getDocument (key : κ)
  | removeListener
  | deliver
  | remoteEvent (snapshotVersion : SnapshotVersion) (documentUpdates : SortedMap κ MaybeDocument)
      (targetChanges : SortedMap ℤ (TargetChange κ))
  | rejectListen (targetID : ℤ) (error : FirestoreErrorCode)
  | applyChangedOnlineState (onlineState : OnlineState)

/-- The events that have nothing to do with reads. -/
def ClientEvent.IsOwn : ClientEvent κ υ γ → Bool
  | .remoteEvent _ _ | .allocateQuery _ | .releaseQuery _ => false
  | _ => true

namespace ReadingClient

variable [DecidableEq υ] [MutationQueue κ Q] [UserQueues υ Q]

/-! ## The sync engine -/

def queryViewByTarget (c : ReadingClient κ υ Q γ) (targetID : ℤ) : Option (QueryView κ) :=
  (c.queryViews.entries.find? fun entry => entry.2.targetID = targetID).map Prod.snd

def handleViewSnapshots (c : ReadingClient κ υ Q γ) (viewSnapshots : List (ViewSnapshot κ)) :
    Option (ReadingClient κ υ Q γ) :=
  (c.eventManager.handleViewSnapshots viewSnapshots).map fun told =>
    { c with eventManager := told.1, userQueue := c.userQueue ++ told.2 }

/-- Every view takes a step, and the new snapshots are handed on. -/
def advanceViews (c : ReadingClient κ υ Q γ)
    (next : QueryView κ → View κ × Option (ViewSnapshot κ)) : Option (ReadingClient κ υ Q γ) :=
  let viewSnapshots := c.queryViews.entries.filterMap fun entry => (next entry.2).2
  { c with queryViews := c.queryViews.mapVal fun _ queryView =>
      { queryView with view := (next queryView).1 } }.handleViewSnapshots viewSnapshots

/-- `emitNewSnapshotsWithChanges:remoteEvent:` -/
def emitNewSnapshots (targetChanges : SortedMap ℤ (TargetChange κ)) (c : ReadingClient κ υ Q γ)
    (changes : Changes κ) : Option (ReadingClient κ υ Q γ) :=
  c.advanceViews fun queryView =>
    queryView.view.applyChangesToDocuments (queryView.view.computeChanges changes)
      (targetChanges.lookup queryView.targetID)

/-- A step of the client whose changes are handed to the views. -/
def stepClient (c : ReadingClient κ υ Q γ) (e : ClientEvent κ υ γ)
    (targetChanges : SortedMap ℤ (TargetChange κ)) : Option (ReadingClient κ υ Q γ) := do
  let client ← c.client.step e
  (client.emitted.drop c.client.emitted.length).foldlM (emitNewSnapshots targetChanges)
    { c with client }

def listenToQuery (c : ReadingClient κ υ Q γ) (query : κ) : Option (ReadingClient κ υ Q γ) := do
  if (c.queryViews.lookup query).isSome then none
  let (targetID, queryCache) := c.queryCache.allocateQuery query
  let client ← c.client.step (.allocateQuery targetID)
  let docs ← client.localStore.executeQuery query
  let view := View.init query (queryCache.matchingKeys targetID)
  let (view, viewSnapshot) := view.applyChangesToDocuments (view.computeChanges docs) none
  let viewSnapshot ← viewSnapshot
  { c with
    client
    queryCache
    queryViews := c.queryViews.insert query ⟨targetID, view⟩ }.handleViewSnapshots [viewSnapshot]

/-- `releaseQuery:` of the local store, and `removeAndCleanupQuery:`. -/
def releaseQuery (c : ReadingClient κ υ Q γ) (query : κ) : Option (ReadingClient κ υ Q γ) := do
  let targetID ← c.queryCache.targets.lookup query
  let client ← c.client.step (.releaseQuery targetID)
  return { c with client, queryViews := c.queryViews.erase query }

def stopListeningToQuery (c : ReadingClient κ υ Q γ) (query : κ) :
    Option (ReadingClient κ υ Q γ) :=
  if (c.queryViews.lookup query).isSome then c.releaseQuery query else none

/-- `applyRemoteEvent:` — filter out document additions to targets that they already belong to. -/
def applyRemoteEvent (c : ReadingClient κ υ Q γ) (snapshotVersion : SnapshotVersion)
    (documentUpdates : SortedMap κ MaybeDocument) (targetChanges : SortedMap ℤ (TargetChange κ)) :
    Option (ReadingClient κ υ Q γ) :=
  -- missing queryview for non-limbo query
  if targetChanges.entries.any fun entry => (c.queryViewByTarget entry.1).isNone then none
  else
    let targetChanges := targetChanges.mapVal fun targetID change =>
      (c.queryViewByTarget targetID).elim change fun queryView =>
        change.filterUpdates queryView.view.syncedDocuments
    let queryCache := targetChanges.entries.foldl (fun cache entry =>
      -- Do not ref/unref unassigned targetIDs
      if entry.1 ∈ c.client.localStore.targetIDs then cache.applyTargetChange entry.1 entry.2
      else cache) c.queryCache
    { c with queryCache }.stepClient (.remoteEvent snapshotVersion documentUpdates) targetChanges

/-- `rejectListenWithTargetID:error:`, for the target of a query. -/
def rejectListen (c : ReadingClient κ υ Q γ) (targetID : ℤ) (error : FirestoreErrorCode) :
    Option (ReadingClient κ υ Q γ) := do
  let queryView ← c.queryViewByTarget targetID
  let c ← c.releaseQuery queryView.view.query
  let told := c.eventManager.handleError error queryView.view.query
  return { c with eventManager := told.1, userQueue := c.userQueue ++ told.2 }

/-! ## The client -/

/-- The sync engine first, and then the listeners. -/
def applyChangedOnlineState (c : ReadingClient κ υ Q γ) (onlineState : OnlineState) :
    Option (ReadingClient κ υ Q γ) :=
  (c.advanceViews fun queryView => queryView.view.applyChangedOnlineState onlineState).map fun c =>
    let told := c.eventManager.applyChangedOnlineState onlineState
    { c with eventManager := told.1, userQueue := c.userQueue ++ told.2 }

/-- The options of a read. -/
def getOptions : ListenOptions where
  includeQueryMetadataChanges := true
  includeDocumentMetadataChanges := true
  waitForSyncWhenOnline := true

/-- `getDocumentWithCompletion:`, when the worker queue adds its listener. -/
def getDocument (c : ReadingClient κ υ Q γ) (key : κ) : Option (ReadingClient κ υ Q γ) := do
  let firstListen := (c.eventManager.queries.lookup key).isNone
  let told ← c.eventManager.addListener key (.init c.reads.length getOptions)
  let c := { c with
    reads := c.reads ++ [key], eventManager := told.1, userQueue := c.userQueue ++ told.2 }
  if firstListen then c.listenToQuery key else some c

/-- The worker queue removes the listener of a read that is over. -/
def removeListener (c : ReadingClient κ υ Q γ) : Option (ReadingClient κ υ Q γ) := do
  let n ← c.removals.head?
  let query ← c.reads[n]?
  let (eventManager, lastListen) := c.eventManager.removeListener query n
  let c := { c with eventManager, removals := c.removals.tail }
  if lastListen then c.stopListeningToQuery query else some c

/-- The handler of a read: a missing document that may exist on the server is an error. -/
def answerOf (document : Option ExistingDocument) (fromCache : Bool) : ReadAnswer :=
  if document = none ∧ fromCache then .error .unavailable
  else .document (View.look document) fromCache

/-- The handler of an event is called, unless it is muted.  A read is over with its first snapshot. -/
def deliver (c : ReadingClient κ υ Q γ) : Option (ReadingClient κ υ Q γ) :=
  match c.userQueue with
  | [] => none
  | (n, event) :: userQueue =>
      let c := { c with userQueue }
      if n ∈ c.muted then some c
      else match event with
        | .error error => some { c with answered := c.answered ++ [(n, .error error)] }
        | .snapshot snapshot =>
            -- too many documents returned on a document query
            if 1 < snapshot.documents.entries.length then none
            else c.reads[n]?.map fun key => { c with
              muted := insert n c.muted
              removals := c.removals ++ [n]
              answered := c.answered ++
                [(n, answerOf (snapshot.documents.lookup key) snapshot.fromCache)] }

/-- A new process has no views and no listeners. -/
def launch (c : ReadingClient κ υ Q γ) (initialUser : υ) : Option (ReadingClient κ υ Q γ) :=
  (c.client.step (.launch initialUser)).map fun client => { c with
    client
    queryViews := .empty
    eventManager := .init
    userQueue := []
    removals := []
    begun := c.reads.length }

def step (c : ReadingClient κ υ Q γ) : ReadingEvent κ υ γ → Option (ReadingClient κ υ Q γ)
  | .client (.launch initialUser) => c.launch initialUser
  | .client e => c.stepClient e .empty
  | .getDocument key => c.getDocument key
  | .removeListener => c.removeListener
  | .deliver => c.deliver
  | .remoteEvent snapshotVersion documentUpdates targetChanges =>
      c.applyRemoteEvent snapshotVersion documentUpdates targetChanges
  | .rejectListen targetID error => c.rejectListen targetID error
  | .applyChangedOnlineState onlineState => c.applyChangedOnlineState onlineState

/-- When an event can happen: the server only speaks of targets that are listened to. -/
def Enabled (c : ReadingClient κ υ Q γ) : ReadingEvent κ υ γ → Prop
  | .client e => c.client.Enabled e ∧ e.IsOwn = true
  | .getDocument _ => True
  | .removeListener => c.removals ≠ []
  | .deliver => c.userQueue ≠ []
  | .remoteEvent snapshotVersion documentUpdates targetChanges =>
      c.client.Enabled (.remoteEvent snapshotVersion documentUpdates) ∧
        ∀ entry ∈ targetChanges.entries, (c.queryViewByTarget entry.1).isSome = true
  | .rejectListen targetID _ => (c.queryViewByTarget targetID).isSome = true
  | .applyChangedOnlineState _ => True

instance (c : ReadingClient κ υ Q γ) : ∀ e, Decidable (c.Enabled e)
  | .client e => inferInstanceAs (Decidable (c.client.Enabled e ∧ e.IsOwn = true))
  | .getDocument _ => isTrue trivial
  | .removeListener => inferInstanceAs (Decidable (c.removals ≠ []))
  | .deliver => match h : c.userQueue with
      | [] => isFalse fun hne => hne h
      | event :: events => isTrue fun hnil => List.cons_ne_nil event events (h.symm.trans hnil)
  | .remoteEvent snapshotVersion documentUpdates targetChanges =>
      inferInstanceAs (Decidable (c.client.Enabled (.remoteEvent snapshotVersion documentUpdates) ∧
        ∀ entry ∈ targetChanges.entries, (c.queryViewByTarget entry.1).isSome = true))
  | .rejectListen targetID _ =>
      inferInstanceAs (Decidable ((c.queryViewByTarget targetID).isSome = true))
  | .applyChangedOnlineState _ => isTrue trivial

end ReadingClient

end CocoMap
