import CocoMap.Lib.Transition
import CocoMap.WritePipeline

/-!
# The Firestore client

`FSTFirestoreClient` wires the local store, the remote store and the sync engine together
on one dispatch queue.  A write of the app is queued, shown at once and sent when the
stream is ready; the completion handler of the app is called when the server has accepted
or rejected it, with the user who wrote it signed in.

`step` is what the client does on an event, and `Enabled` when the event can happen: the
server answers the requests of an RPC in their order and with one result for each
mutation, the watch stream does not go back, and timers fire only while they run.  A
failed assertion is `none`.
-/

namespace CocoMap

/-- The state of a client.  The handlers of the app are a type of their own, and `called` is
the log of those that were called, with their error; `emitted` is the log of what was handed to
the views. -/
structure FirestoreClient (κ υ Q γ : Type) where
  localStore : LocalStore κ Q
  remoteStore : RemoteStore κ
  currentUser : υ
  /-- The handlers of the batches of each user. -/
  mutationCompletionBlocks : υ → ℤ → Option γ
  called : List (υ × γ × Option FirestoreErrorCode)
  emitted : List (Changes κ)

/-- What happens to a client. -/
inductive ClientEvent (κ υ γ : Type) [LinearOrder κ]
  | writeMutations (mutations : List (Mutation κ)) (completion : γ)
  | userDidChange (user : υ)
  | enableNetwork
  | disableNetwork
  /-- An auth token is there, or there is none. -/
  | token (error : Option FirestoreErrorCode)
  | backoffElapsed
  | idleTimeout
  /-- The server's answer to the oldest request of the RPC. -/
  | response (commitVersion : SnapshotVersion) (mutationResults : List MutationResult)
  | streamClose (error : Option FirestoreErrorCode)
  | remoteEvent (snapshotVersion : SnapshotVersion) (documentUpdates : SortedMap κ MaybeDocument)
  | allocateQuery (targetID : ℤ)
  | releaseQuery (targetID : ℤ)
  /-- The process is gone, and another one is started. -/
  | launch (initialUser : υ)

namespace FirestoreClient

variable {κ υ Q γ : Type} [LinearOrder κ] [DecidableEq υ] [MutationQueue κ Q] [UserQueues υ Q]

/-! ## The sync engine -/

def setCompletionBlock (c : FirestoreClient κ υ Q γ) (batchID : ℤ) (block : Option γ) :
    FirestoreClient κ υ Q γ :=
  { c with
    mutationCompletionBlocks := Function.update c.mutationCompletionBlocks c.currentUser <|
      Function.update (c.mutationCompletionBlocks c.currentUser) batchID block }

section CompletionBlocks

omit [LinearOrder κ] [MutationQueue κ Q] [UserQueues υ Q]

@[simp] theorem setCompletionBlock_self (c : FirestoreClient κ υ Q γ) (batchID : ℤ)
    (block : Option γ) : (c.setCompletionBlock batchID block).mutationCompletionBlocks c.currentUser =
      Function.update (c.mutationCompletionBlocks c.currentUser) batchID block :=
  Function.update_self ..

theorem setCompletionBlock_of_ne (c : FirestoreClient κ υ Q γ) (batchID : ℤ) (block : Option γ)
    {v : υ} (hv : v ≠ c.currentUser) :
    (c.setCompletionBlock batchID block).mutationCompletionBlocks v = c.mutationCompletionBlocks v :=
  Function.update_of_ne hv ..

end CompletionBlocks

/-- Mutations restored from persistence won't have completion blocks. -/
def processUserCallbacks (c : FirestoreClient κ υ Q γ) (batchID : ℤ)
    (error : Option FirestoreErrorCode) : FirestoreClient κ υ Q γ :=
  match c.mutationCompletionBlocks c.currentUser batchID with
  | none => c
  | some completion =>
      { c.setCompletionBlock batchID none with
        called := c.called ++ [(c.currentUser, completion, error)] }

/-- `emitNewSnapshotsWithChanges:` -/
def emitNewSnapshots (c : FirestoreClient κ υ Q γ) (changes : Changes κ) : FirestoreClient κ υ Q γ :=
  { c with emitted := c.emitted ++ [changes] }

/-- The user's callbacks come before the events of the views. -/
def applySuccessfulWrite (c : FirestoreClient κ υ Q γ) (batchResult : MutationBatchResult κ) :
    Option (FirestoreClient κ υ Q γ) :=
  let c := c.processUserCallbacks batchResult.batch.batchID none
  (c.localStore.acknowledgeBatchWithResult batchResult).map fun r =>
    { c with localStore := r.2 }.emitNewSnapshots r.1

def rejectFailedWrite (c : FirestoreClient κ υ Q γ) (batchID : ℤ) (error : FirestoreErrorCode) :
    Option (FirestoreClient κ υ Q γ) :=
  let c := c.processUserCallbacks batchID (some error)
  (c.localStore.rejectBatchID batchID).map fun r =>
    { c with localStore := r.2 }.emitNewSnapshots r.1

/-! ## The remote store -/

def setWriteStream (c : FirestoreClient κ υ Q γ) (w : WriteStream κ) : FirestoreClient κ υ Q γ :=
  { c with remoteStore := { c.remoteStore with writeStream := some w } }

def fillWritePipeline (c : FirestoreClient κ υ Q γ) : Option (FirestoreClient κ υ Q γ) :=
  (RemoteStore.fillWritePipeline c.localStore c.remoteStore).map fun remoteStore =>
    { c with remoteStore }

/-- Create a new stream (but note it's not started yet). -/
def enableNetwork (c : FirestoreClient κ υ Q γ) : Option (FirestoreClient κ υ Q γ) :=
  if c.remoteStore.isNetworkEnabled then some c
  else (c.setWriteStream .init).fillWritePipeline

def disableNetwork (c : FirestoreClient κ υ Q γ) : Option (FirestoreClient κ υ Q γ) :=
  match c.remoteStore.writeStream with
  | none => some c
  | some w => w.stop.map fun _ =>
      { c with remoteStore := { c.remoteStore.cleanUpWriteStreamState with writeStream := none } }

/-- Only handle permanent errors.  If it's transient, just let the retry logic kick in. -/
def handleWriteError (c : FirestoreClient κ υ Q γ) (w : WriteStream κ)
    (error : FirestoreErrorCode) : Option (FirestoreClient κ υ Q γ) :=
  if !error.isPermanentWriteError then some c
  else do
    let batch ← c.remoteStore.pendingWrites.head?
    let w ← w.inhibitBackoff
    let c := { c with remoteStore := { c.remoteStore with
      writeStream := some w, pendingWrites := c.remoteStore.pendingWrites.tail } }
    let c ← c.rejectFailedWrite batch.batchID error
    -- It's possible that with the completion of this mutation another slot has freed up.
    c.fillWritePipeline

/-- The first half of `writeStreamWasInterruptedWithError:` — an error is handled if there are
pending writes; before the handshake it only resets the stream token. -/
def handleInterruption (c : FirestoreClient κ υ Q γ) (w : WriteStream κ) :
    Option FirestoreErrorCode → Option (FirestoreClient κ υ Q γ)
  | some error =>
      if 0 < c.remoteStore.pendingWrites.length then
        if w.handshakeComplete then c.handleWriteError w error else some c
      else some c
  | none => some c

def writeStreamWasInterrupted (c : FirestoreClient κ υ Q γ) (error : Option FirestoreErrorCode) :
    Option (FirestoreClient κ υ Q γ) := do
  -- should only be called when the network is enabled
  let w ← c.remoteStore.writeStream
  let c ← c.handleInterruption w error
  -- The write stream might have been started by refilling the write pipeline for failed writes
  if c.remoteStore.shouldStartWriteStream then
    c.remoteStore.startWriteStream.map fun remoteStore => { c with remoteStore }
  else some c

/-- The stream is closed, and its delegate told. -/
def streamClosed (c : FirestoreClient κ υ Q γ)
    (closed : WriteStream κ × Option (Option FirestoreErrorCode)) :
    Option (FirestoreClient κ υ Q γ) :=
  let c := c.setWriteStream closed.1
  match closed.2 with
  | none => some c
  | some error => c.writeStreamWasInterrupted error

/-- The pending writes are sent once the handshake is complete. -/
def writeStreamDidCompleteHandshake (c : FirestoreClient κ υ Q γ) (w : WriteStream κ) :
    Option (FirestoreClient κ υ Q γ) :=
  (c.remoteStore.pendingWrites.foldlM (fun w write => WriteStream.writeMutations w write.mutations)
    w).map c.setWriteStream

/-- The response to a write containing mutations is correlated to the first pending write. -/
def writeStreamDidReceiveResponse (c : FirestoreClient κ υ Q γ) (commitVersion : SnapshotVersion)
    (mutationResults : List MutationResult) : Option (FirestoreClient κ υ Q γ) := do
  let batch ← c.remoteStore.pendingWrites.head?
  let c := { c with remoteStore := { c.remoteStore with
    pendingWrites := c.remoteStore.pendingWrites.tail } }
  let batchResult ← MutationBatchResult.resultWithBatch batch commitVersion mutationResults
  let c ← c.applySuccessfulWrite batchResult
  -- It's possible that with the completion of this mutation another slot has freed up.
  c.fillWritePipeline

/-- The first response of an RPC is the handshake response. -/
def handleStreamMessage (c : FirestoreClient κ υ Q γ) (w : WriteStream κ)
    (commitVersion : SnapshotVersion) (mutationResults : List MutationResult) :
    Option (FirestoreClient κ υ Q γ) :=
  let w := { w with rpc := w.rpc.map List.tail }
  if !w.handshakeComplete then
    c.writeStreamDidCompleteHandshake { w with handshakeComplete := true }
  else (c.setWriteStream w).writeStreamDidReceiveResponse commitVersion mutationResults

/-! ## Events -/

def writeMutations (c : FirestoreClient κ υ Q γ) (mutations : List (Mutation κ)) (completion : γ) :
    Option (FirestoreClient κ υ Q γ) := do
  let (result, localStore) ← c.localStore.locallyWriteMutations mutations
  let c := { c with localStore }.setCompletionBlock result.1 (some completion)
  (c.emitNewSnapshots result.2).fillWritePipeline

def userDidChange (c : FirestoreClient κ υ Q γ) (user : υ) : Option (FirestoreClient κ υ Q γ) := do
  let (changes, localStore) ← c.localStore.userDidChange user
  let c := { c with localStore, currentUser := user }.emitNewSnapshots changes
  if c.remoteStore.isNetworkEnabled then
    let c ← c.disableNetwork
    c.enableNetwork
  else return c

/-- `initializeWithUser:` — the network is enabled at the start. -/
def launch (c : FirestoreClient κ υ Q γ) (initialUser : υ) : Option (FirestoreClient κ υ Q γ) := do
  let localStore ← c.localStore.launch initialUser
  { c with
    localStore
    remoteStore := .init
    currentUser := initialUser
    mutationCompletionBlocks := fun _ _ => none }.enableNetwork

def step (c : FirestoreClient κ υ Q γ) : ClientEvent κ υ γ → Option (FirestoreClient κ υ Q γ)
  | .writeMutations mutations completion => c.writeMutations mutations completion
  | .userDidChange user => c.userDidChange user
  | .enableNetwork => c.enableNetwork
  | .disableNetwork => c.disableNetwork
  | .token error => do
      let w ← c.remoteStore.writeStream
      match error with
      | some error => (w.handleStreamClose (some error)).bind c.streamClosed
      | none =>
          let (w, isOpen) ← w.resumeStartWithToken
          if isOpen then w.writeHandshake.map c.setWriteStream else some (c.setWriteStream w)
  | .backoffElapsed => do
      let w ← c.remoteStore.writeStream
      w.resumeStartFromBackoff.map c.setWriteStream
  | .idleTimeout => do
      let w ← c.remoteStore.writeStream
      w.handleIdleCloseTimer.bind c.streamClosed
  | .response commitVersion mutationResults => do
      let w ← c.remoteStore.writeStream
      c.handleStreamMessage w commitVersion mutationResults
  | .streamClose error => do
      let w ← c.remoteStore.writeStream
      (w.handleStreamClose error).bind c.streamClosed
  | .remoteEvent snapshotVersion documentUpdates =>
      (c.localStore.applyRemoteEvent snapshotVersion documentUpdates).map fun r =>
        { c with localStore := r.2 }.emitNewSnapshots r.1
  | .allocateQuery targetID =>
      (c.localStore.allocateQuery targetID).map fun localStore => { c with localStore }
  | .releaseQuery targetID =>
      (c.localStore.releaseQuery targetID).map fun localStore => { c with localStore }
  | .launch initialUser => c.launch initialUser

/-- When an event can happen. -/
def Enabled (c : FirestoreClient κ υ Q γ) : ClientEvent κ υ γ → Prop
  | .writeMutations mutations _ => mutations ≠ []
  | .token _ => ∃ w ∈ c.remoteStore.writeStream, w.state = .auth
  | .backoffElapsed => ∃ w ∈ c.remoteStore.writeStream, w.state = .backoff
  | .idleTimeout => ∃ w ∈ c.remoteStore.writeStream, w.idleTimer = true
  | .response _ mutationResults => ∃ w ∈ c.remoteStore.writeStream, ∃ requests ∈ w.rpc,
      ∃ request ∈ requests.head?, request.AnsweredBy mutationResults
  | .streamClose _ => ∃ w ∈ c.remoteStore.writeStream, w.rpc ≠ none
  | .remoteEvent snapshotVersion _ => snapshotVersion = .noVersion ∨
      c.localStore.lastRemoteSnapshotVersion ≤ snapshotVersion
  | .allocateQuery targetID => targetID ∉ c.localStore.targetIDs
  | _ => True

instance (c : FirestoreClient κ υ Q γ) : ∀ e, Decidable (c.Enabled e)
  | .writeMutations [] _ => isFalse fun h => h rfl
  | .writeMutations (mutation :: mutations) _ => isTrue (List.cons_ne_nil mutation mutations)
  | .userDidChange _ => isTrue trivial
  | .enableNetwork => isTrue trivial
  | .disableNetwork => isTrue trivial
  | .token _ => inferInstanceAs (Decidable (∃ w ∈ c.remoteStore.writeStream, w.state = .auth))
  | .backoffElapsed =>
      inferInstanceAs (Decidable (∃ w ∈ c.remoteStore.writeStream, w.state = .backoff))
  | .idleTimeout =>
      inferInstanceAs (Decidable (∃ w ∈ c.remoteStore.writeStream, w.idleTimer = true))
  | .response _ mutationResults =>
      inferInstanceAs (Decidable (∃ w ∈ c.remoteStore.writeStream, ∃ requests ∈ w.rpc,
        ∃ request ∈ requests.head?, request.AnsweredBy mutationResults))
  | .streamClose _ => inferInstanceAs (Decidable (∃ w ∈ c.remoteStore.writeStream, w.rpc ≠ none))
  | .remoteEvent snapshotVersion _ => inferInstanceAs (Decidable (snapshotVersion = .noVersion ∨
      c.localStore.lastRemoteSnapshotVersion ≤ snapshotVersion))
  | .allocateQuery targetID => inferInstanceAs (Decidable (targetID ∉ c.localStore.targetIDs))
  | .releaseQuery _ => isTrue trivial
  | .launch _ => isTrue trivial

end FirestoreClient

end CocoMap
