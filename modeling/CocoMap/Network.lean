import CocoMap.BehindReads

/-!
# The network of a client

The write stream exists as long as the network is enabled, and only the app enables and disables
it: whatever is written or read, a step keeps the stream or replaces it.
-/

namespace CocoMap

open Transition

/-! ## Filling the pipeline -/

namespace RemoteStore

variable {κ Q : Type} [LinearOrder κ] {r r' : RemoteStore κ}

omit [LinearOrder κ] in
theorem isNetworkEnabled_startWriteStream (h : r.startWriteStream = some r') :
    r'.isNetworkEnabled = r.isNetworkEnabled := by
  obtain ⟨-, -, h⟩ := Option.bind_eq_some_iff.mp h
  obtain ⟨w, hw, h⟩ := Option.bind_eq_some_iff.mp h
  obtain ⟨w', -, h⟩ := Option.bind_eq_some_iff.mp h
  cases h
  rw [isNetworkEnabled, isNetworkEnabled, hw]
  rfl

omit [LinearOrder κ] in
theorem isNetworkEnabled_commitBatch {batch : MutationBatch κ} (h : r.commitBatch batch = some r') :
    r'.isNetworkEnabled = r.isNetworkEnabled := by
  unfold commitBatch at h
  obtain ⟨-, -, h⟩ := Option.bind_eq_some_iff.mp h
  dsimp only at h
  split at h
  · have hsame := isNetworkEnabled_startWriteStream h
    exact hsame
  · split at h
    · rename_i w hw
      split at h
      · obtain ⟨w', -, rfl⟩ := Option.map_eq_some_iff.mp h
        exact (congrArg Option.isSome hw).symm
      · cases h
        rfl
    · cases h
      rfl

omit [LinearOrder κ] in
theorem isNetworkEnabled_fill [MutationQueue κ Q] {localStore : LocalStore κ Q}
    (h : fill localStore r = some r') : r'.isNetworkEnabled = r.isNetworkEnabled := by
  fun_induction fill localStore r with
  | case1 => cases h
  | case2 =>
      cases h
      rfl
  | case3 => cases h
  | case4 r hcan batch hnext r₁ hcommit ih => exact (ih h).trans (isNetworkEnabled_commitBatch hcommit)
  | case5 =>
      cases h
      rfl

omit [LinearOrder κ] in
theorem isNetworkEnabled_fillWritePipeline [MutationQueue κ Q] {localStore : LocalStore κ Q}
    (h : RemoteStore.fillWritePipeline localStore r = some r') :
    r'.isNetworkEnabled = r.isNetworkEnabled := by
  unfold fillWritePipeline at h
  split at h
  · obtain ⟨r₁, hfill, rfl⟩ := Option.map_eq_some_iff.mp h
    rw [← isNetworkEnabled_fill hfill]
    split
    · exact Option.isSome_map
    · rfl
  · cases h
    rfl

end RemoteStore

/-! ## Every step of the client -/

namespace FirestoreClient

variable {κ υ Q γ : Type} [LinearOrder κ] [DecidableEq υ] [MutationQueue κ Q] [UserQueues υ Q]
  {c c' : FirestoreClient κ υ Q γ}

/-- Whether the network is enabled. -/
def isNetworkEnabled (c : FirestoreClient κ υ Q γ) : Bool := c.remoteStore.isNetworkEnabled

omit [LinearOrder κ] [UserQueues υ Q] [DecidableEq υ] in
theorem isNetworkEnabled_fillWritePipeline (h : c.fillWritePipeline = some c') :
    c'.isNetworkEnabled = c.isNetworkEnabled := by
  obtain ⟨r, hfill, rfl⟩ := Option.map_eq_some_iff.mp h
  exact RemoteStore.isNetworkEnabled_fillWritePipeline hfill

omit [LinearOrder κ] [MutationQueue κ Q] [UserQueues υ Q] in
theorem remoteStore_processUserCallbacks (c : FirestoreClient κ υ Q γ) (batchID : ℤ)
    (error : Option FirestoreErrorCode) :
    (c.processUserCallbacks batchID error).remoteStore = c.remoteStore := by
  rw [processUserCallbacks_eq]
  rfl

omit [UserQueues υ Q] in
theorem remoteStore_applySuccessfulWrite {batchResult : MutationBatchResult κ}
    (h : c.applySuccessfulWrite batchResult = some c') : c'.remoteStore = c.remoteStore := by
  obtain ⟨r, -, rfl⟩ := Option.map_eq_some_iff.mp h
  exact remoteStore_processUserCallbacks c _ _

omit [UserQueues υ Q] in
theorem remoteStore_rejectFailedWrite {batchID : ℤ} {error : FirestoreErrorCode}
    (h : c.rejectFailedWrite batchID error = some c') : c'.remoteStore = c.remoteStore := by
  obtain ⟨r, -, rfl⟩ := Option.map_eq_some_iff.mp h
  exact remoteStore_processUserCallbacks c _ _

omit [UserQueues υ Q] in
theorem isNetworkEnabled_handleInterruption {w : WriteStream κ} {error : Option FirestoreErrorCode}
    (h : c.handleInterruption w error = some c') (hnetwork : c.isNetworkEnabled = true) :
    c'.isNetworkEnabled = true := by
  cases error with
  | none =>
      cases h
      exact hnetwork
  | some error =>
      rw [handleInterruption] at h
      split at h
      · split at h
        · unfold handleWriteError at h
          split at h
          · cases h
            exact hnetwork
          · obtain ⟨batch, -, h⟩ := Option.bind_eq_some_iff.mp h
            obtain ⟨w', -, h⟩ := Option.bind_eq_some_iff.mp h
            obtain ⟨c₁, hreject, hfill⟩ := Option.bind_eq_some_iff.mp h
            rw [isNetworkEnabled_fillWritePipeline hfill, isNetworkEnabled,
              remoteStore_rejectFailedWrite hreject]
            rfl
        · cases h
          exact hnetwork
      · cases h
        exact hnetwork

omit [UserQueues υ Q] in
theorem isNetworkEnabled_writeStreamWasInterrupted {error : Option FirestoreErrorCode}
    (h : c.writeStreamWasInterrupted error = some c') : c'.isNetworkEnabled = true := by
  obtain ⟨w, hw, h⟩ := Option.bind_eq_some_iff.mp h
  obtain ⟨c₁, hinterrupted, h⟩ := Option.bind_eq_some_iff.mp h
  have hnetwork := isNetworkEnabled_handleInterruption hinterrupted (congrArg Option.isSome hw)
  split at h
  · obtain ⟨r, hstart, rfl⟩ := Option.map_eq_some_iff.mp h
    exact (RemoteStore.isNetworkEnabled_startWriteStream hstart).trans hnetwork
  · cases h
    exact hnetwork

omit [UserQueues υ Q] in
theorem isNetworkEnabled_streamClosed {closed : WriteStream κ × Option (Option FirestoreErrorCode)}
    (h : c.streamClosed closed = some c') : c'.isNetworkEnabled = true := by
  unfold streamClosed at h
  dsimp only at h
  split at h
  · cases h
    rfl
  · exact isNetworkEnabled_writeStreamWasInterrupted h

omit [UserQueues υ Q] in
theorem isNetworkEnabled_handleStreamMessage {w : WriteStream κ} {commitVersion : SnapshotVersion}
    {mutationResults : List MutationResult}
    (h : c.handleStreamMessage w commitVersion mutationResults = some c') :
    c'.isNetworkEnabled = true := by
  unfold handleStreamMessage at h
  dsimp only at h
  split at h
  · obtain ⟨w', -, rfl⟩ := Option.map_eq_some_iff.mp h
    rfl
  · obtain ⟨batch, -, h⟩ := Option.bind_eq_some_iff.mp h
    obtain ⟨batchResult, -, h⟩ := Option.bind_eq_some_iff.mp h
    obtain ⟨c₁, happly, hfill⟩ := Option.bind_eq_some_iff.mp h
    rw [isNetworkEnabled_fillWritePipeline hfill, isNetworkEnabled,
      remoteStore_applySuccessfulWrite happly]
    rfl

omit [LinearOrder κ] [UserQueues υ Q] [DecidableEq υ] in
theorem isNetworkEnabled_enableNetwork (h : c.enableNetwork = some c') :
    c'.isNetworkEnabled = true := by
  unfold enableNetwork at h
  split at h
  · rename_i hnetwork
    cases h
    exact hnetwork
  · rw [isNetworkEnabled_fillWritePipeline h]
    rfl

omit [LinearOrder κ] [UserQueues υ Q] [DecidableEq υ] [MutationQueue κ Q] in
theorem isNetworkEnabled_disableNetwork (h : c.disableNetwork = some c') :
    c'.isNetworkEnabled = false := by
  unfold disableNetwork at h
  split at h
  · rename_i hstream
    cases h
    rw [isNetworkEnabled, RemoteStore.isNetworkEnabled, hstream]
    rfl
  · obtain ⟨w', -, rfl⟩ := Option.map_eq_some_iff.mp h
    rfl

/-- Whether the network is enabled after an event. -/
def networkAfter (isNetworkEnabled : Bool) : ClientEvent κ υ γ → Bool
  | .enableNetwork | .launch _ => true
  | .disableNetwork => false
  | _ => isNetworkEnabled

/-- **Only the app enables and disables the network.** -/
theorem isNetworkEnabled_step {e : ClientEvent κ υ γ} (h : c.step e = some c') :
    c'.isNetworkEnabled = networkAfter c.isNetworkEnabled e := by
  have hstream : ∀ {w : WriteStream κ}, c.remoteStore.writeStream = some w →
      c.isNetworkEnabled = true := fun hw => congrArg Option.isSome hw
  cases e with
  | writeMutations mutations completion =>
      obtain ⟨r, -, h⟩ := Option.bind_eq_some_iff.mp h
      have hsame := isNetworkEnabled_fillWritePipeline (show fillWritePipeline _ = some c' from h)
      exact hsame
  | userDidChange user =>
      obtain ⟨r, -, h⟩ := Option.bind_eq_some_iff.mp h
      dsimp only at h
      split at h
      · rename_i hnetwork
        obtain ⟨c₁, -, henable⟩ := Option.bind_eq_some_iff.mp h
        exact (isNetworkEnabled_enableNetwork henable).trans hnetwork.symm
      · cases h
        rfl
  | enableNetwork => exact isNetworkEnabled_enableNetwork h
  | disableNetwork => exact isNetworkEnabled_disableNetwork h
  | token error =>
      obtain ⟨w, hw, h⟩ := Option.bind_eq_some_iff.mp h
      change c'.isNetworkEnabled = c.isNetworkEnabled
      rw [hstream hw]
      cases error with
      | some error =>
          obtain ⟨closed, -, h⟩ := Option.bind_eq_some_iff.mp h
          exact isNetworkEnabled_streamClosed h
      | none =>
          obtain ⟨⟨w', isOpen⟩, -, h⟩ := Option.bind_eq_some_iff.mp h
          dsimp only at h
          split at h
          · obtain ⟨w₁, -, rfl⟩ := Option.map_eq_some_iff.mp h
            rfl
          · cases h
            rfl
  | backoffElapsed =>
      obtain ⟨w, hw, h⟩ := Option.bind_eq_some_iff.mp h
      obtain ⟨w', -, rfl⟩ := Option.map_eq_some_iff.mp h
      exact (hstream hw).symm
  | idleTimeout =>
      obtain ⟨w, hw, h⟩ := Option.bind_eq_some_iff.mp h
      obtain ⟨closed, -, h⟩ := Option.bind_eq_some_iff.mp h
      exact (isNetworkEnabled_streamClosed h).trans (hstream hw).symm
  | response commitVersion mutationResults =>
      obtain ⟨w, hw, h⟩ := Option.bind_eq_some_iff.mp h
      exact (isNetworkEnabled_handleStreamMessage h).trans (hstream hw).symm
  | streamClose error =>
      obtain ⟨w, hw, h⟩ := Option.bind_eq_some_iff.mp h
      obtain ⟨closed, -, h⟩ := Option.bind_eq_some_iff.mp h
      exact (isNetworkEnabled_streamClosed h).trans (hstream hw).symm
  | remoteEvent snapshotVersion documentUpdates =>
      obtain ⟨r, -, rfl⟩ := Option.map_eq_some_iff.mp h
      rfl
  | allocateQuery targetID =>
      obtain ⟨s, -, rfl⟩ := Option.map_eq_some_iff.mp h
      rfl
  | releaseQuery targetID =>
      obtain ⟨s, -, rfl⟩ := Option.map_eq_some_iff.mp h
      rfl
  | launch initialUser =>
      obtain ⟨s, -, h⟩ := Option.bind_eq_some_iff.mp h
      exact isNetworkEnabled_enableNetwork h

/-- Along a run only the events count that the app has asked for. -/
theorem isNetworkEnabled_run {es : List (ClientEvent κ υ γ)} (h : run step c es = some c') :
    c'.isNetworkEnabled =
      (es.filter ClientEvent.IsUntargeted).foldl networkAfter c.isNetworkEnabled := by
  induction es generalizing c with
  | nil =>
      cases h
      rfl
  | cons e es ih =>
      obtain ⟨c₁, hstep, hrun⟩ := run_cons_eq_some.mp h
      rw [ih hrun, isNetworkEnabled_step hstep]
      cases e <;> rfl

end FirestoreClient

/-- Whatever is read, the network is what the app has asked for. -/
theorem ReadingClient.isNetworkEnabled_step {κ υ Q γ : Type} [LinearOrder κ] [DecidableEq υ]
    [MutationQueue κ Q] [UserQueues υ Q] [LawfulUserQueues κ υ Q] {c c' : ReadingClient κ υ Q γ}
    {pending : υ → Pending κ} (h : c.Invariant pending) {e : ReadingEvent κ υ γ} (he : c.Enabled e)
    (hstep : c.step e = some c') : c'.client.isNetworkEnabled =
      e.own.foldl FirestoreClient.networkAfter c.client.isNetworkEnabled := by
  obtain ⟨es, -, hrun, hown⟩ := client_step h he hstep
  rw [FirestoreClient.isNetworkEnabled_run hrun, hown]

end CocoMap
