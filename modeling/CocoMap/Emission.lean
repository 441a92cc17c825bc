import CocoMap.Delivery

/-!
# What the views are told

A step of the client does at most one operation on the local store that can change what the
app sees, and hands the changes that the operation reports to the views.  The network does
not touch the store at all (`RemoteOnly`).

Two events are not told: a query that is released may release held results with it, but then
nobody listens any more; and a new process has no views.
-/

namespace CocoMap

namespace LocalStore

variable {κ υ Q : Type} [LinearOrder κ] [MutationQueue κ Q] {s s' : LocalStore κ Q}

/-! ## The targets

Only a query that starts or stops changes the targets. -/

theorem targetIDs_releaseBatchResults {rs : List (MutationBatchResult κ)} {keys : Finset κ}
    (h : s.releaseBatchResults rs = some (keys, s')) : s'.targetIDs = s.targetIDs := by
  obtain ⟨cache, -, h⟩ := Option.bind_eq_some_iff.mp h
  obtain ⟨q, -, h⟩ := Option.map_eq_some_iff.mp h
  cases h
  rfl

theorem targetIDs_releaseHeldBatchResults {keys : Finset κ}
    (h : s.releaseHeldBatchResults = some (keys, s')) : s'.targetIDs = s.targetIDs := by
  unfold releaseHeldBatchResults at h
  dsimp only at h
  split at h
  · cases h
    rfl
  · exact (targetIDs_releaseBatchResults h).trans rfl

omit [LinearOrder κ] in
theorem targetIDs_startMutationQueue (h : s.startMutationQueue = some s') :
    s'.targetIDs = s.targetIDs := by
  obtain ⟨q, -, h⟩ := Option.bind_eq_some_iff.mp h
  dsimp only at h
  split at h
  · split at h
    · obtain ⟨q', -, h⟩ := Option.bind_eq_some_iff.mp h
      cases h
      rfl
    · cases h
      rfl
  · cases h
    rfl

theorem targetIDs_userDidChange [UserQueues υ Q] {user : υ} {changes : Changes κ}
    (h : s.userDidChange user = some (changes, s')) : s'.targetIDs = s.targetIDs := by
  obtain ⟨s₁, hstart, h⟩ := Option.bind_eq_some_iff.mp h
  obtain ⟨changes', -, h⟩ := Option.bind_eq_some_iff.mp h
  cases h
  exact (targetIDs_startMutationQueue hstart).trans rfl

theorem targetIDs_locallyWriteMutations {mutations : List (Mutation κ)} {result : ℤ × Changes κ}
    (h : s.locallyWriteMutations mutations = some (result, s')) : s'.targetIDs = s.targetIDs := by
  obtain ⟨⟨batch, q⟩, -, h⟩ := Option.bind_eq_some_iff.mp h
  obtain ⟨changes, -, h⟩ := Option.bind_eq_some_iff.mp h
  cases h
  rfl

theorem targetIDs_acknowledgeBatchWithResult {r : MutationBatchResult κ} {changes : Changes κ}
    (h : s.acknowledgeBatchWithResult r = some (changes, s')) : s'.targetIDs = s.targetIDs := by
  obtain ⟨q, -, h⟩ := Option.bind_eq_some_iff.mp h
  -- the result is held, or released
  dsimp only at h
  split at h
  · obtain ⟨⟨affected, s₂⟩, hhold, h⟩ := Option.bind_eq_some_iff.mp h
    obtain ⟨_, -, h⟩ := Option.bind_eq_some_iff.mp h
    obtain ⟨changes', -, h⟩ := Option.bind_eq_some_iff.mp h
    cases h
    cases hhold
    rfl
  · obtain ⟨⟨affected, s₂⟩, hrelease, h⟩ := Option.bind_eq_some_iff.mp h
    obtain ⟨_, -, h⟩ := Option.bind_eq_some_iff.mp h
    obtain ⟨changes', -, h⟩ := Option.bind_eq_some_iff.mp h
    cases h
    exact (targetIDs_releaseBatchResults hrelease).trans rfl

theorem targetIDs_rejectBatchID {batchID : ℤ} {changes : Changes κ}
    (h : s.rejectBatchID batchID = some (changes, s')) : s'.targetIDs = s.targetIDs := by
  obtain ⟨batch, -, h⟩ := Option.bind_eq_some_iff.mp h
  obtain ⟨_, -, h⟩ := Option.bind_eq_some_iff.mp h
  obtain ⟨⟨affected, s₁⟩, hremove, h⟩ := Option.bind_eq_some_iff.mp h
  obtain ⟨_, -, h⟩ := Option.bind_eq_some_iff.mp h
  obtain ⟨changes', -, h⟩ := Option.bind_eq_some_iff.mp h
  cases h
  obtain ⟨q, -, h⟩ := Option.map_eq_some_iff.mp hremove
  cases h
  rfl

theorem targetIDs_applyRemoteEvent {snapshotVersion : SnapshotVersion}
    {documentUpdates : SortedMap κ MaybeDocument} {changes : Changes κ}
    (h : s.applyRemoteEvent snapshotVersion documentUpdates = some (changes, s')) :
    s'.targetIDs = s.targetIDs := by
  obtain ⟨_, -, h⟩ := Option.bind_eq_some_iff.mp h
  obtain ⟨⟨released, s₁⟩, hrelease, h⟩ := Option.bind_eq_some_iff.mp h
  obtain ⟨changes', -, h⟩ := Option.bind_eq_some_iff.mp h
  cases h
  exact (targetIDs_releaseHeldBatchResults hrelease).trans rfl

end LocalStore

namespace FirestoreClient

variable {κ υ Q γ : Type} [LinearOrder κ] [DecidableEq υ] [MutationQueue κ Q]
  {c c' c₁ : FirestoreClient κ υ Q γ}

/-! ## The network -/

/-- The two clients differ in the remote store only. -/
def RemoteOnly (c c' : FirestoreClient κ υ Q γ) : Prop := ∃ r, c' = { c with remoteStore := r }

section RemoteOnly

omit [LinearOrder κ] [DecidableEq υ] [MutationQueue κ Q]

theorem RemoteOnly.refl (c : FirestoreClient κ υ Q γ) : c.RemoteOnly c := ⟨_, rfl⟩

theorem RemoteOnly.trans (h : c.RemoteOnly c₁) (h' : c₁.RemoteOnly c') : c.RemoteOnly c' := by
  obtain ⟨r, rfl⟩ := h
  obtain ⟨r', rfl⟩ := h'
  exact ⟨r', rfl⟩

theorem RemoteOnly.localStore (h : c.RemoteOnly c') : c'.localStore = c.localStore := by
  obtain ⟨r, rfl⟩ := h
  rfl

theorem RemoteOnly.emitted (h : c.RemoteOnly c') : c'.emitted = c.emitted := by
  obtain ⟨r, rfl⟩ := h
  rfl

theorem remoteOnly_setWriteStream (c : FirestoreClient κ υ Q γ) (w : WriteStream κ) :
    c.RemoteOnly (c.setWriteStream w) := ⟨_, rfl⟩

theorem remoteOnly_disableNetwork (h : c.disableNetwork = some c') : c.RemoteOnly c' := by
  unfold disableNetwork at h
  split at h
  · cases h
    exact .refl c
  · obtain ⟨w, -, rfl⟩ := Option.map_eq_some_iff.mp h
    exact ⟨_, rfl⟩

theorem remoteOnly_writeStreamDidCompleteHandshake {w : WriteStream κ}
    (h : c.writeStreamDidCompleteHandshake w = some c') : c.RemoteOnly c' := by
  obtain ⟨w', -, rfl⟩ := Option.map_eq_some_iff.mp h
  exact remoteOnly_setWriteStream c w'

end RemoteOnly

omit [LinearOrder κ] [DecidableEq υ] in
theorem remoteOnly_fillWritePipeline (h : c.fillWritePipeline = some c') : c.RemoteOnly c' := by
  obtain ⟨r, -, rfl⟩ := Option.map_eq_some_iff.mp h
  exact ⟨r, rfl⟩

omit [LinearOrder κ] [DecidableEq υ] in
theorem remoteOnly_enableNetwork (h : c.enableNetwork = some c') : c.RemoteOnly c' := by
  unfold enableNetwork at h
  split at h
  · cases h
    exact .refl c
  · exact (remoteOnly_setWriteStream c .init).trans (remoteOnly_fillWritePipeline h)

/-! ## The views -/

/-- What a step hands to the views: nothing, if it leaves the store alone, or what the one operation
on the store reports. -/
inductive Told (c c' : FirestoreClient κ υ Q γ) : Prop
  | nothing (localStore : c'.localStore = c.localStore) (emitted : c'.emitted = c.emitted)
  | changes (changes : Changes κ) (reports : LocalStore.Reports c.localStore c'.localStore changes)
      (targetIDs : c'.localStore.targetIDs = c.localStore.targetIDs)
      (emitted : c'.emitted = c.emitted ++ [changes])

section Told

omit [DecidableEq υ]

theorem RemoteOnly.told (h : c.RemoteOnly c') : c.Told c' := .nothing h.localStore h.emitted

/-- The network does not show. -/
theorem Told.of_remoteOnly {d d' : FirestoreClient κ υ Q γ} (h : c.Told c') (hbefore : d.RemoteOnly c)
    (hafter : c'.RemoteOnly d') : d.Told d' := by
  cases h with
  | nothing localStore emitted =>
      exact .nothing (hafter.localStore.trans (localStore.trans hbefore.localStore))
        (hafter.emitted.trans (emitted.trans hbefore.emitted))
  | changes changes reports targetIDs emitted =>
      rw [hbefore.localStore] at reports targetIDs
      rw [hbefore.emitted] at emitted
      exact .changes changes (hafter.localStore ▸ reports) (hafter.localStore ▸ targetIDs)
        (hafter.emitted.trans emitted)

end Told

section Answers

theorem acknowledge_of_applySuccessfulWrite {r : MutationBatchResult κ}
    (h : c.applySuccessfulWrite r = some c') :
    ∃ changes, c.localStore.acknowledgeBatchWithResult r = some (changes, c'.localStore) ∧
      c'.emitted = c.emitted ++ [changes] := by
  obtain ⟨⟨changes, s'⟩, hack, rfl⟩ := Option.map_eq_some_iff.mp h
  rw [localStore_processUserCallbacks] at hack
  exact ⟨changes, hack, by rw [emitNewSnapshots, ← emitted_processUserCallbacks c]⟩

theorem reject_of_rejectFailedWrite {batchID : ℤ} {error : FirestoreErrorCode}
    (h : c.rejectFailedWrite batchID error = some c') :
    ∃ changes, c.localStore.rejectBatchID batchID = some (changes, c'.localStore) ∧
      c'.emitted = c.emitted ++ [changes] := by
  obtain ⟨⟨changes, s'⟩, hreject, rfl⟩ := Option.map_eq_some_iff.mp h
  rw [localStore_processUserCallbacks] at hreject
  exact ⟨changes, hreject, by rw [emitNewSnapshots, ← emitted_processUserCallbacks c]⟩

/-- An answer to a write goes to the store as the result of the first pending write. -/
theorem acknowledge_of_writeStreamDidReceiveResponse {commitVersion : SnapshotVersion}
    {mutationResults : List MutationResult}
    (h : c.writeStreamDidReceiveResponse commitVersion mutationResults = some c') :
    ∃ batch r changes, c.remoteStore.pendingWrites.head? = some batch ∧
      MutationBatchResult.resultWithBatch batch commitVersion mutationResults = some r ∧
      c.localStore.acknowledgeBatchWithResult r = some (changes, c'.localStore) ∧
      c'.emitted = c.emitted ++ [changes] := by
  obtain ⟨batch, hhead, h⟩ := Option.bind_eq_some_iff.mp h
  obtain ⟨r, hr, h⟩ := Option.bind_eq_some_iff.mp h
  obtain ⟨c₁, happly, hfill⟩ := Option.bind_eq_some_iff.mp h
  obtain ⟨changes, hack, hemitted⟩ := acknowledge_of_applySuccessfulWrite happly
  have hremote := remoteOnly_fillWritePipeline hfill
  exact ⟨batch, r, changes, hhead, hr, hremote.localStore ▸ hack, hremote.emitted.trans hemitted⟩

/-- After an interruption the write stream may be started again. -/
theorem handleInterruption_of_interrupted {error : Option FirestoreErrorCode}
    (h : c.writeStreamWasInterrupted error = some c') :
    ∃ w c₁, w ∈ c.remoteStore.writeStream ∧ c.handleInterruption w error = some c₁ ∧
      c₁.RemoteOnly c' := by
  obtain ⟨w, hw, h⟩ := Option.bind_eq_some_iff.mp h
  obtain ⟨c₁, hhandle, h⟩ := Option.bind_eq_some_iff.mp h
  refine ⟨w, c₁, hw, hhandle, ?_⟩
  split at h
  · obtain ⟨r, -, rfl⟩ := Option.map_eq_some_iff.mp h
    exact ⟨r, rfl⟩
  · cases h
    exact .refl _

end Answers

variable [UserQueues υ Q] [LawfulUserQueues κ υ Q] {pending : υ → Pending κ}

/-- An error of a write goes to the store as the rejection of the first pending write. -/
theorem told_handleInterruption (hstore : c.localStore.Valid pending)
    (huser : c.localStore.user = c.currentUser) (hfills : c.remoteStore.Fills (pending c.currentUser))
    {w : WriteStream κ} {error : Option FirestoreErrorCode}
    (h : c.handleInterruption w error = some c') : c.Told c' := by
  cases error with
  | none =>
      cases h
      exact (RemoteOnly.refl c).told
  | some error =>
      unfold handleInterruption at h
      dsimp only at h
      split at h
      · split at h
        · unfold handleWriteError at h
          split at h
          · cases h
            exact (RemoteOnly.refl c).told
          · obtain ⟨batch, hhead, h⟩ := Option.bind_eq_some_iff.mp h
            obtain ⟨w', -, h⟩ := Option.bind_eq_some_iff.mp h
            obtain ⟨c₁, hreject, hfill⟩ := Option.bind_eq_some_iff.mp h
            obtain ⟨changes, hreject, hemitted⟩ := reject_of_rejectFailedWrite hreject
            obtain ⟨rest, hpending⟩ := List.head?_eq_some_iff.mp hhead
            obtain ⟨unacknowledged, hunack, -⟩ := hfills.answer hpending
            obtain ⟨changes', s', hreject', -, -, -, -, hreports⟩ :=
              LocalStore.rejectBatchID_spec hstore
                (show (pending c.localStore.user).unacknowledged = [] ++ batch :: unacknowledged by
                  rw [huser, hunack, List.nil_append])
            have hreject : c.localStore.rejectBatchID batch.batchID = some (changes, c₁.localStore) :=
              hreject
            rw [hreject, Option.some_inj, Prod.mk.injEq] at hreject'
            obtain ⟨rfl, rfl⟩ := hreject'
            exact Told.of_remoteOnly (c := c)
              (.changes changes hreports (LocalStore.targetIDs_rejectBatchID hreject) hemitted)
              (.refl c) (remoteOnly_fillWritePipeline hfill)
        · cases h
          exact (RemoteOnly.refl c).told
      · cases h
        exact (RemoteOnly.refl c).told

theorem told_streamClosed (h : c.Invariant pending)
    {closed : WriteStream κ × Option (Option FirestoreErrorCode)}
    (hstep : c.streamClosed closed = some c') : c.Told c' := by
  unfold streamClosed at hstep
  dsimp only at hstep
  split at hstep
  · cases hstep
    exact (remoteOnly_setWriteStream c closed.1).told
  · obtain ⟨w, c₁, hw, hhandle, hremote⟩ := handleInterruption_of_interrupted hstep
    have htold := told_handleInterruption (c := c.setWriteStream closed.1) h.store h.user
      (h.filled.fills.setWriteStream _) hhandle
    exact htold.of_remoteOnly (remoteOnly_setWriteStream c closed.1) hremote

theorem told_response (h : c.Invariant pending) {w : WriteStream κ} {commitVersion : SnapshotVersion}
    {mutationResults : List MutationResult}
    (hstep : c.handleStreamMessage w commitVersion mutationResults = some c') : c.Told c' := by
  unfold handleStreamMessage at hstep
  dsimp only at hstep
  split at hstep
  · exact (remoteOnly_writeStreamDidCompleteHandshake hstep).told
  · obtain ⟨batch, r, changes, hhead, hr, hack, hemitted⟩ :=
      acknowledge_of_writeStreamDidReceiveResponse hstep
    have hhead : c.remoteStore.pendingWrites.head? = some batch := hhead
    have hack : c.localStore.acknowledgeBatchWithResult r = some (changes, c'.localStore) := hack
    obtain ⟨rest, hpending⟩ := List.head?_eq_some_iff.mp hhead
    obtain ⟨unacknowledged, hunack, -⟩ := h.flows.fills.answer hpending
    obtain rfl := MutationBatchResult.batch_eq hr
    obtain ⟨-, changes', -, s', -, hack', -, -, -, -, hreports⟩ :=
      LocalStore.acknowledgeBatchWithResult_spec h.store
        (show (pending c.localStore.user).unacknowledged = r.batch :: unacknowledged by
          rw [h.user, hunack])
        fun key hkey => MutationBatchResult.docVersions_ne_none hr hkey
    rw [hack, Option.some_inj, Prod.mk.injEq] at hack'
    obtain ⟨rfl, rfl⟩ := hack'
    exact .changes changes hreports (LocalStore.targetIDs_acknowledgeBatchWithResult hack) hemitted

/-! ## The step lemma -/

/-- **What the views are told by a step**, unless it starts a process or a query, or stops one. -/
theorem step_told (h : c.Invariant pending) {e : ClientEvent κ υ γ} (he : c.Enabled e)
    (hlaunch : ∀ user, e ≠ .launch user) (hallocate : ∀ targetID, e ≠ .allocateQuery targetID)
    (hrelease : ∀ targetID, e ≠ .releaseQuery targetID) (hstep : c.step e = some c') : c.Told c' := by
  cases e with
  | launch user => exact absurd rfl (hlaunch user)
  | allocateQuery targetID => exact absurd rfl (hallocate targetID)
  | releaseQuery targetID => exact absurd rfl (hrelease targetID)
  | enableNetwork => exact (remoteOnly_enableNetwork hstep).told
  | disableNetwork => exact (remoteOnly_disableNetwork hstep).told
  | writeMutations mutations completion =>
      obtain ⟨changes, s', hwrite, -, -, -, -, hreports⟩ :=
        LocalStore.locallyWriteMutations_spec h.store he
      simp only [step, writeMutations, hwrite, Option.bind_eq_bind, Option.bind_some] at hstep
      exact Told.of_remoteOnly (c := c)
        (.changes changes hreports (LocalStore.targetIDs_locallyWriteMutations hwrite) rfl) (.refl c)
        (remoteOnly_fillWritePipeline hstep)
  | userDidChange user =>
      obtain ⟨changes, s', p', hchange, -, -, -, -, -, -, hreports⟩ :=
        LocalStore.userDidChange_spec h.store user
      simp only [step, userDidChange, hchange, Option.bind_eq_bind, Option.bind_some] at hstep
      have htold : c.Told ({ c with localStore := s', currentUser := user }.emitNewSnapshots changes) :=
        .changes changes hreports (LocalStore.targetIDs_userDidChange hchange) rfl
      split at hstep
      · obtain ⟨c₁, hdisable, henable⟩ := Option.bind_eq_some_iff.mp hstep
        exact htold.of_remoteOnly (.refl c)
          ((remoteOnly_disableNetwork hdisable).trans (remoteOnly_enableNetwork henable))
      · cases hstep
        exact htold
  | token error =>
      obtain ⟨w, -, hstep⟩ := Option.bind_eq_some_iff.mp hstep
      cases error with
      | some error =>
          obtain ⟨closed, -, hclosed⟩ := Option.bind_eq_some_iff.mp hstep
          exact told_streamClosed h hclosed
      | none =>
          obtain ⟨⟨w₁, isOpen⟩, -, hopen⟩ := Option.bind_eq_some_iff.mp hstep
          dsimp only at hopen
          split at hopen
          · obtain ⟨w', -, rfl⟩ := Option.map_eq_some_iff.mp hopen
            exact (remoteOnly_setWriteStream c w').told
          · cases hopen
            exact (remoteOnly_setWriteStream c w₁).told
  | backoffElapsed =>
      obtain ⟨w, -, hstep⟩ := Option.bind_eq_some_iff.mp hstep
      obtain ⟨w', -, rfl⟩ := Option.map_eq_some_iff.mp hstep
      exact (remoteOnly_setWriteStream c w').told
  | idleTimeout =>
      obtain ⟨w, -, hstep⟩ := Option.bind_eq_some_iff.mp hstep
      obtain ⟨closed, -, hclosed⟩ := Option.bind_eq_some_iff.mp hstep
      exact told_streamClosed h hclosed
  | streamClose error =>
      obtain ⟨w, -, hstep⟩ := Option.bind_eq_some_iff.mp hstep
      obtain ⟨closed, -, hclosed⟩ := Option.bind_eq_some_iff.mp hstep
      exact told_streamClosed h hclosed
  | response commitVersion mutationResults =>
      obtain ⟨w, -, hstep⟩ := Option.bind_eq_some_iff.mp hstep
      exact told_response h hstep
  | remoteEvent snapshotVersion documentUpdates =>
      obtain ⟨changes, rs, s', p', happly, -, -, -, -, hreports⟩ :=
        LocalStore.applyRemoteEvent_spec h.store he documentUpdates
      rw [step, happly, Option.map_some, Option.some_inj] at hstep
      subst hstep
      exact .changes changes hreports (LocalStore.targetIDs_applyRemoteEvent happly) rfl

end FirestoreClient

end CocoMap
