import CocoMap.Lib.Outbox
import CocoMap.FirestoreClient

/-!
# Delivery

A client is an outbox: the unanswered requests of a user are his unacknowledged batches,
with the handlers registered for them.  `Invariant` is what holds between any two events,
and `step_refines` says that on every event that can happen no assertion fails and the
outbox takes the step that `outcome` names.

It follows that along every run, whatever the order of the events, the requests of every
user are answered in the order in which he wrote them, across reconnections, changes of the
user and restarts.
-/

namespace CocoMap

open Transition

namespace FirestoreClient

variable {κ υ Q γ : Type} [LinearOrder κ] [DecidableEq υ] [MutationQueue κ Q] [UserQueues υ Q]
  [LawfulUserQueues κ υ Q]

/-- What holds of a client whose write stream may have been interrupted. -/
structure Interrupted (c : FirestoreClient κ υ Q γ) (pending : υ → Pending κ) : Prop where
  store : c.localStore.Valid pending
  user : c.localStore.user = c.currentUser
  filled : c.remoteStore.Filled (pending c.currentUser)
  blocks : ∀ v batchID, c.mutationCompletionBlocks v batchID ≠ none →
    ∃ b ∈ (pending v).unacknowledged, b.batchID = batchID

/-- **What holds between two events.** -/
structure Invariant (c : FirestoreClient κ υ Q γ) (pending : υ → Pending κ) : Prop
    extends Interrupted c pending where
  running : c.remoteStore.Running

/-- The requests of a user that are not answered, with their handlers. -/
def unanswered (c : FirestoreClient κ υ Q γ) (pending : υ → Pending κ) (v : υ) :
    List (List (Mutation κ) × Option γ) :=
  (pending v).unacknowledged.map fun b => (b.mutations, c.mutationCompletionBlocks v b.batchID)

/-- The outbox that a client is. -/
structure Refines (c : FirestoreClient κ υ Q γ) (pending : υ → Pending κ)
    (o : Outbox υ (List (Mutation κ)) γ FirestoreErrorCode) : Prop where
  user : o.user = c.currentUser
  unanswered : ∀ v, o.unanswered v = c.unanswered pending v
  called : o.called = c.called

/-- The outbox of a client of which nothing has been recorded. -/
def outbox (c : FirestoreClient κ υ Q γ) (pending : υ → Pending κ) :
    Outbox υ (List (Mutation κ)) γ FirestoreErrorCode where
  user := c.currentUser
  unanswered := c.unanswered pending
  issued := []
  answered := []
  called := c.called

omit [LinearOrder κ] [DecidableEq υ] [MutationQueue κ Q] [UserQueues υ Q]
  [LawfulUserQueues κ υ Q] in
theorem refines_outbox (c : FirestoreClient κ υ Q γ) (pending : υ → Pending κ) :
    c.Refines pending (c.outbox pending) := ⟨rfl, fun _ => rfl, rfl⟩

/-- The error is of the oldest pending write, which is rejected. -/
def rejects (c : FirestoreClient κ υ Q γ) (error : FirestoreErrorCode) : Bool :=
  c.remoteStore.writeStream.any WriteStream.handshakeComplete &&
    !c.remoteStore.pendingWrites.isEmpty && error.isPermanentWriteError

/-- What the end of an RPC means for the outbox. -/
def interruption (c : FirestoreClient κ υ Q γ) :
    Option FirestoreErrorCode → Outbox.Event υ (List (Mutation κ)) γ FirestoreErrorCode
  | none => .skip
  | some error => if c.rejects error then .answer (some error) else .skip

/-- What an event means for the outbox. -/
def outcome (c : FirestoreClient κ υ Q γ) :
    ClientEvent κ υ γ → Outbox.Event υ (List (Mutation κ)) γ FirestoreErrorCode
  | .writeMutations mutations completion => .issue mutations completion
  | .userDidChange user => .change user
  | .launch initialUser => .restart initialUser
  | .response _ _ =>
      if c.remoteStore.writeStream.any WriteStream.handshakeComplete then .answer none else .skip
  | .token error => c.interruption error
  | .streamClose error => c.interruption error
  | _ => .skip

variable {c : FirestoreClient κ υ Q γ} {pending pending' : υ → Pending κ}
  {o : Outbox υ (List (Mutation κ)) γ FirestoreErrorCode}

omit [DecidableEq υ] in
theorem Invariant.flows (h : c.Invariant pending) :
    c.remoteStore.Flows (pending c.currentUser) := { h.filled with running := h.running }

omit [DecidableEq υ] in
theorem Invariant.of_flows (store : c.localStore.Valid pending)
    (user : c.localStore.user = c.currentUser) (flows : c.remoteStore.Flows (pending c.currentUser))
    (blocks : ∀ v batchID, c.mutationCompletionBlocks v batchID ≠ none →
      ∃ b ∈ (pending v).unacknowledged, b.batchID = batchID) : c.Invariant pending :=
  { store, user, filled := flows.toFilled, blocks, running := flows.running }

omit [DecidableEq υ] in
/-- Between an event and its end the pipeline may have to be filled. -/
theorem fillWritePipeline_filled (hstore : c.localStore.Valid pending)
    (huser : c.localStore.user = c.currentUser)
    (hfillable : c.remoteStore.Fillable (pending c.currentUser)) :
    ∃ r, c.fillWritePipeline = some { c with remoteStore := r } ∧
      r.Filled (pending c.currentUser) ∧ (c.remoteStore.Running → r.Running) ∧
      r.isNetworkEnabled = c.remoteStore.isNetworkEnabled := by
  obtain ⟨r, hfill, hfilled, hrunning, henabled⟩ :=
    RemoteStore.Fillable.fillWritePipeline (s := c.localStore) (huser ▸ hfillable) hstore
  refine ⟨r, ?_, huser ▸ hfilled, hrunning, henabled⟩
  rw [FirestoreClient.fillWritePipeline, hfill, Option.map_some]

/-! ## The app writes -/

omit [LinearOrder κ] [MutationQueue κ Q] [UserQueues υ Q] [LawfulUserQueues κ υ Q] in
/-- A handler is registered for a new batch. -/
theorem unanswered_add (c : FirestoreClient κ υ Q γ) (pending : υ → Pending κ)
    {mutations : List (Mutation κ)} (hne : mutations ≠ []) (completion : γ) :
    (c.setCompletionBlock (pending c.currentUser).nextBatchID (some completion)).unanswered
        (Function.update pending c.currentUser ((pending c.currentUser).add mutations hne)) =
      Function.update (c.unanswered pending) c.currentUser
        (c.unanswered pending c.currentUser ++ [(mutations, some completion)]) := by
  funext v
  by_cases hv : v = c.currentUser
  · subst hv
    -- the handlers registered before are of other batches
    have hold : ((pending c.currentUser).unacknowledged.map fun b => (b.mutations,
        Function.update (c.mutationCompletionBlocks c.currentUser)
          (pending c.currentUser).nextBatchID (some completion) b.batchID)) =
            c.unanswered pending c.currentUser := by
      refine List.map_congr_left fun b hb => ?_
      rw [Function.update_of_ne
        ((pending c.currentUser).bounded b (Pending.mem_unacknowledged.mp hb).1).2.ne]
    have hnew : Function.update (c.mutationCompletionBlocks c.currentUser)
        (pending c.currentUser).nextBatchID (some completion)
        ((pending c.currentUser).nextBatch mutations).batchID = some completion :=
      Function.update_self ..
    rw [unanswered, setCompletionBlock_self, Function.update_self, Function.update_self,
      Pending.unacknowledged_add, List.map_append, List.map_singleton, hnew, hold]
    rfl
  · rw [unanswered, setCompletionBlock_of_ne c _ _ hv, Function.update_of_ne hv,
      Function.update_of_ne hv]
    rfl

theorem writeMutations_refines (h : c.Invariant pending) (ho : c.Refines pending o)
    {mutations : List (Mutation κ)} (hne : mutations ≠ []) (completion : γ) :
    ∃ c' pending' o', c.writeMutations mutations completion = some c' ∧ c'.Invariant pending' ∧
      o.step (.issue mutations completion) = some o' ∧ c'.Refines pending' o' := by
  obtain ⟨changes, s', hwrite, huser', hstore', -, -, -⟩ :=
    LocalStore.locallyWriteMutations_spec h.store hne
  rw [h.user] at hwrite huser' hstore'
  set p' := (pending c.currentUser).add mutations hne with hp'
  set pending' := Function.update pending c.currentUser p' with hpending'
  have hself : pending' c.currentUser = p' := Function.update_self ..
  let c₁ : FirestoreClient κ υ Q γ :=
    ({ c with localStore := s' }.setCompletionBlock (pending c.currentUser).nextBatchID
      (some completion)).emitNewSnapshots changes
  have hfillable : c₁.remoteStore.Fillable (pending' c₁.currentUser) := by
    change c.remoteStore.Fillable (pending' c.currentUser)
    rw [hself]
    exact h.flows.toFillable.add hne
  obtain ⟨r, hfill, hfilled, hrunning, -⟩ := fillWritePipeline_filled (c := c₁) hstore' huser' hfillable
  refine ⟨{ c₁ with remoteStore := r }, pending', _, ?_, ?_, rfl, ?_⟩
  · simp only [writeMutations, hwrite, Option.bind_eq_bind, Option.bind_some]
    exact hfill
  · refine .of_flows hstore' huser' { hfilled with running := hrunning h.running } ?_
    intro v batchID hblock
    change c₁.mutationCompletionBlocks v batchID ≠ none at hblock
    by_cases hv : v = c.currentUser
    · subst hv
      rw [show c₁.mutationCompletionBlocks c.currentUser = _ from setCompletionBlock_self ..] at hblock
      rw [hself, hp', Pending.unacknowledged_add]
      by_cases hid : batchID = (pending c.currentUser).nextBatchID
      · exact ⟨(pending c.currentUser).nextBatch mutations, by simp, hid.symm⟩
      · rw [Function.update_of_ne hid] at hblock
        obtain ⟨b, hb, hbid⟩ := h.blocks c.currentUser batchID hblock
        exact ⟨b, List.mem_append_left _ hb, hbid⟩
    · rw [show c₁.mutationCompletionBlocks v = _ from setCompletionBlock_of_ne _ _ _ hv] at hblock
      rw [hpending', Function.update_of_ne hv]
      exact h.blocks v batchID hblock
  · refine ⟨ho.user, fun v => ?_, ho.called⟩
    have hunanswered := congrFun (unanswered_add c pending hne completion) v
    change Function.update o.unanswered o.user _ v = _
    rw [ho.user, show o.unanswered = c.unanswered pending from funext ho.unanswered]
    exact hunanswered.symm

/-! ## What the outbox does not see -/

omit [LinearOrder κ] [DecidableEq υ] [MutationQueue κ Q] [UserQueues υ Q]
  [LawfulUserQueues κ υ Q] in
/-- The outbox depends on the unacknowledged batches and their handlers only. -/
theorem Refines.of_unacknowledged {c' : FirestoreClient κ υ Q γ} (ho : c.Refines pending o)
    (huser : c'.currentUser = c.currentUser)
    (hblocks : c'.mutationCompletionBlocks = c.mutationCompletionBlocks)
    (hcalled : c'.called = c.called)
    (hunack : ∀ v, (pending' v).unacknowledged = (pending v).unacknowledged) :
    c'.Refines pending' o where
  user := ho.user.trans huser.symm
  unanswered v := by rw [ho.unanswered, FirestoreClient.unanswered, FirestoreClient.unanswered, hunack, hblocks]
  called := ho.called.trans hcalled.symm

omit [LinearOrder κ] in
/-- The queue of the user may change, as long as its unacknowledged batches do not. -/
theorem unacknowledged_update (pending : υ → Pending κ) {p' : Pending κ} {u : υ}
    (h : p'.unacknowledged = (pending u).unacknowledged) (v : υ) :
    (Function.update pending u p' v).unacknowledged = (pending v).unacknowledged := by
  by_cases hv : v = u
  · rw [hv, Function.update_self, h]
  · rw [Function.update_of_ne hv]

/-- The store changes, and the outbox stays. -/
theorem Invariant.setLocalStore (h : c.Invariant pending) (ho : c.Refines pending o)
    {s' : LocalStore κ Q} {p' : Pending κ} (huser : s'.user = c.localStore.user)
    (hstore : s'.Valid (Function.update pending c.localStore.user p'))
    (hunack : p'.unacknowledged = (pending c.localStore.user).unacknowledged)
    (hnext : p'.nextBatchID = (pending c.localStore.user).nextBatchID)
    (emitted : List (Changes κ)) :
    ∃ pending', ({ c with localStore := s', emitted } : FirestoreClient κ υ Q γ).Invariant pending' ∧
      ({ c with localStore := s', emitted } : FirestoreClient κ υ Q γ).Refines pending' o := by
  have hsame := unacknowledged_update pending hunack
  refine ⟨_, .of_flows hstore (huser.trans h.user) ?_ fun v batchID hblock => ?_,
    ho.of_unacknowledged rfl rfl rfl hsame⟩
  · refine h.flows.of_unacknowledged (hsame c.currentUser) ?_
    rw [← h.user, Function.update_self, hnext]
  · rw [hsame v]
    exact h.blocks v batchID hblock

theorem remoteEvent_refines (h : c.Invariant pending) (ho : c.Refines pending o)
    {snapshotVersion : SnapshotVersion}
    (hversion : snapshotVersion = .noVersion ∨
      c.localStore.lastRemoteSnapshotVersion ≤ snapshotVersion)
    (documentUpdates : SortedMap κ MaybeDocument) :
    ∃ c' pending', c.step (.remoteEvent snapshotVersion documentUpdates) = some c' ∧
      c'.Invariant pending' ∧ c'.Refines pending' o := by
  obtain ⟨changes, rs, s', p', happly, huser, hvalid, hreleases, -, -⟩ :=
    LocalStore.applyRemoteEvent_spec h.store hversion documentUpdates
  obtain ⟨pending', hinvariant, hrefines⟩ := h.setLocalStore ho huser hvalid
    hreleases.unacknowledged hreleases.nextBatchID (c.emitted ++ [changes])
  refine ⟨_, pending', ?_, hinvariant, hrefines⟩
  rw [step, happly, Option.map_some]
  rfl

theorem releaseQuery_refines (h : c.Invariant pending) (ho : c.Refines pending o) (targetID : ℤ) :
    ∃ c' pending', c.step (.releaseQuery targetID) = some c' ∧ c'.Invariant pending' ∧
      c'.Refines pending' o := by
  obtain ⟨rs, s', p', hrelease, huser, hvalid, hreleases, -⟩ :=
    LocalStore.releaseQuery_spec h.store targetID
  obtain ⟨pending', hinvariant, hrefines⟩ := h.setLocalStore ho huser hvalid
    hreleases.unacknowledged hreleases.nextBatchID c.emitted
  refine ⟨_, pending', ?_, hinvariant, hrefines⟩
  rw [step, hrelease, Option.map_some]

theorem allocateQuery_refines (h : c.Invariant pending) (ho : c.Refines pending o) {targetID : ℤ}
    (htarget : targetID ∉ c.localStore.targetIDs) :
    ∃ c', c.step (.allocateQuery targetID) = some c' ∧ c'.Invariant pending ∧
      c'.Refines pending o := by
  obtain ⟨hallocate, hvalid⟩ := LocalStore.allocateQuery_spec h.store htarget
  refine ⟨{ c with localStore :=
    { c.localStore with targetIDs := targetID :: c.localStore.targetIDs } }, ?_,
    Invariant.of_flows hvalid h.user h.flows h.blocks, ho.of_unacknowledged rfl rfl rfl fun _ => rfl⟩
  rw [step, hallocate, Option.map_some]

/-! ## The network -/

omit [DecidableEq υ] in
/-- A new stream takes the oldest unacknowledged batches. -/
theorem connect_flows (hstore : c.localStore.Valid pending)
    (huser : c.localStore.user = c.currentUser)
    (hstream : c.remoteStore.writeStream = none)
    (hoffline : c.remoteStore.pendingWrites = [] ∧ c.remoteStore.lastBatchSeen = batchIDUnknown) :
    ∃ r, c.enableNetwork = some { c with remoteStore := r } ∧ r.Flows (pending c.currentUser) ∧
      r.isNetworkEnabled = true := by
  have henabled : c.remoteStore.isNetworkEnabled = false := by
    simp [RemoteStore.isNetworkEnabled, hstream]
  have hremote : (c.setWriteStream .init).remoteStore =
      ⟨some .init, batchIDUnknown, []⟩ := by
    rw [setWriteStream, ← hoffline.1, ← hoffline.2]
  have hfillable : (c.setWriteStream .init).remoteStore.Fillable (pending c.currentUser) :=
    hremote ▸ RemoteStore.fillable_init (pending c.currentUser)
  obtain ⟨r, hfill, hfilled, hrunning, hstill⟩ :=
    fillWritePipeline_filled (c := c.setWriteStream .init) hstore huser hfillable
  refine ⟨r, ?_, { hfilled with running := hrunning ?_ }, hstill⟩
  · rw [enableNetwork, if_neg (by rw [henabled]; exact Bool.false_ne_true)]
    exact hfill
  · rw [hremote]
    exact fun _ _ hne => absurd rfl hne

omit [DecidableEq υ] in
theorem Invariant.setRemoteStore (h : c.Invariant pending) (ho : c.Refines pending o)
    {r : RemoteStore κ} (hflows : r.Flows (pending c.currentUser)) :
    ({ c with remoteStore := r } : FirestoreClient κ υ Q γ).Invariant pending ∧
      ({ c with remoteStore := r } : FirestoreClient κ υ Q γ).Refines pending o :=
  ⟨.of_flows h.store h.user hflows h.blocks, ho.of_unacknowledged rfl rfl rfl fun _ => rfl⟩

omit [DecidableEq υ] in
theorem enableNetwork_refines (h : c.Invariant pending) (ho : c.Refines pending o) :
    ∃ c', c.enableNetwork = some c' ∧ c'.Invariant pending ∧ c'.Refines pending o := by
  cases hstream : c.remoteStore.writeStream with
  | none =>
      obtain ⟨r, henable, hflows, -⟩ := connect_flows h.store h.user hstream (h.flows.offline hstream)
      exact ⟨_, henable, h.setRemoteStore ho hflows⟩
  | some w =>
      refine ⟨c, if_pos ?_, h, ho⟩
      simp [RemoteStore.isNetworkEnabled, hstream]

omit [DecidableEq υ] [UserQueues υ Q] [LawfulUserQueues κ υ Q] [LinearOrder κ] [MutationQueue κ Q] in
/-- The streams are stopped, and the pipeline is empty. -/
theorem disableNetwork_eq (hshape : ∀ w ∈ c.remoteStore.writeStream,
      w.Shape c.remoteStore.pendingWrites)
    (hoffline : c.remoteStore.writeStream = none → c.remoteStore.pendingWrites = [] ∧
      c.remoteStore.lastBatchSeen = batchIDUnknown) :
    c.disableNetwork = some { c with remoteStore := .init } := by
  cases hstream : c.remoteStore.writeStream with
  | none =>
      have hinit : c.remoteStore = .init := by
        rw [RemoteStore.init, ← hstream, ← (hoffline hstream).1, ← (hoffline hstream).2]
      rw [disableNetwork, hstream, ← hinit]
  | some w =>
      obtain ⟨w', hstop⟩ := (hshape w (Option.mem_def.mpr hstream)).stop
      rw [disableNetwork, hstream]
      dsimp only
      rw [hstop, Option.map_some]
      rfl

omit [DecidableEq υ] in
theorem disableNetwork_refines (h : c.Invariant pending) (ho : c.Refines pending o) :
    ∃ c', c.disableNetwork = some c' ∧ c'.Invariant pending ∧ c'.Refines pending o :=
  ⟨_, disableNetwork_eq h.flows.shape h.flows.offline,
    h.setRemoteStore ho (RemoteStore.flows_of_offline rfl ⟨rfl, rfl⟩ _)⟩

/-! ## The user changes, or the process -/

theorem userDidChange_refines (h : c.Invariant pending) (ho : c.Refines pending o) (u : υ) :
    ∃ c' pending' o', c.userDidChange u = some c' ∧ c'.Invariant pending' ∧
      o.step (.change u) = some o' ∧ c'.Refines pending' o' := by
  obtain ⟨changes, s', p', hchange, huser', hstore', hunack, -, -, -, -⟩ :=
    LocalStore.userDidChange_spec h.store u
  have hsame := unacknowledged_update pending hunack
  have hblocks : ∀ v batchID, c.mutationCompletionBlocks v batchID ≠ none →
      ∃ b ∈ (Function.update pending u p' v).unacknowledged, b.batchID = batchID := by
    intro v batchID hblock
    rw [hsame v]
    exact h.blocks v batchID hblock
  let c₁ : FirestoreClient κ υ Q γ :=
    { c with localStore := s', currentUser := u }.emitNewSnapshots changes
  have hrefines : ∀ r, ({ c₁ with remoteStore := r } : FirestoreClient κ υ Q γ).Refines
      (Function.update pending u p') { o with user := u } := fun r =>
    ⟨rfl, fun v => by rw [unanswered, hsame v]; exact ho.unanswered v, ho.called⟩
  cases hstream : c.remoteStore.writeStream with
  | none =>
      have henabled : c₁.remoteStore.isNetworkEnabled = false := by
        change c.remoteStore.isNetworkEnabled = false
        simp [RemoteStore.isNetworkEnabled, hstream]
      refine ⟨c₁, _, _, ?_, .of_flows hstore' huser' ?_ hblocks, rfl, hrefines c.remoteStore⟩
      · simp only [userDidChange, hchange, Option.bind_eq_bind, Option.bind_some]
        rw [if_neg (by rw [henabled]; exact Bool.false_ne_true)]
        rfl
      · exact RemoteStore.flows_of_offline hstream (h.flows.offline hstream) _
  | some w =>
      have henabled : c₁.remoteStore.isNetworkEnabled = true := by
        change c.remoteStore.isNetworkEnabled = true
        simp [RemoteStore.isNetworkEnabled, hstream]
      have hdisable : c₁.disableNetwork = some { c₁ with remoteStore := .init } :=
        disableNetwork_eq h.flows.shape h.flows.offline
      obtain ⟨r, henable, hflows, -⟩ := connect_flows
        (c := { c₁ with remoteStore := .init }) hstore' huser' rfl ⟨rfl, rfl⟩
      refine ⟨{ c₁ with remoteStore := r }, _, _, ?_, .of_flows hstore' huser' hflows hblocks, rfl,
        hrefines r⟩
      simp only [userDidChange, hchange, Option.bind_eq_bind, Option.bind_some]
      rw [if_pos henabled, hdisable, Option.bind_some]
      exact henable

/-- The handlers are lost with the process, the batches are not. -/
theorem launch_refines (h : c.Invariant pending) (ho : c.Refines pending o) (u : υ) :
    ∃ c' pending' o', c.launch u = some c' ∧ c'.Invariant pending' ∧
      o.step (.restart u) = some o' ∧ c'.Refines pending' o' := by
  obtain ⟨s', p', hlaunch, huser', hstore', hunack, -, -, -⟩ := LocalStore.launch_spec h.store u
  have hsame := unacknowledged_update pending hunack
  let c₁ : FirestoreClient κ υ Q γ := { c with
    localStore := s'
    remoteStore := .init
    currentUser := u
    mutationCompletionBlocks := fun _ _ => none }
  obtain ⟨r, henable, hflows, -⟩ := connect_flows (c := c₁) hstore' huser' rfl ⟨rfl, rfl⟩
  refine ⟨{ c₁ with remoteStore := r }, _, _, ?_,
    .of_flows hstore' huser' hflows fun _ _ hblock => absurd rfl hblock, rfl,
    ⟨rfl, fun v => ?_, ho.called⟩⟩
  · simp only [launch, hlaunch, Option.bind_eq_bind, Option.bind_some]
    exact henable
  · change (o.unanswered v).map _ = _
    rw [unanswered, hsame v, ho.unanswered v, unanswered, List.map_map]
    rfl

/-! ## The stream -/

omit [DecidableEq υ] in
/-- The writes settle with the stream. -/
theorem Invariant.setWriteStream (h : c.Invariant pending) (ho : c.Refines pending o)
    {w : WriteStream κ} (hw : w.Settled c.remoteStore.pendingWrites)
    (hstream : c.remoteStore.writeStream ≠ none) :
    (c.setWriteStream w).Invariant pending ∧ (c.setWriteStream w).Refines pending o :=
  h.setRemoteStore ho (h.flows.toFilled.settle hw hstream)

omit [DecidableEq υ] in
theorem backoffElapsed_refines (h : c.Invariant pending) (ho : c.Refines pending o)
    {w : WriteStream κ} (hw : w ∈ c.remoteStore.writeStream) (hstate : w.state = .backoff) :
    ∃ c', w.resumeStartFromBackoff.map c.setWriteStream = some c' ∧ c'.Invariant pending ∧
      c'.Refines pending o := by
  obtain ⟨w', hresume, hsettled⟩ := (h.flows.shape w hw).resumeStartFromBackoff hstate
  refine ⟨c.setWriteStream w', by rw [hresume, Option.map_some], ?_⟩
  exact h.setWriteStream ho hsettled (Option.ne_none_iff_exists'.mpr ⟨w, Option.mem_def.mp hw⟩)

omit [DecidableEq υ] in
/-- The RPC is started with the handshake. -/
theorem token_refines (h : c.Invariant pending) (ho : c.Refines pending o)
    {w : WriteStream κ} (hw : w ∈ c.remoteStore.writeStream) (hstate : w.state = .auth) :
    ∃ w₁ c', w.resumeStartWithToken = some (w₁, true) ∧
      w₁.writeHandshake.map c.setWriteStream = some c' ∧ c'.Invariant pending ∧
      c'.Refines pending o := by
  obtain ⟨w₁, w', hresume, hwrite, hsettled⟩ := (h.flows.shape w hw).resumeStartWithToken hstate
  refine ⟨w₁, c.setWriteStream w', hresume, by rw [hwrite, Option.map_some], ?_⟩
  exact h.setWriteStream ho hsettled (Option.ne_none_iff_exists'.mpr ⟨w, Option.mem_def.mp hw⟩)

omit [DecidableEq υ] in
/-- The server has answered the handshake: the pending writes are sent, in order. -/
theorem handshake_refines (h : c.Invariant pending) (ho : c.Refines pending o)
    (hstream : c.remoteStore.writeStream = some ⟨.opened, false, true, false, some [.handshake]⟩)
    (hne : c.remoteStore.pendingWrites ≠ []) :
    ∃ c', c.writeStreamDidCompleteHandshake ⟨.opened, true, true, false, some []⟩ = some c' ∧
      c'.Invariant pending ∧ c'.Refines pending o := by
  have hwrites := WriteStream.foldlM_writeMutations c.remoteStore.pendingWrites [] false
  rw [List.map_nil, List.nil_append, Bool.false_and] at hwrites
  refine ⟨_, by rw [writeStreamDidCompleteHandshake, hwrites, Option.map_some], ?_⟩
  refine h.setWriteStream ho ⟨.flowing false _ fun hidle => absurd hidle Bool.false_ne_true,
    fun _ => rfl, fun hnil => absurd hnil hne⟩ ?_
  rw [hstream]
  exact Option.some_ne_none _

/-! ## The server answers -/

omit [LinearOrder κ] [MutationQueue κ Q] [UserQueues υ Q] [LawfulUserQueues κ υ Q] in
/-- The handler of the batch is called, if there is one, and forgotten. -/
theorem processUserCallbacks_eq (c : FirestoreClient κ υ Q γ) (batchID : ℤ)
    (error : Option FirestoreErrorCode) :
    c.processUserCallbacks batchID error = { c.setCompletionBlock batchID none with
      called := c.called ++ (c.mutationCompletionBlocks c.currentUser batchID).toList.map
        fun completion => (c.currentUser, completion, error) } := by
  cases hblock : c.mutationCompletionBlocks c.currentUser batchID with
  | none =>
      have hinner : Function.update (c.mutationCompletionBlocks c.currentUser) batchID none =
          c.mutationCompletionBlocks c.currentUser := by rw [← hblock, Function.update_eq_self]
      rw [processUserCallbacks, hblock, setCompletionBlock, hinner, Function.update_eq_self,
        Option.toList_none, List.map_nil, List.append_nil]
  | some completion =>
      rw [processUserCallbacks, hblock]
      rfl

omit [LinearOrder κ] [MutationQueue κ Q] [UserQueues υ Q] [LawfulUserQueues κ υ Q] in
/-- The oldest request of the user is not waiting any more. -/
theorem unanswered_answer (c : FirestoreClient κ υ Q γ) (pending : υ → Pending κ)
    {batch : MutationBatch κ} {rest : List (MutationBatch κ)}
    (hunack : (pending c.currentUser).unacknowledged = batch :: rest) {p' : Pending κ}
    (hp' : p'.unacknowledged = rest) :
    (c.setCompletionBlock batch.batchID none).unanswered
        (Function.update pending c.currentUser p') =
      Function.update (c.unanswered pending) c.currentUser
        (rest.map fun b => (b.mutations, c.mutationCompletionBlocks c.currentUser b.batchID)) := by
  funext v
  by_cases hv : v = c.currentUser
  · subst hv
    rw [unanswered, setCompletionBlock_self, Function.update_self, Function.update_self, hp']
    refine List.map_congr_left fun b hb => ?_
    have hincreasing : Increasing MutationBatch.batchID (pending c.currentUser).unacknowledged :=
      (pending c.currentUser).increasing.filter _
    rw [hunack] at hincreasing
    rw [Function.update_of_ne ((Increasing.cons_iff.mp hincreasing).1 b hb).ne']
  · rw [unanswered, setCompletionBlock_of_ne c _ _ hv, Function.update_of_ne hv,
      Function.update_of_ne hv]
    rfl

/-- **The oldest unacknowledged batch is answered**, and its handler called. -/
theorem answer_refines (h : c.Invariant pending) (ho : c.Refines pending o)
    {batch : MutationBatch κ} {rest : List (MutationBatch κ)}
    (hunack : (pending c.currentUser).unacknowledged = batch :: rest) {p' : Pending κ}
    (hp' : p'.unacknowledged = rest) (error : Option FirestoreErrorCode) :
    (∀ v batchID, (c.processUserCallbacks batch.batchID error).mutationCompletionBlocks v batchID ≠
        none → ∃ b ∈ (Function.update pending c.currentUser p' v).unacknowledged,
          b.batchID = batchID) ∧
      ∃ o', o.step (.answer error) = some o' ∧
        (c.processUserCallbacks batch.batchID error).Refines
          (Function.update pending c.currentUser p') o' := by
  have hcallbacks := processUserCallbacks_eq c batch.batchID error
  have hunanswered : o.unanswered o.user =
      (batch.mutations, c.mutationCompletionBlocks c.currentUser batch.batchID) ::
        rest.map fun b => (b.mutations, c.mutationCompletionBlocks c.currentUser b.batchID) := by
    rw [ho.user, ho.unanswered, unanswered, hunack, List.map_cons]
  refine ⟨fun v batchID hblock => ?_, ?_⟩
  · rw [hcallbacks] at hblock
    change (c.setCompletionBlock batch.batchID none).mutationCompletionBlocks v batchID ≠ none
      at hblock
    by_cases hv : v = c.currentUser
    · subst hv
      rw [setCompletionBlock_self] at hblock
      have hid : batchID ≠ batch.batchID := by
        rintro rfl
        exact hblock (Function.update_self ..)
      rw [Function.update_of_ne hid] at hblock
      obtain ⟨b, hb, rfl⟩ := h.blocks c.currentUser batchID hblock
      rw [hunack] at hb
      rw [Function.update_self, hp']
      exact ⟨b, List.mem_of_ne_of_mem (fun hbatch => hid (hbatch ▸ rfl)) hb, rfl⟩
    · rw [setCompletionBlock_of_ne c _ _ hv] at hblock
      rw [Function.update_of_ne hv]
      exact h.blocks v batchID hblock
  · refine ⟨_, Outbox.step_answer hunanswered error, ?_, fun v => ?_, ?_⟩
    · rw [hcallbacks]
      exact ho.user
    · rw [hcallbacks]
      have hanswer := congrFun (unanswered_answer c pending hunack hp') v
      rw [ho.user, show o.unanswered = c.unanswered pending from funext ho.unanswered]
      exact hanswer.symm
    · rw [hcallbacks, ho.user, ho.called]

/-- The client when the first pending write was answered, and before the pipeline is filled. -/
def answered (c : FirestoreClient κ υ Q γ) (s' : LocalStore κ Q) (changes : Changes κ)
    (w : WriteStream κ) (batch : MutationBatch κ) (rest : List (MutationBatch κ))
    (error : Option FirestoreErrorCode) : FirestoreClient κ υ Q γ :=
  { c.processUserCallbacks batch.batchID error with
    localStore := s'
    remoteStore := ⟨some w, c.remoteStore.lastBatchSeen, rest⟩
    emitted := c.emitted ++ [changes] }

section Answered

variable {s' : LocalStore κ Q} {w : WriteStream κ} {batch : MutationBatch κ}
  {rest : List (MutationBatch κ)}

omit [UserQueues υ Q] [LawfulUserQueues κ υ Q]

omit [LinearOrder κ] [MutationQueue κ Q] in
/-- The callbacks know nothing of the stores. -/
theorem processUserCallbacks_setRemoteStore (c : FirestoreClient κ υ Q γ) (r : RemoteStore κ)
    (batchID : ℤ) (error : Option FirestoreErrorCode) :
    ({ c with remoteStore := r } : FirestoreClient κ υ Q γ).processUserCallbacks batchID error =
      { c.processUserCallbacks batchID error with remoteStore := r } := by
  rw [processUserCallbacks_eq, processUserCallbacks_eq]
  rfl

omit [LinearOrder κ] [MutationQueue κ Q] in
theorem localStore_processUserCallbacks (c : FirestoreClient κ υ Q γ) (batchID : ℤ)
    (error : Option FirestoreErrorCode) :
    (c.processUserCallbacks batchID error).localStore = c.localStore := by
  rw [processUserCallbacks_eq]
  rfl

omit [LinearOrder κ] [MutationQueue κ Q] in
theorem emitted_processUserCallbacks (c : FirestoreClient κ υ Q γ) (batchID : ℤ)
    (error : Option FirestoreErrorCode) :
    (c.processUserCallbacks batchID error).emitted = c.emitted := by
  rw [processUserCallbacks_eq]
  rfl

theorem applySuccessfulWrite_eq {r : MutationBatchResult κ} {changes : Changes κ}
    (h : c.localStore.acknowledgeBatchWithResult r = some (changes, s')) :
    ({ c with remoteStore := ⟨some w, c.remoteStore.lastBatchSeen, rest⟩ } :
      FirestoreClient κ υ Q γ).applySuccessfulWrite r =
        some (c.answered s' changes w r.batch rest none) := by
  rw [applySuccessfulWrite, processUserCallbacks_setRemoteStore]
  dsimp only
  rw [localStore_processUserCallbacks, h, Option.map_some, emitNewSnapshots]
  dsimp only
  rw [emitted_processUserCallbacks]
  rfl

theorem rejectFailedWrite_eq {error : FirestoreErrorCode} {changes : Changes κ}
    (h : c.localStore.rejectBatchID batch.batchID = some (changes, s')) :
    ({ c with remoteStore := ⟨some w, c.remoteStore.lastBatchSeen, rest⟩ } :
      FirestoreClient κ υ Q γ).rejectFailedWrite batch.batchID error =
        some (c.answered s' changes w batch rest (some error)) := by
  rw [rejectFailedWrite, processUserCallbacks_setRemoteStore]
  dsimp only
  rw [localStore_processUserCallbacks, h, Option.map_some, emitNewSnapshots]
  dsimp only
  rw [emitted_processUserCallbacks]
  rfl

end Answered

/-- **The pipeline is filled after an answer**, and the client is one for the outbox without
the request. -/
theorem answered_refines (h : c.Invariant pending) (ho : c.Refines pending o)
    {batch : MutationBatch κ} {rest unacknowledged : List (MutationBatch κ)}
    (hpending : c.remoteStore.pendingWrites = batch :: rest)
    (hunack : (pending c.currentUser).unacknowledged = batch :: unacknowledged)
    (error : Option FirestoreErrorCode) {s' : LocalStore κ Q} {p' : Pending κ}
    (changes : Changes κ) (huser' : s'.user = c.currentUser)
    (hstore' : s'.Valid (Function.update pending c.currentUser p'))
    (hp' : p'.unacknowledged = unacknowledged)
    (hnext : p'.nextBatchID = (pending c.currentUser).nextBatchID) {w : WriteStream κ}
    (hshape : w.Shape rest) :
    ∃ c' o', (c.answered s' changes w batch rest error).fillWritePipeline = some c' ∧
      c'.Interrupted (Function.update pending c.currentUser p') ∧
      ((rest ≠ [] → w.isStarted = true) → c'.remoteStore.Running) ∧
      o.step (.answer error) = some o' ∧
      c'.Refines (Function.update pending c.currentUser p') o' := by
  obtain ⟨hblocks, o', hstep, hrefines⟩ := answer_refines h ho hunack hp' error
  have hcurrent : (c.answered s' changes w batch rest error).currentUser = c.currentUser := by
    rw [answered, processUserCallbacks_eq]
    rfl
  have hself : Function.update pending c.currentUser p' c.currentUser = p' :=
    Function.update_self ..
  have hfills : (⟨some w, c.remoteStore.lastBatchSeen, rest⟩ : RemoteStore κ).Fills p' := by
    obtain ⟨unacknowledged', hunack', hfills⟩ := h.flows.fills.answer hpending
    rw [hunack, List.cons.injEq] at hunack'
    exact hfills p' (hp'.trans hunack'.2) hnext _
  have hfillable : (c.answered s' changes w batch rest error).remoteStore.Fillable
      (Function.update pending c.currentUser p' (c.answered s' changes w batch rest error).currentUser) := by
    rw [hcurrent, hself]
    refine ⟨hfills, fun hnone => absurd hnone (Option.some_ne_none _), fun w' hw' => ?_⟩
    obtain rfl := Option.mem_some_iff.mp hw'
    exact hshape
  obtain ⟨r, hfill, hfilled, hrunning, -⟩ := fillWritePipeline_filled
    (c := c.answered s' changes w batch rest error) hstore' (huser'.trans hcurrent.symm) hfillable
  refine ⟨_, o', hfill, ⟨hstore', huser'.trans hcurrent.symm, hfilled, hblocks⟩,
    fun hstarted => hrunning fun w' hw' => ?_, hstep,
    hrefines.of_unacknowledged rfl rfl rfl fun _ => rfl⟩
  obtain rfl := Option.mem_some_iff.mp hw'
  exact hstarted

/-- **The first pending write is answered with a result.** -/
theorem response_refines (h : c.Invariant pending) (ho : c.Refines pending o)
    {batch : MutationBatch κ} {rest : List (MutationBatch κ)}
    (hpending : c.remoteStore.pendingWrites = batch :: rest) {w : WriteStream κ}
    (hshape : w.Shape rest) (hstarted : w.isStarted = true) (commitVersion : SnapshotVersion)
    {mutationResults : List MutationResult}
    (hlength : mutationResults.length = batch.mutations.length) :
    ∃ c' pending' o', (c.setWriteStream w).writeStreamDidReceiveResponse commitVersion
        mutationResults = some c' ∧ c'.Invariant pending' ∧
      o.step (.answer none) = some o' ∧ c'.Refines pending' o' := by
  obtain ⟨unacknowledged, hunack, -⟩ := h.flows.fills.answer hpending
  obtain ⟨r, hr, hbatch⟩ : ∃ r, MutationBatchResult.resultWithBatch batch commitVersion
      mutationResults = some r ∧ r.batch = batch := ⟨_, if_pos hlength.symm, rfl⟩
  subst hbatch
  have hunack' : (pending c.localStore.user).unacknowledged = r.batch :: unacknowledged := by
    rw [h.user, hunack]
  obtain ⟨hb, changes, rs, s', p', hack, huser', hstore', hreleases, -, -⟩ :=
    LocalStore.acknowledgeBatchWithResult_spec h.store hunack'
      fun key hkey => MutationBatchResult.docVersions_ne_none hr hkey
  have hp' : p'.unacknowledged = unacknowledged :=
    hreleases.unacknowledged.trans (Pending.acknowledge_eq hunack' hb).2
  have hnext : p'.nextBatchID = (pending c.currentUser).nextBatchID := by
    rw [hreleases.nextBatchID, Pending.acknowledge_nextBatchID, h.user]
  rw [h.user] at huser' hstore'
  obtain ⟨c', o', hfill, hinterrupted, hrunning, hstep, hrefines⟩ :=
    answered_refines h ho hpending hunack none changes huser' hstore' hp' hnext hshape
  refine ⟨c', _, o', ?_, { hinterrupted with running := hrunning fun _ => hstarted }, hstep,
    hrefines⟩
  have hhead : (c.setWriteStream w).remoteStore.pendingWrites.head? = some r.batch := by
    change c.remoteStore.pendingWrites.head? = some r.batch
    rw [hpending, List.head?_cons]
  have hrest : (c.setWriteStream w).remoteStore.pendingWrites.tail = rest := by
    change c.remoteStore.pendingWrites.tail = rest
    rw [hpending, List.tail_cons]
  simp only [writeStreamDidReceiveResponse, hhead, hrest, hr, Option.bind_eq_bind, Option.bind_some]
  exact Option.bind_eq_some_iff.mpr ⟨_, applySuccessfulWrite_eq (c := c) hack, hfill⟩

/-- **The first pending write is rejected.**  It leaves the stream closed, but without a
back-off. -/
theorem handleWriteError_refines (h : c.Invariant pending) (ho : c.Refines pending o)
    {batch : MutationBatch κ} {rest : List (MutationBatch κ)}
    (hpending : c.remoteStore.pendingWrites = batch :: rest) {state : StreamState}
    (handshakeComplete : Bool) (hstate : state = .initial ∨ state = .error)
    {error : FirestoreErrorCode} (hpermanent : error.isPermanentWriteError = true) :
    ∃ c' pending' o',
      (c.setWriteStream ⟨state, handshakeComplete, false, false, none⟩).handleWriteError
        ⟨state, handshakeComplete, false, false, none⟩ error = some c' ∧
      c'.Interrupted pending' ∧ o.step (.answer (some error)) = some o' ∧ c'.Refines pending' o' := by
  set w₁ : WriteStream κ := ⟨.initial, handshakeComplete, false, false, none⟩ with hw₁
  have hinhibit : (⟨state, handshakeComplete, false, false, none⟩ : WriteStream κ).inhibitBackoff =
      some w₁ := by rcases hstate with rfl | rfl <;> rfl
  obtain ⟨unacknowledged, hunack, -⟩ := h.flows.fills.answer hpending
  have hunack' : (pending c.localStore.user).unacknowledged = [] ++ batch :: unacknowledged := by
    rw [h.user, hunack, List.nil_append]
  obtain ⟨changes, s', hreject, huser', hstore', -⟩ := LocalStore.rejectBatchID_spec h.store hunack'
  obtain ⟨-, -, hp'⟩ := Pending.remove_unacknowledged hunack'
  rw [h.user] at huser' hstore' hp'
  obtain ⟨c', o', hfill, hinterrupted, -, hstep, hrefines⟩ :=
    answered_refines h ho hpending hunack (some error) changes huser' hstore' hp' rfl
      (WriteStream.Shape.closed .initial handshakeComplete rest (Or.inl rfl))
  refine ⟨c', _, o', ?_, hinterrupted, hstep, hrefines⟩
  have hhead : (c.setWriteStream ⟨state, handshakeComplete, false, false, none⟩).remoteStore.pendingWrites.head? =
      some batch := by
    change c.remoteStore.pendingWrites.head? = some batch
    rw [hpending, List.head?_cons]
  have hrest : (c.setWriteStream ⟨state, handshakeComplete, false, false, none⟩).remoteStore.pendingWrites.tail =
      rest := by
    change c.remoteStore.pendingWrites.tail = rest
    rw [hpending, List.tail_cons]
  rw [handleWriteError, if_neg (by rw [hpermanent]; exact Bool.false_ne_true), hinhibit]
  simp only [hhead, hrest, Option.bind_eq_bind, Option.bind_some]
  exact Option.bind_eq_some_iff.mpr ⟨_, rejectFailedWrite_eq (c := c) hreject, hfill⟩

/-! ## The RPC ends -/

omit [DecidableEq υ] in
/-- The write stream is started again, if there is anything to deliver. -/
theorem Interrupted.startWriteStream (h : c.Interrupted pending) (ho : c.Refines pending o) :
    ∃ c', (if c.remoteStore.shouldStartWriteStream then
        c.remoteStore.startWriteStream.map fun remoteStore => { c with remoteStore }
      else some c) = some c' ∧ c'.Invariant pending ∧ c'.Refines pending o := by
  obtain ⟨r, hstart, hflows⟩ := h.filled.startWriteStream
  refine ⟨{ c with remoteStore := r }, ?_, .of_flows h.store h.user hflows h.blocks,
    ho.of_unacknowledged rfl rfl rfl fun _ => rfl⟩
  split
  · rename_i hshould
    rw [if_pos hshould] at hstart
    rw [hstart, Option.map_some]
  · rename_i hshould
    rw [if_neg hshould] at hstart
    obtain rfl := Option.some_inj.mp hstart
    rfl

/-- What an error means for the pending writes. -/
theorem handleInterruption_refines (h : c.Invariant pending) (ho : c.Refines pending o)
    {w : WriteStream κ} (hw : w ∈ c.remoteStore.writeStream) {state : StreamState}
    (hstate : state = .initial ∨ state = .error) {complete : Bool}
    (hcomplete : w.handshakeComplete = complete) (error : Option FirestoreErrorCode) :
    ∃ c' pending' o', (c.setWriteStream ⟨state, complete, false, false, none⟩).handleInterruption
        ⟨state, complete, false, false, none⟩ error = some c' ∧
      c'.Interrupted pending' ∧ o.step (c.interruption error) = some o' ∧ c'.Refines pending' o' := by
  set closed : WriteStream κ := ⟨state, complete, false, false, none⟩ with hclosed
  have hstream : c.remoteStore.writeStream = some w := Option.mem_def.mp hw
  have hinterrupted : (c.setWriteStream closed).Interrupted pending := by
    refine ⟨h.store, h.user, ⟨⟨h.filled.fills.setWriteStream _,
      fun hnone => absurd hnone (Option.some_ne_none _), fun w' hw' => ?_⟩,
      fun _ _ => h.filled.full w hw, fun w' hw' _ hopen => ?_⟩, h.blocks⟩
    · obtain rfl := Option.mem_some_iff.mp hw'
      exact .closed state _ _ hstate
    · obtain rfl := Option.mem_some_iff.mp hw'
      rcases hstate with rfl | rfl <;> cases hopen
  have hrefines : (c.setWriteStream closed).Refines pending o :=
    ho.of_unacknowledged rfl rfl rfl fun _ => rfl
  cases error with
  | none => exact ⟨_, pending, o, rfl, hinterrupted, rfl, hrefines⟩
  | some error =>
      cases hpending : c.remoteStore.pendingWrites with
      | nil =>
          refine ⟨_, pending, o, if_neg ?_, hinterrupted, ?_, hrefines⟩
          · change ¬ 0 < c.remoteStore.pendingWrites.length
            rw [hpending]
            exact Nat.not_lt_zero 0
          · simp [interruption, rejects, hpending, Outbox.step]
      | cons batch rest =>
          have hpos : 0 < (c.setWriteStream closed).remoteStore.pendingWrites.length := by
            change 0 < c.remoteStore.pendingWrites.length
            rw [hpending]
            exact Nat.succ_pos _
          have hrejects : c.rejects error = (complete && error.isPermanentWriteError) := by
            simp [rejects, hstream, hpending, hcomplete]
          rw [handleInterruption, if_pos hpos, interruption, hrejects]
          cases complete with
          | false => exact ⟨_, pending, o, rfl, hinterrupted, rfl, hrefines⟩
          | true =>
              cases hpermanent : error.isPermanentWriteError with
              | false =>
                  refine ⟨_, pending, o, ?_, hinterrupted, rfl, hrefines⟩
                  rw [if_pos rfl, handleWriteError, hpermanent, Bool.not_false, if_pos rfl]
              | true => exact handleWriteError_refines h ho hpending true hstate hpermanent

/-- **The stream was interrupted.** -/
theorem interrupted_refines (h : c.Invariant pending) (ho : c.Refines pending o)
    {w : WriteStream κ} (hw : w ∈ c.remoteStore.writeStream) {state : StreamState}
    (hstate : state = .initial ∨ state = .error) (error : Option FirestoreErrorCode) :
    ∃ c' pending' o', (c.setWriteStream
        ⟨state, w.handshakeComplete, false, false, none⟩).writeStreamWasInterrupted error = some c' ∧
      c'.Invariant pending' ∧ o.step (c.interruption error) = some o' ∧ c'.Refines pending' o' := by
  obtain ⟨c₂, pending', o', hhandle, hinterrupted, hstep, hrefines⟩ :=
    handleInterruption_refines h ho hw hstate rfl error
  obtain ⟨c', hstart, hinvariant, hrefines'⟩ := hinterrupted.startWriteStream hrefines
  refine ⟨c', pending', o', ?_, hinvariant, hstep, hrefines'⟩
  have hstream : (c.setWriteStream ⟨state, w.handshakeComplete, false, false, none⟩).remoteStore.writeStream =
      some ⟨state, w.handshakeComplete, false, false, none⟩ := rfl
  simp only [writeStreamWasInterrupted, hstream, hhandle, Option.bind_eq_bind, Option.bind_some]
  exact hstart

theorem streamClose_refines (h : c.Invariant pending) (ho : c.Refines pending o)
    {w : WriteStream κ} (hw : w ∈ c.remoteStore.writeStream)
    (hwaits : w.state = .auth ∨ w.rpc ≠ none) (error : Option FirestoreErrorCode) :
    ∃ c' pending' o', (w.handleStreamClose error).bind c.streamClosed = some c' ∧
      c'.Invariant pending' ∧ o.step (c.interruption error) = some o' ∧ c'.Refines pending' o' := by
  have hshape := h.filled.shape w hw
  rw [hshape.handleStreamClose (hshape.hasDelegate hwaits) error, Option.bind_some]
  exact interrupted_refines h ho hw (Or.inr rfl) error

theorem idleTimeout_refines (h : c.Invariant pending) (ho : c.Refines pending o)
    {w : WriteStream κ} (hw : w ∈ c.remoteStore.writeStream) (hidle : w.idleTimer = true) :
    ∃ c' pending' o', w.handleIdleCloseTimer.bind c.streamClosed = some c' ∧
      c'.Invariant pending' ∧ o.step .skip = some o' ∧ c'.Refines pending' o' := by
  rw [((h.filled.shape w hw).handleIdleCloseTimer hidle).2, Option.bind_some]
  exact interrupted_refines h ho hw (Or.inl rfl) none

/-- The oldest request of the RPC is the handshake, or the first pending write. -/
theorem handleStreamMessage_refines (h : c.Invariant pending) (ho : c.Refines pending o)
    {w : WriteStream κ} (hw : w ∈ c.remoteStore.writeStream) {requests : List (WriteRequest κ)}
    (hrpc : requests ∈ w.rpc) {request : WriteRequest κ} (hrequest : request ∈ requests.head?)
    (commitVersion : SnapshotVersion) {mutationResults : List MutationResult}
    (hlength : request.AnsweredBy mutationResults) :
    ∃ c' pending' o', c.handleStreamMessage w commitVersion mutationResults = some c' ∧
      c'.Invariant pending' ∧
      o.step (if w.handshakeComplete then .answer none else .skip) = some o' ∧
      c'.Refines pending' o' := by
  have hstream : c.remoteStore.writeStream = some w := Option.mem_def.mp hw
  have hshape := h.filled.shape w hw
  cases hpending : c.remoteStore.pendingWrites with
  | nil =>
      rw [hpending] at hshape
      cases hshape with
      | flowing idleTimer _ hempty =>
          obtain rfl := Option.mem_some_iff.mp hrpc
          cases hrequest
      | handshaking hne => exact absurd rfl hne
      | _ => cases hrpc
  | cons batch rest =>
      rw [hpending] at hshape
      cases hshape with
      | handshaking hne =>
          obtain ⟨c', hcomplete, hinvariant, hrefines⟩ :=
            handshake_refines h ho hstream (hpending ▸ hne)
          exact ⟨c', pending, o, hcomplete, hinvariant, rfl, hrefines⟩
      | flowing idleTimer _ hempty =>
          obtain rfl := Option.mem_some_iff.mp hrpc
          obtain rfl : WriteRequest.mutations batch.mutations = request :=
            Option.mem_some_iff.mp hrequest
          have hrest : WriteStream.Shape ⟨.opened, true, true, idleTimer,
              some (rest.map fun b => .mutations b.mutations)⟩ rest :=
            .flowing idleTimer rest fun hidle => by cases hempty hidle
          exact response_refines h ho hpending hrest rfl commitVersion hlength
      | _ => cases hrpc

/-! ## Steps and runs -/

/-- **The step lemma.**  On an event that can happen no assertion fails, and the outbox takes
the step that the event means for it. -/
theorem step_refines (h : c.Invariant pending) (ho : c.Refines pending o)
    {e : ClientEvent κ υ γ} (he : c.Enabled e) :
    ∃ c' pending' o', c.step e = some c' ∧ c'.Invariant pending' ∧
      o.step (c.outcome e) = some o' ∧ c'.Refines pending' o' := by
  cases e with
  | writeMutations mutations completion => exact writeMutations_refines h ho he completion
  | userDidChange user => exact userDidChange_refines h ho user
  | launch initialUser => exact launch_refines h ho initialUser
  | enableNetwork =>
      obtain ⟨c', hstep, hinvariant, hrefines⟩ := enableNetwork_refines h ho
      exact ⟨c', pending, o, hstep, hinvariant, rfl, hrefines⟩
  | disableNetwork =>
      obtain ⟨c', hstep, hinvariant, hrefines⟩ := disableNetwork_refines h ho
      exact ⟨c', pending, o, hstep, hinvariant, rfl, hrefines⟩
  | token error =>
      obtain ⟨w, hw, hstate⟩ := he
      simp only [step, Option.mem_def.mp hw, Option.bind_eq_bind, Option.bind_some]
      cases error with
      | some error => exact streamClose_refines h ho hw (Or.inl hstate) (some error)
      | none =>
          obtain ⟨w₁, c', hresume, hopen, hinvariant, hrefines⟩ := token_refines h ho hw hstate
          exact ⟨c', pending, o, by rw [hresume]; exact hopen, hinvariant, rfl, hrefines⟩
  | backoffElapsed =>
      obtain ⟨w, hw, hstate⟩ := he
      simp only [step, Option.mem_def.mp hw, Option.bind_eq_bind, Option.bind_some]
      obtain ⟨c', hresume, hinvariant, hrefines⟩ := backoffElapsed_refines h ho hw hstate
      exact ⟨c', pending, o, hresume, hinvariant, rfl, hrefines⟩
  | idleTimeout =>
      obtain ⟨w, hw, hidle⟩ := he
      simp only [step, Option.mem_def.mp hw, Option.bind_eq_bind, Option.bind_some]
      exact idleTimeout_refines h ho hw hidle
  | response commitVersion mutationResults =>
      obtain ⟨w, hw, requests, hrpc, request, hrequest, hlength⟩ := he
      simp only [step, outcome, Option.mem_def.mp hw, Option.bind_eq_bind, Option.bind_some,
        Option.any_some]
      exact handleStreamMessage_refines h ho hw hrpc hrequest commitVersion hlength
  | streamClose error =>
      obtain ⟨w, hw, hrpc⟩ := he
      simp only [step, Option.mem_def.mp hw, Option.bind_eq_bind, Option.bind_some]
      exact streamClose_refines h ho hw (Or.inr hrpc) error
  | remoteEvent snapshotVersion documentUpdates =>
      obtain ⟨c', pending', hstep, hinvariant, hrefines⟩ :=
        remoteEvent_refines h ho he documentUpdates
      exact ⟨c', pending', o, hstep, hinvariant, rfl, hrefines⟩
  | allocateQuery targetID =>
      obtain ⟨c', hstep, hinvariant, hrefines⟩ := allocateQuery_refines h ho he
      exact ⟨c', pending, o, hstep, hinvariant, rfl, hrefines⟩
  | releaseQuery targetID =>
      obtain ⟨c', pending', hstep, hinvariant, hrefines⟩ := releaseQuery_refines h ho targetID
      exact ⟨c', pending', o, hstep, hinvariant, rfl, hrefines⟩

end FirestoreClient

end CocoMap
