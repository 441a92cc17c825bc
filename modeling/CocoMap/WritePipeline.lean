import CocoMap.LocalStore
import CocoMap.WriteStream

/-!
# The write pipeline

`FSTRemoteStore` takes unacknowledged batches from the local store, at most
`kMaxPendingWrites` at a time, and sends them on the write stream.  `pendingWrites` has
those it has taken and the server has not answered; they outlive the RPCs they are sent
on, and are sent again on the next one.

`Fills` is the invariant of the list, and `Fillable.fillWritePipeline` the outcome of the loop
that extends it: the oldest ten unacknowledged batches.

The watch stream, which shares the network with the write stream, is left out.
-/

namespace CocoMap

/-- The maximum number of pending writes to allow. -/
def kMaxPendingWrites : ℕ := 10

/-- The write half of `FSTRemoteStore`. -/
structure RemoteStore (κ : Type) where
  /-- The stream is `none` when the network is disabled. -/
  writeStream : Option (WriteStream κ)
  lastBatchSeen : ℤ
  /-- A FIFO queue of in-flight writes. -/
  pendingWrites : List (MutationBatch κ)

namespace RemoteStore

variable {κ υ Q : Type} [LinearOrder κ] [MutationQueue κ Q]

def init : RemoteStore κ where
  writeStream := none
  lastBatchSeen := batchIDUnknown
  pendingWrites := []

def isNetworkEnabled (r : RemoteStore κ) : Bool := r.writeStream.isSome

/-- The network is enabled, the write stream has not yet been started and there are pending
writes. -/
def shouldStartWriteStream (r : RemoteStore κ) : Bool :=
  r.writeStream.any fun w => !w.isStarted && 0 < r.pendingWrites.length

def startWriteStream (r : RemoteStore κ) : Option (RemoteStore κ) := do
  guard r.shouldStartWriteStream
  let w ← r.writeStream
  let w ← w.startWithDelegate
  return { r with writeStream := some w }

def cleanUpWriteStreamState (r : RemoteStore κ) : RemoteStore κ :=
  { r with lastBatchSeen := batchIDUnknown, pendingWrites := [] }

def canWriteMutations (r : RemoteStore κ) : Bool :=
  r.isNetworkEnabled && r.pendingWrites.length < kMaxPendingWrites

/-- Given mutations to commit, actually commits them to the backend. -/
def commitBatch (r : RemoteStore κ) (batch : MutationBatch κ) : Option (RemoteStore κ) := do
  guard r.canWriteMutations
  let r := { r with
    lastBatchSeen := batch.batchID, pendingWrites := r.pendingWrites ++ [batch] }
  if r.shouldStartWriteStream then r.startWriteStream
  else match r.writeStream with
    | some w =>
        if w.handshakeComplete then
          (w.writeMutations batch.mutations).map fun w => { r with writeStream := some w }
        else some r
    | none => some r

omit [LinearOrder κ] in
theorem pendingWrites_commitBatch {r r' : RemoteStore κ} {batch : MutationBatch κ}
    (h : r.commitBatch batch = some r') :
    r.pendingWrites.length < kMaxPendingWrites ∧
      r'.pendingWrites = r.pendingWrites ++ [batch] := by
  cases hcan : r.canWriteMutations with
  | false =>
      rw [commitBatch, hcan] at h
      cases h
  | true =>
      rw [canWriteMutations, Bool.and_eq_true, decide_eq_true_eq] at hcan
      refine ⟨hcan.2, ?_⟩
      unfold commitBatch at h
      obtain ⟨-, -, h⟩ := Option.bind_eq_some_iff.mp h
      dsimp only at h
      split at h
      · obtain ⟨-, -, h⟩ := Option.bind_eq_some_iff.mp h
        obtain ⟨w, -, h⟩ := Option.bind_eq_some_iff.mp h
        obtain ⟨w', -, h⟩ := Option.bind_eq_some_iff.mp h
        cases h
        rfl
      · split at h
        · split at h
          · obtain ⟨w', -, rfl⟩ := Option.map_eq_some_iff.mp h
            rfl
          · cases h
            rfl
        · cases h
          rfl

/-- The loop of `fillWritePipeline`. -/
def fill (localStore : LocalStore κ Q) (r : RemoteStore κ) : Option (RemoteStore κ) :=
  if r.canWriteMutations then
    match localStore.nextMutationBatchAfterBatchID r.lastBatchSeen with
    | none => none
    | some none => some r
    | some (some batch) =>
        match _hcommit : r.commitBatch batch with
        | none => none
        | some r' => fill localStore r'
  else some r
termination_by kMaxPendingWrites - r.pendingWrites.length
decreasing_by
  obtain ⟨hlt, hlength⟩ := pendingWrites_commitBatch _hcommit
  rw [hlength, List.length_append, List.length_singleton]
  omega

def fillWritePipeline (localStore : LocalStore κ Q) (r : RemoteStore κ) : Option (RemoteStore κ) :=
  if r.isNetworkEnabled then
    (fill localStore r).map fun r =>
      if r.pendingWrites.length = 0 then { r with writeStream := r.writeStream.map WriteStream.markIdle }
      else r
  else some r

/-! ## Filling the pipeline -/

/-- The pending writes are the oldest unacknowledged batches, and `lastBatchSeen` separates
them from the others. -/
structure Fills (r : RemoteStore κ) (p : Pending κ) : Prop where
  pending : r.pendingWrites = p.unacknowledged.take r.pendingWrites.length
  bounded : r.pendingWrites.length ≤ kMaxPendingWrites
  seen : ∀ b ∈ r.pendingWrites, b.batchID ≤ r.lastBatchSeen
  unseen : ∀ b ∈ p.unacknowledged.drop r.pendingWrites.length, r.lastBatchSeen < b.batchID
  issued : r.lastBatchSeen < p.nextBatchID

variable {r : RemoteStore κ} {w : WriteStream κ} {p p' : Pending κ}

omit [LinearOrder κ] in
/-- The next batch is the first one that is not in the pipeline. -/
theorem Fills.nextAfter_eq (h : r.Fills p) :
    p.nextAfter r.lastBatchSeen = (p.unacknowledged.drop r.pendingWrites.length).head? := by
  rw [Pending.nextAfter_eq]
  conv_lhs => rw [← List.take_append_drop r.pendingWrites.length p.unacknowledged, ← h.pending]
  have hnone : (r.pendingWrites.find? fun b => r.lastBatchSeen < b.batchID) = none := by
    rw [List.find?_eq_none]
    intro b hb
    simpa using h.seen b hb
  rw [List.find?_append, hnone, Option.none_or]
  cases hdrop : p.unacknowledged.drop r.pendingWrites.length with
  | nil => rfl
  | cons b rest =>
      have hb : r.lastBatchSeen < b.batchID := h.unseen b (by rw [hdrop]; exact List.mem_cons_self)
      rw [List.find?_cons_of_pos (by simpa using hb)]
      rfl

omit [LinearOrder κ] in
theorem Fills.length_le (h : r.Fills p) : r.pendingWrites.length ≤ p.unacknowledged.length := by
  rw [h.pending]
  exact List.length_take_le' _ _

omit [LinearOrder κ] in
/-- The stream is not a part of it. -/
theorem Fills.setWriteStream (h : r.Fills p) (stream : Option (WriteStream κ)) :
    Fills { r with writeStream := stream } p := ⟨h.pending, h.bounded, h.seen, h.unseen, h.issued⟩

omit [LinearOrder κ] in
theorem Fills.of_unacknowledged (h : r.Fills p) (hunack : p'.unacknowledged = p.unacknowledged)
    (hnext : p'.nextBatchID = p.nextBatchID) : r.Fills p' where
  pending := hunack ▸ h.pending
  bounded := h.bounded
  seen := h.seen
  unseen := hunack ▸ h.unseen
  issued := hnext ▸ h.issued

omit [LinearOrder κ] in
/-- A new batch comes behind those that have been seen. -/
theorem Fills.add (h : r.Fills p) {mutations : List (Mutation κ)} (hne : mutations ≠ []) :
    r.Fills (p.add mutations hne) where
  pending := by
    rw [Pending.unacknowledged_add, List.take_append_of_le_length h.length_le]
    exact h.pending
  bounded := h.bounded
  seen := h.seen
  unseen b hb := by
    rw [Pending.unacknowledged_add, List.drop_append_of_le_length h.length_le] at hb
    rcases List.mem_append.mp hb with hb | hb
    · exact h.unseen b hb
    · rw [List.mem_singleton.mp hb]
      exact h.issued
  issued := by
    have := h.issued
    rw [Pending.add_nextBatchID]
    omega

omit [LinearOrder κ] in
/-- The first pending write is the oldest unacknowledged batch; when it is answered, both are
gone. -/
theorem Fills.answer (h : r.Fills p) {batch : MutationBatch κ} {rest : List (MutationBatch κ)}
    (hpending : r.pendingWrites = batch :: rest) :
    ∃ unacknowledged, p.unacknowledged = batch :: unacknowledged ∧
      ∀ p' : Pending κ, p'.unacknowledged = unacknowledged → p'.nextBatchID = p.nextBatchID →
        ∀ stream, Fills ⟨stream, r.lastBatchSeen, rest⟩ p' := by
  have hlength : r.pendingWrites.length = rest.length + 1 := by rw [hpending, List.length_cons]
  have htake := h.pending
  have hunseen := h.unseen
  rw [hpending] at htake
  rw [hlength] at hunseen
  cases hunack : p.unacknowledged with
  | nil =>
      rw [hunack, List.take_nil] at htake
      cases htake
  | cons b unacknowledged =>
      rw [hunack, List.length_cons, List.take_succ_cons, List.cons.injEq] at htake
      rw [hunack, List.drop_succ_cons] at hunseen
      obtain ⟨rfl, hrest⟩ := htake
      refine ⟨unacknowledged, rfl, fun p' hunack' hnext stream => ?_⟩
      refine ⟨hunack' ▸ hrest, ?_, fun b' hb' => ?_, hunack' ▸ hunseen, hnext ▸ h.issued⟩
      · have hbounded := h.bounded
        rw [hlength] at hbounded
        exact Nat.le_of_succ_le hbounded
      · exact h.seen b' (hpending ▸ List.mem_cons_of_mem batch hb')

omit [LinearOrder κ] in
/-- The empty pipeline has seen nothing. -/
theorem fills_nil (stream : Option (WriteStream κ)) (p : Pending κ) :
    Fills ⟨stream, batchIDUnknown, []⟩ p where
  pending := rfl
  bounded := Nat.zero_le _
  seen _ hb := absurd hb List.not_mem_nil
  unseen b hb := by
    have := (p.bounded b (Pending.mem_unacknowledged.mp hb).1).1
    simp only [batchIDUnknown]
    omega
  issued := by
    have := p.nonnegative
    simp only [batchIDUnknown]
    omega

open WriteStream

/-- A stream with anything to deliver is running. -/
def Running (r : RemoteStore κ) : Prop :=
  ∀ w ∈ r.writeStream, r.pendingWrites ≠ [] → w.isStarted = true

/-- **The invariant of the pipeline while it is filled.**  With the network disabled it is
empty. -/
structure Fillable (r : RemoteStore κ) (p : Pending κ) : Prop where
  fills : r.Fills p
  offline : r.writeStream = none → r.pendingWrites = [] ∧ r.lastBatchSeen = batchIDUnknown
  shape : ∀ w ∈ r.writeStream, Shape w r.pendingWrites

/-- The pipeline has been filled, and an open stream without work is about to be closed. -/
structure Filled (r : RemoteStore κ) (p : Pending κ) : Prop extends Fillable r p where
  full : ∀ w ∈ r.writeStream, r.pendingWrites = p.unacknowledged.take kMaxPendingWrites
  idle : ∀ w ∈ r.writeStream, r.pendingWrites = [] → w.isOpen = true → w.idleTimer = true

/-- **The invariant of the pipeline between events.** -/
structure Flows (r : RemoteStore κ) (p : Pending κ) : Prop extends Filled r p where
  running : r.Running

section Conversions

omit [LinearOrder κ]

theorem Filled.of_unacknowledged (h : r.Filled p) (hunack : p'.unacknowledged = p.unacknowledged)
    (hnext : p'.nextBatchID = p.nextBatchID) : r.Filled p' where
  fills := h.fills.of_unacknowledged hunack hnext
  offline := h.offline
  shape := h.shape
  full := hunack ▸ h.full
  idle := h.idle

theorem Flows.of_unacknowledged (h : r.Flows p) (hunack : p'.unacknowledged = p.unacknowledged)
    (hnext : p'.nextBatchID = p.nextBatchID) : r.Flows p' :=
  { h.toFilled.of_unacknowledged hunack hnext with running := h.running }

theorem Fillable.add (h : r.Fillable p) {mutations : List (Mutation κ)} (hne : mutations ≠ []) :
    r.Fillable (p.add mutations hne) := ⟨h.fills.add hne, h.offline, h.shape⟩

/-- The writes settle with the stream. -/
theorem Filled.settle (h : r.Filled p) {w : WriteStream κ} (hw : Settled w r.pendingWrites)
    (hstream : r.writeStream ≠ none) : Flows { r with writeStream := some w } p where
  fills := h.fills.setWriteStream _
  offline hnone := absurd hnone (Option.some_ne_none _)
  shape w' hw' := by
    obtain rfl := Option.mem_some_iff.mp hw'
    exact hw.shape
  full _ _ := by
    obtain ⟨w₀, hw₀⟩ := Option.ne_none_iff_exists'.mp hstream
    exact h.full w₀ (Option.mem_def.mpr hw₀)
  idle w' hw' := by
    obtain rfl := Option.mem_some_iff.mp hw'
    exact hw.idle
  running w' hw' := by
    obtain rfl := Option.mem_some_iff.mp hw'
    exact hw.running

/-- Without a network there is no pipeline. -/
theorem flows_of_offline (hstream : r.writeStream = none)
    (hoffline : r.pendingWrites = [] ∧ r.lastBatchSeen = batchIDUnknown) (p : Pending κ) :
    r.Flows p := by
  obtain ⟨stream, seen, pendingWrites⟩ := r
  obtain ⟨rfl, rfl⟩ := hoffline
  have hnone : ∀ w, w ∉ stream := fun w hw => by
    rw [show stream = none from hstream] at hw
    cases hw
  exact {
    fills := fills_nil stream p
    offline := fun _ => ⟨rfl, rfl⟩
    shape := fun w hw => absurd hw (hnone w)
    full := fun w hw => absurd hw (hnone w)
    idle := fun w hw => absurd hw (hnone w)
    running := fun w hw => absurd hw (hnone w) }

theorem fillable_init (p : Pending κ) : Fillable ⟨some .init, batchIDUnknown, []⟩ p where
  fills := fills_nil _ p
  offline h := absurd h (Option.some_ne_none _)
  shape w hw := by
    obtain rfl := Option.mem_some_iff.mp hw
    exact settled_init.shape

end Conversions

omit [LinearOrder κ] in
/-- **One batch more** is taken, and sent if the stream is ready for it. -/
theorem commitBatch_spec (h : r.Fillable p) (hstream : r.writeStream = some w)
    (hlt : r.pendingWrites.length < kMaxPendingWrites) {batch : MutationBatch κ}
    {rest : List (MutationBatch κ)}
    (hnext : p.unacknowledged.drop r.pendingWrites.length = batch :: rest) :
    ∃ r' w', r.commitBatch batch = some r' ∧ r'.writeStream = some w' ∧ r'.Fillable p ∧
      r'.Running := by
  have hshape := h.shape w (Option.mem_def.mpr hstream)
  have hcan : r.canWriteMutations = true := by
    simp [canWriteMutations, isNetworkEnabled, hstream, hlt]
  set pending := r.pendingWrites ++ [batch] with hpending
  have hne : pending ≠ [] := by simp [hpending]
  have hlength : pending.length = r.pendingWrites.length + 1 := by simp [hpending]
  -- the invariant of the list does not depend on the stream
  have hfills : ∀ stream, Fills ⟨stream, batch.batchID, pending⟩ p := by
    intro stream
    have hincreasing : Increasing MutationBatch.batchID p.unacknowledged := p.increasing.filter _
    have hsplit : p.unacknowledged = r.pendingWrites ++ batch :: rest := by
      conv_lhs => rw [← List.take_append_drop r.pendingWrites.length p.unacknowledged,
        ← h.fills.pending, hnext]
    have hdrop : p.unacknowledged.drop pending.length = rest := by
      rw [hlength, ← List.drop_drop, hnext]
      rfl
    have hmem : batch ∈ p.unacknowledged := hsplit ▸ List.mem_append_right _ List.mem_cons_self
    rw [hsplit] at hincreasing
    obtain ⟨-, htail, hcross⟩ := Increasing.append_iff.mp hincreasing
    refine ⟨?_, by rw [hlength]; exact hlt, fun b hb => ?_, fun b hb => ?_, ?_⟩
    · rw [hsplit, hlength, ← List.singleton_append, ← List.append_assoc, ← hlength, hpending]
      exact List.take_left.symm
    · rcases List.mem_append.mp hb with hb | hb
      · exact (hcross b hb batch List.mem_cons_self).le
      · rw [List.mem_singleton.mp hb]
    · rw [hdrop] at hb
      exact (Increasing.cons_iff.mp htail).1 b hb
    · exact (p.bounded batch (Pending.mem_unacknowledged.mp hmem).1).2
  have hresult : ∀ w', Shape w' pending → w'.isStarted = true →
      Fillable ⟨some w', batch.batchID, pending⟩ p ∧
        Running ⟨some w', batch.batchID, pending⟩ := by
    intro w' hshape' hstarted'
    refine ⟨⟨hfills _, fun hnone => absurd hnone (Option.some_ne_none _), fun w'' hw'' => ?_⟩,
      fun w'' hw'' _ => ?_⟩
    · obtain rfl := Option.mem_some_iff.mp hw''
      exact hshape'
    · obtain rfl := Option.mem_some_iff.mp hw''
      exact hstarted'
  cases hstarted : w.isStarted with
  | false =>
      have hshape' : Shape w pending := by
        cases hshape with
        | closed state handshakeComplete _ hstate => exact .closed state handshakeComplete _ hstate
        | _ => cases hstarted
      obtain ⟨w', hstart, hsettled⟩ := hshape'.start hstarted hne
      refine ⟨⟨some w', batch.batchID, pending⟩, w', ?_, rfl,
        hresult w' hsettled.shape (hsettled.running hne)⟩
      simp [commitBatch, guard, hcan, shouldStartWriteStream, startWriteStream, hstream, hstarted,
        hstart, hpending]
  | true =>
      have hshould : (⟨some w, batch.batchID, pending⟩ : RemoteStore κ).shouldStartWriteStream =
          false := by simp [shouldStartWriteStream, hstarted]
      cases hcomplete : w.handshakeComplete with
      | true =>
          obtain ⟨w', hwrite, hshape', hstarted'⟩ := hshape.writeMutations hstarted hcomplete batch
          refine ⟨⟨some w', batch.batchID, pending⟩, w', ?_, rfl, hresult w' hshape' hstarted'⟩
          simp [commitBatch, guard, hcan, hstream, hshould, hcomplete, hwrite, ← hpending]
      | false =>
          refine ⟨⟨some w, batch.batchID, pending⟩, w, ?_, rfl,
            hresult w (hshape.wait hstarted hcomplete batch) hstarted⟩
          simp [commitBatch, guard, hcan, hstream, hshould, hcomplete, ← hpending]

section Fill

variable [UserQueues υ Q] [LawfulUserQueues κ υ Q] {s : LocalStore κ Q} {pending : υ → Pending κ}

open LawfulMutationQueue

theorem Fills.nextMutationBatch (h : r.Fills (pending s.user)) (hs : s.Valid pending) :
    s.nextMutationBatchAfterBatchID r.lastBatchSeen =
      some ((pending s.user).unacknowledged.drop r.pendingWrites.length).head? := by
  rw [LocalStore.nextMutationBatchAfterBatchID,
    nextMutationBatchAfterBatchID_spec r.lastBatchSeen hs.queues.current]
  exact congrArg some h.nextAfter_eq

/-- **The loop takes batches until the pipeline is full or nothing is left to take.** -/
theorem fill_spec (hs : s.Valid pending) (h : r.Fillable (pending s.user))
    (hstream : r.writeStream = some w) :
    ∃ r' w', fill s r = some r' ∧ r'.writeStream = some w' ∧ r'.Fillable (pending s.user) ∧
      r'.pendingWrites = (pending s.user).unacknowledged.take kMaxPendingWrites ∧
      (r.Running → r'.Running) := by
  set unacknowledged := (pending s.user).unacknowledged with hunack
  induction hn : kMaxPendingWrites - r.pendingWrites.length generalizing r w with
  | zero =>
      have hfull : r.pendingWrites.length = kMaxPendingWrites := by
        have := h.fills.bounded
        omega
      have hcan : r.canWriteMutations = false := by simp [canWriteMutations, hfull]
      refine ⟨r, w, ?_, hstream, h, hfull ▸ h.fills.pending, id⟩
      rw [fill, if_neg (by rw [hcan]; exact Bool.false_ne_true)]
  | succ n ih =>
      have hlt : r.pendingWrites.length < kMaxPendingWrites := by omega
      have hcan : r.canWriteMutations = true := by
        simp [canWriteMutations, isNetworkEnabled, hstream, hlt]
      have hnext := h.fills.nextMutationBatch hs
      cases hdrop : unacknowledged.drop r.pendingWrites.length with
      | nil =>
          have hall : unacknowledged.length ≤ r.pendingWrites.length := List.drop_eq_nil_iff.mp hdrop
          refine ⟨r, w, ?_, hstream, h, ?_, id⟩
          · rw [fill, if_pos hcan, hnext, hdrop]
            rfl
          · have hpending := h.fills.pending
            rw [List.take_of_length_le hall] at hpending
            rw [List.take_of_length_le (hall.trans h.fills.bounded)]
            exact hpending
      | cons batch rest =>
          obtain ⟨r₁, w₁, hcommit, hstream₁, h₁, hrunning₁⟩ := commitBatch_spec h hstream hlt hdrop
          have hlength₁ := (pendingWrites_commitBatch hcommit).2
          obtain ⟨r', w', hfill, hstream', h', htake, hrunning⟩ := ih h₁ hstream₁ (by
            rw [hlength₁, List.length_append, List.length_singleton]
            omega)
          refine ⟨r', w', ?_, hstream', h', htake, fun _ => hrunning hrunning₁⟩
          rw [fill, if_pos hcan, hnext, hdrop]
          simp only [List.head?_cons]
          split
          · rename_i hnone
            rw [hcommit] at hnone
            cases hnone
          · rename_i r₂ hsome
            rw [hcommit] at hsome
            cases hsome
            exact hfill

/-- **A filled pipeline** has the oldest unacknowledged batches. -/
theorem Fillable.fillWritePipeline (h : r.Fillable (pending s.user)) (hs : s.Valid pending) :
    ∃ r', RemoteStore.fillWritePipeline s r = some r' ∧ r'.Filled (pending s.user) ∧
      (r.Running → r'.Running) ∧ r'.isNetworkEnabled = r.isNetworkEnabled := by
  cases hstream : r.writeStream with
  | none =>
      have henabled : r.isNetworkEnabled = false := by simp [isNetworkEnabled, hstream]
      refine ⟨r, ?_, (flows_of_offline hstream (h.offline hstream) _).toFilled, id, rfl⟩
      rw [RemoteStore.fillWritePipeline, if_neg (by rw [henabled]; exact Bool.false_ne_true)]
  | some w =>
      have henabled : r.isNetworkEnabled = true := by simp [isNetworkEnabled, hstream]
      obtain ⟨r₁, w₁, hfill, hstream₁, h₁, htake, hrunning⟩ := fill_spec hs h hstream
      cases hempty : r₁.pendingWrites with
      | nil =>
          have hmark := (hempty ▸ h₁.shape w₁ (Option.mem_def.mpr hstream₁)).markIdle
          refine ⟨{ r₁ with writeStream := some w₁.markIdle }, ?_,
            ⟨⟨h₁.fills.setWriteStream _, fun hnone => absurd hnone (Option.some_ne_none _), ?_⟩,
              fun _ _ => htake, ?_⟩, fun _ w' _ hne => absurd hempty hne, henabled.symm⟩
          · rw [RemoteStore.fillWritePipeline, if_pos henabled, hfill, Option.map_some, hempty,
              hstream₁]
            rfl
          · intro w' hw'
            obtain rfl := Option.mem_some_iff.mp hw'
            exact hempty ▸ hmark.shape
          · intro w' hw' _
            obtain rfl := Option.mem_some_iff.mp hw'
            exact hmark.idle rfl
      | cons b rest =>
          refine ⟨r₁, ?_, ⟨h₁, fun _ _ => htake, fun w' _ hnil => ?_⟩, hrunning, ?_⟩
          · rw [RemoteStore.fillWritePipeline, if_pos henabled, hfill, Option.map_some,
              if_neg (by simp [hempty])]
          · rw [hempty] at hnil
            cases hnil
          · rw [henabled, isNetworkEnabled, hstream₁, Option.isSome_some]

omit [LinearOrder κ] in
/-- A stream that was interrupted is started again, if there is anything to deliver. -/
theorem Filled.startWriteStream (h : r.Filled p) :
    ∃ r', (if r.shouldStartWriteStream then r.startWriteStream else some r) = some r' ∧
      r'.Flows p := by
  cases hstream : r.writeStream with
  | none =>
      have hshould : r.shouldStartWriteStream = false := by simp [shouldStartWriteStream, hstream]
      exact ⟨r, if_neg (by rw [hshould]; exact Bool.false_ne_true),
        flows_of_offline hstream (h.offline hstream) p⟩
  | some w =>
      have hw := Option.mem_def.mpr hstream
      cases hshould : r.shouldStartWriteStream with
      | true =>
          have hboth : w.isStarted = false ∧ r.pendingWrites ≠ [] := by
            simpa [shouldStartWriteStream, hstream, List.length_pos_iff] using hshould
          obtain ⟨w', hstart, hsettled⟩ := (h.shape w hw).start hboth.1 hboth.2
          refine ⟨{ r with writeStream := some w' }, ?_,
            h.settle hsettled (by rw [hstream]; exact Option.some_ne_none w)⟩
          rw [if_pos rfl]
          simp [RemoteStore.startWriteStream, guard, hshould, hstream, hstart]
      | false =>
          refine ⟨r, if_neg Bool.false_ne_true, { h with running := fun w' hw' hne => ?_ }⟩
          rw [hstream] at hw'
          obtain rfl := Option.mem_some_iff.mp hw'
          simpa [shouldStartWriteStream, hstream, List.length_pos_iff, hne] using hshould

end Fill

end RemoteStore

end CocoMap
