import CocoMap.ReadHistory

/-!
# A client that reads is a client

Views and listeners look at the client and never touch it, apart from the targets that are watched
for them.  So the client behind the reads runs as `DurableDelivery` and `LatencyCompensation` have
it, and what they say of its runs is said of the client that reads, too (`client_behind`).
-/

namespace CocoMap

open Transition

/-- What an event asks of the client itself. -/
def ReadingEvent.own {κ υ γ : Type} [LinearOrder κ] : ReadingEvent κ υ γ → List (ClientEvent κ υ γ)
  | .client e => [e]
  | .remoteEvent snapshotVersion documentUpdates _ => [.remoteEvent snapshotVersion documentUpdates]
  | _ => []

/-- The events that do not watch a target, or stop to. -/
def ClientEvent.IsUntargeted {κ υ γ : Type} [LinearOrder κ] : ClientEvent κ υ γ → Bool
  | .allocateQuery _ | .releaseQuery _ => false
  | _ => true

namespace ReadingClient

variable {κ υ Q γ : Type} [LinearOrder κ]

section Frame

variable [DecidableEq υ] [MutationQueue κ Q] [UserQueues υ Q] {c c' : ReadingClient κ υ Q γ}

omit [DecidableEq υ] [MutationQueue κ Q] [UserQueues υ Q] in
theorem client_advanceViews {next : QueryView κ → View κ × Option (ViewSnapshot κ)}
    (h : c.advanceViews next = some c') : c'.client = c.client := by
  obtain ⟨told, -, rfl⟩ := Option.map_eq_some_iff.mp h
  rfl

theorem client_stepClient {e : ClientEvent κ υ γ} {targetChanges : SortedMap ℤ (TargetChange κ)}
    (h : c.stepClient e targetChanges = some c') : c.client.step e = some c'.client := by
  obtain ⟨client, hstep, hemit⟩ := Option.bind_eq_some_iff.mp h
  have hsame : ∀ (changes : List (Changes κ)) (c₁ : ReadingClient κ υ Q γ),
      changes.foldlM (emitNewSnapshots targetChanges) c₁ = some c' → c'.client = c₁.client := by
    intro changes
    induction changes with
    | nil =>
        intro c₁ h
        cases h
        rfl
    | cons changes rest ih =>
        intro c₁ h
        obtain ⟨c₂, hadvance, hrest⟩ := Option.bind_eq_some_iff.mp h
        exact (ih c₂ hrest).trans (client_advanceViews hadvance)
  rw [hsame _ _ hemit]
  exact hstep

theorem client_releaseQuery {query : κ} (h : c.releaseQuery query = some c') :
    ∃ targetID, c.queryCache.targets.lookup query = some targetID ∧
      c.client.step (.releaseQuery targetID) = some c'.client := by
  obtain ⟨targetID, htarget, h⟩ := Option.bind_eq_some_iff.mp h
  obtain ⟨client, hstep, h⟩ := Option.bind_eq_some_iff.mp h
  cases h
  exact ⟨targetID, htarget, hstep⟩

theorem client_listenToQuery {query : κ} (h : c.listenToQuery query = some c') :
    c.queryViews.lookup query = none ∧
      c.client.step (.allocateQuery (c.queryCache.allocateQuery query).1) = some c'.client := by
  unfold listenToQuery at h
  cases hview : c.queryViews.lookup query with
  | some queryView =>
      rw [hview] at h
      cases h
  | none =>
      rw [hview] at h
      obtain ⟨client, hstep, h⟩ := Option.bind_eq_some_iff.mp h
      obtain ⟨docs, -, h⟩ := Option.bind_eq_some_iff.mp h
      obtain ⟨s, -, h⟩ := Option.bind_eq_some_iff.mp h
      obtain ⟨told, -, rfl⟩ := Option.map_eq_some_iff.mp h
      exact ⟨rfl, hstep⟩

variable [LawfulUserQueues κ υ Q] {pending : υ → Pending κ}

/-- **Behind every event** the client takes the step that was asked of it, or watches a target, or
stops to, or does nothing. -/
theorem client_step (h : c.Invariant pending) {e : ReadingEvent κ υ γ} (he : c.Enabled e)
    (hstep : c.step e = some c') :
    ∃ es, Permitted FirestoreClient.step FirestoreClient.Enabled c.client es ∧
      run FirestoreClient.step c.client es = some c'.client ∧
      es.filter ClientEvent.IsUntargeted = e.own := by
  have hnothing : c'.client = c.client → e.own = [] →
      ∃ es, Permitted FirestoreClient.step FirestoreClient.Enabled c.client es ∧
        run FirestoreClient.step c.client es = some c'.client ∧
        es.filter ClientEvent.IsUntargeted = e.own :=
    fun hclient hown => ⟨[], trivial, congrArg some hclient.symm, hown.symm⟩
  have hone : ∀ ce, c.client.Enabled ce → c.client.step ce = some c'.client →
      [ce].filter ClientEvent.IsUntargeted = e.own →
      ∃ es, Permitted FirestoreClient.step FirestoreClient.Enabled c.client es ∧
        run FirestoreClient.step c.client es = some c'.client ∧
        es.filter ClientEvent.IsUntargeted = e.own :=
    fun ce hce hclient hown => ⟨[ce], ⟨hce, fun _ _ => trivial⟩,
      run_cons_eq_some.mpr ⟨_, hclient, rfl⟩, hown⟩
  cases e with
  | client e =>
      obtain ⟨he, hown⟩ := he
      have hclient : c.client.step e = some c'.client := by
        cases e with
        | launch user =>
            obtain ⟨client, hlaunch, rfl⟩ := Option.map_eq_some_iff.mp hstep
            exact hlaunch
        | _ => exact client_stepClient hstep
      refine hone e he hclient ?_
      cases e <;> first | rfl | cases hown
  | getDocument key =>
      obtain ⟨told, -, h'⟩ := Option.bind_eq_some_iff.mp hstep
      dsimp only at h'
      split at h'
      · obtain ⟨hview, hclient⟩ := client_listenToQuery h'
        obtain ⟨targetID, cache, hallocate, htarget, -⟩ := h.targeted.allocateQuery hview
        rw [hallocate] at hclient
        exact hone (.allocateQuery targetID) htarget hclient rfl
      · cases h'
        exact hnothing rfl rfl
  | removeListener =>
      obtain ⟨n, -, h'⟩ := Option.bind_eq_some_iff.mp hstep
      obtain ⟨query, -, h'⟩ := Option.bind_eq_some_iff.mp h'
      dsimp only at h'
      split at h'
      · unfold stopListeningToQuery at h'
        split at h'
        · obtain ⟨targetID, -, hclient⟩ := client_releaseQuery h'
          exact hone (.releaseQuery targetID) trivial hclient rfl
        · cases h'
      · cases h'
        exact hnothing rfl rfl
  | deliver => exact hnothing (deliver_frame hstep).1 rfl
  | remoteEvent snapshotVersion documentUpdates targetChanges =>
      have hstep' := hstep
      rw [step, applyRemoteEvent] at hstep'
      split at hstep'
      · cases hstep'
      · have hclient := client_stepClient hstep'
        exact hone (.remoteEvent snapshotVersion documentUpdates) he.1 hclient rfl
  | rejectListen targetID error =>
      obtain ⟨queryView, -, h'⟩ := Option.bind_eq_some_iff.mp hstep
      obtain ⟨c₁, hrelease, h'⟩ := Option.bind_eq_some_iff.mp h'
      cases h'
      obtain ⟨targetID', -, hclient⟩ := client_releaseQuery hrelease
      exact hone (.releaseQuery targetID') trivial hclient rfl
  | applyChangedOnlineState state =>
      obtain ⟨c₁, hadvance, rfl⟩ := Option.map_eq_some_iff.mp hstep
      have hclient := client_advanceViews hadvance
      exact hnothing hclient rfl

end Frame

variable {userID : String} {es : List (ReadingEvent κ String γ)}

/-- **A client that reads is a client.**  Along every run, whatever is read, the client behind the
reads takes the steps of a run of its own, which differs in the targets that are watched only. -/
theorem client_behind (h : Permitted step Enabled
      (init userID : ReadingClient κ String (LevelDBMutationQueue κ) γ) es) :
    ∃ (c : ReadingClient κ String (LevelDBMutationQueue κ) γ) (clientEvents : List (ClientEvent κ String γ)),
      run step (init userID) es = some c ∧
      Permitted FirestoreClient.step FirestoreClient.Enabled (.init userID) clientEvents ∧
      run FirestoreClient.step (.init userID) clientEvents = some c.client ∧
      clientEvents.filter ClientEvent.IsUntargeted = es.flatMap ReadingEvent.own := by
  obtain ⟨c, hrun, -, clientEvents, ⟨hpermitted, hclient⟩, hown⟩ := run_permitted
    (P := fun es (c : ReadingClient κ String (LevelDBMutationQueue κ) γ) =>
      (∃ pending, c.Invariant pending) ∧ ∃ clientEvents,
        PermittedRun FirestoreClient.step FirestoreClient.Enabled (.init userID) clientEvents c.client ∧
        clientEvents.filter ClientEvent.IsUntargeted = es.flatMap ReadingEvent.own)
    ⟨⟨_, invariant_init userID⟩, [], .nil, rfl⟩
    (fun es c e _ ⟨⟨pending, hinvariant⟩, before, hbefore, hown⟩ henabled => by
      obtain ⟨c', pending', hstep, hinvariant', -⟩ := step_safe hinvariant henabled
      obtain ⟨after, hpermitted', hclient', hown'⟩ := client_step hinvariant henabled hstep
      refine ⟨c', hstep, ⟨pending', hinvariant'⟩, before ++ after,
        hbefore.trans ⟨hpermitted', hclient'⟩, ?_⟩
      rw [List.filter_append, hown, hown', List.flatMap_append, List.flatMap_singleton]) h
  exact ⟨c, clientEvents, hrun, hpermitted, hclient, hown⟩

theorem client_behind_readTwice :
    ∃ (c : ReadingClient ℕ String (LevelDBMutationQueue ℕ) ℕ) (clientEvents : List (ClientEvent ℕ String ℕ)),
      run step (init "a") readTwice = some c ∧
      Permitted FirestoreClient.step FirestoreClient.Enabled (.init "a") clientEvents ∧
      run FirestoreClient.step (.init "a") clientEvents = some c.client ∧
      clientEvents.filter ClientEvent.IsUntargeted = readTwice.flatMap ReadingEvent.own :=
  client_behind permitted_readTwice

end ReadingClient

end CocoMap
