import CocoMap.Reading

/-!
# Reads are safe

`Invariant` is what holds of a client that reads between any two events.  Whatever the client writes,
is answered or hears of the server, and however the state of its connection changes, no assertion
fails, and the first event that is dispatched for a read is a snapshot of what the client sees at
that moment (`stepClient_safe`, `applyChangedOnlineState_safe`).
-/

namespace CocoMap

namespace ReadingClient

variable {κ υ Q γ : Type} [LinearOrder κ] [DecidableEq υ] [MutationQueue κ Q]

/-- The document of a key as the client sees it. -/
def shown (c : ReadingClient κ υ Q γ) (key : κ) : Option ExistingDocument :=
  c.client.localStore.shown key

variable [UserQueues υ Q] [LawfulUserQueues κ υ Q] {c : ReadingClient κ υ Q γ}
  {pending pending' : υ → Pending κ} {doc doc' : κ → Option ExistingDocument}

omit [DecidableEq υ] [MutationQueue κ Q] [UserQueues υ Q] [LawfulUserQueues κ υ Q] in
/-- The views do not depend on the client otherwise. -/
theorem Advances.of_client {client : FirestoreClient κ υ Q γ} {offline : Prop}
    {c' : ReadingClient κ υ Q γ} (h : Advances { c with client } doc offline c') :
    c.Advances doc offline c' :=
  ⟨h.queryCache, h.targetID, h.reads, h.begun, h.removals, h.answered, h.housed, h.following, h.tells⟩

/-! ## The client takes a step -/

/-- **What the store reports makes every view show what the store has.** -/
theorem stepClient_spec (h : c.Following c.shown) (hhoused : c.eventManager.Housed c.home)
    {e : ClientEvent κ υ γ} {client : FirestoreClient κ υ Q γ} (hstep : c.client.step e = some client)
    (htold : c.client.Told client) (hvalid : client.Invariant pending')
    (targetChanges : SortedMap ℤ (TargetChange κ)) :
    ∃ c', c.stepClient e targetChanges = some c' ∧ c.Advances client.localStore.shown False c' ∧
      c'.client = client ∧ c'.eventManager.onlineState = c.eventManager.onlineState := by
  have hrest : c.stepClient e targetChanges =
      (client.emitted.drop c.client.emitted.length).foldlM (emitNewSnapshots targetChanges)
        { c with client } := by
    rw [stepClient, hstep]
    rfl
  cases htold with
  | nothing localStore emitted =>
      refine ⟨{ c with client }, ?_, ?_, rfl, rfl⟩
      · rw [hrest, emitted, List.drop_length]
        rfl
      · rw [localStore]
        exact (advances_self (c := { c with client }) h hhoused).of_client
  | changes changes reports targetIDs emitted =>
      have hnext : ∀ query queryView, c.queryViews.lookup query = some queryView →
          queryView.view.Advances (c.shown query)
            (queryView.view.applyChangesToDocuments (queryView.view.computeChanges changes)
              (targetChanges.lookup queryView.targetID)) (client.localStore.shown query) := by
        intro query queryView hview
        have hquery := h.query_eq hview
        have hcompute := reports.computeChanges hvalid.store.toConsistent
          (v := queryView.view) (by rw [hquery]; exact (h.applied hview).toShows)
        rw [hcompute, hquery]
        have hadvances := View.advances_applyChanges queryView.view (c.shown query)
          (client.localStore.shown query) (targetChanges.lookup queryView.targetID)
        rwa [hquery] at hadvances
      obtain ⟨c', hadvance, hadvances, hclient, honline⟩ :=
        advanceViews_spec (c := { c with client }) h hhoused hnext
      refine ⟨c', ?_, hadvances.of_client, hclient, honline⟩
      rw [hrest, emitted, List.drop_left, List.foldlM_cons]
      exact Option.bind_eq_some_iff.mpr ⟨c', hadvance, rfl⟩

/-! ## The invariant -/

/-- The targets that are watched are those of the views, and no two queries share one. -/
structure Targeted (c : ReadingClient κ υ Q γ) : Prop where
  nodup : c.client.localStore.targetIDs.Nodup
  mem_iff : ∀ targetID, targetID ∈ c.client.localStore.targetIDs ↔
    ∃ query queryView, c.queryViews.lookup query = some queryView ∧ queryView.targetID = targetID
  allocated : ∀ query queryView, c.queryViews.lookup query = some queryView →
    c.queryCache.targets.lookup query = some queryView.targetID
  bounded : ∀ query targetID, c.queryCache.targets.lookup query = some targetID →
    targetID ≤ c.queryCache.highestTargetID
  injective : ∀ query query' targetID, c.queryCache.targets.lookup query = some targetID →
    c.queryCache.targets.lookup query' = some targetID → query = query'

/-- What becomes of the reads. -/
structure Tracked (c : ReadingClient κ υ Q γ) : Prop where
  sound : ∀ n, (c.status n).Sound
  accounted : ∀ n, c.begun ≤ n → n < c.reads.length → (c.status n).Accounted
  earlier : ∀ n < c.begun, (c.status n).listener = none ∧ (c.status n).events = []
  later : ∀ n, c.reads.length ≤ n → c.status n = ⟨none, [], false, false⟩
  documents : ∀ n s, .snapshot s ∈ (c.status n).events →
    ∃ key d, c.home n = some key ∧ s.documents = .single key d
  removals : ∀ n ∈ c.removals, n ∈ c.muted
  begun : c.begun ≤ c.reads.length

/-- **What holds between two events.** -/
structure Invariant (c : ReadingClient κ υ Q γ) (pending : υ → Pending κ) : Prop where
  client : c.client.Invariant pending
  following : c.Following c.shown
  housed : c.eventManager.Housed c.home
  targeted : c.Targeted
  tracked : c.Tracked

/-- The client sees what the snapshot says; if the snapshot comes from the cache, then because the
client is offline. -/
def Sees (c : ReadingClient κ υ Q γ) (n : ℕ) (e : ViewSnapshot κ) : Prop :=
  ∃ s, c.IsShown c.shown n s ∧ e.documents = s.documents ∧ e.fromCache = s.fromCache ∧
    (e.fromCache = true → c.eventManager.onlineState = .offline)

/-- What a step dispatches for the reads: the first event of a read is what the client now sees, and
errors come from the server. -/
structure Dispatches (c : ReadingClient κ υ Q γ) (e : ReadingEvent κ υ γ)
    (c' : ReadingClient κ υ Q γ) : Prop where
  head : ∀ n s, (c'.status n).answered = false →
    (c'.status n).events.head? = some (.snapshot s) →
      (c.status n).events.head? = some (.snapshot s) ∨ c'.Sees n s
  error : ∀ n error, .error error ∈ (c'.status n).events →
    .error error ∈ (c.status n).events ∨ ∃ targetID, e = .rejectListen targetID error
  reads : c.reads <+: c'.reads

variable {c' : ReadingClient κ υ Q γ} {offline : Prop}

section Bookkeeping

omit [DecidableEq υ] [MutationQueue κ Q] [UserQueues υ Q] [LawfulUserQueues κ υ Q]

theorem Tracked.of_moves (h : c.Tracked) (hreads : c'.reads = c.reads) (hbegun : c'.begun = c.begun)
    (hmoves : ∀ n, (c.status n).Moves (c'.status n)) (hremovals : ∀ n ∈ c'.removals, n ∈ c'.muted)
    (hdocuments : ∀ n s, .snapshot s ∈ (c'.status n).events → .snapshot s ∈ (c.status n).events ∨
      ∃ key d, c.home n = some key ∧ s.documents = .single key d) : c'.Tracked where
  sound := fun n => (hmoves n).sound (h.sound n)
  accounted := fun n => by
    rw [hbegun, hreads]
    exact fun hbegun hlength => (hmoves n).accounted (h.accounted n hbegun hlength)
  earlier := fun n => by
    rw [hbegun]
    intro hn
    obtain ⟨hlistener, hevents⟩ := h.earlier n hn
    rw [(hmoves n).ended hlistener hevents]
    exact ⟨hlistener, hevents⟩
  later := fun n => by
    rw [hreads]
    intro hn
    have hlater := h.later n hn
    rw [(hmoves n).ended (by rw [hlater]) (by rw [hlater])]
    exact hlater
  documents := fun n s hs => by
    have hhome : c'.home n = c.home n := congrArg (fun reads : List κ => reads[n]?) hreads
    rw [hhome]
    exact (hdocuments n s hs).elim (h.documents n s) id
  removals := hremovals
  begun := by
    rw [hbegun, hreads]
    exact h.begun

theorem Targeted.congr (h : c.Targeted)
    (htargetIDs : c'.client.localStore.targetIDs = c.client.localStore.targetIDs)
    (htargets : c'.queryCache.targets = c.queryCache.targets)
    (hhighest : c'.queryCache.highestTargetID = c.queryCache.highestTargetID)
    (hviews : c'.queryViews = c.queryViews) : c'.Targeted where
  nodup := htargetIDs ▸ h.nodup
  mem_iff := by
    rw [htargetIDs, hviews]
    exact h.mem_iff
  allocated := by
    rw [htargets, hviews]
    exact h.allocated
  bounded := by
    rw [htargets, hhighest]
    exact h.bounded
  injective := by
    rw [htargets]
    exact h.injective

/-- A read for which anything is on its way has been begun. -/
theorem Tracked.lt_length (h : c.Tracked) {n : ℕ}
    (hn : (c.status n).events ≠ [] ∨ (c.status n).muted = true) : n < c.reads.length := by
  by_contra hle
  rw [h.later n (Nat.le_of_not_lt hle)] at hn
  exact hn.elim (fun hevents => hevents rfl) Bool.noConfusion

theorem Targeted.of_advances (h : c.Targeted) (hadvances : c.Advances doc offline c')
    (htargetIDs : c'.client.localStore.targetIDs = c.client.localStore.targetIDs) :
    c'.Targeted := by
  have hview : ∀ query queryView', c'.queryViews.lookup query = some queryView' →
      ∃ queryView, c.queryViews.lookup query = some queryView ∧
        queryView.targetID = queryView'.targetID := by
    intro query queryView' hview'
    have hmap := hadvances.targetID query
    rw [hview', Option.map_some, eq_comm, Option.map_eq_some_iff] at hmap
    exact hmap
  refine ⟨htargetIDs ▸ h.nodup, fun targetID => ?_, fun query queryView' hview' => ?_, ?_, ?_⟩
  · rw [htargetIDs, h.mem_iff]
    constructor
    · rintro ⟨query, queryView, hlookup, rfl⟩
      have hmap := hadvances.targetID query
      rw [hlookup, Option.map_some, Option.map_eq_some_iff] at hmap
      obtain ⟨queryView', hlookup', htarget⟩ := hmap
      exact ⟨query, queryView', hlookup', htarget⟩
    · rintro ⟨query, queryView', hlookup', rfl⟩
      obtain ⟨queryView, hlookup, htarget⟩ := hview query queryView' hlookup'
      exact ⟨query, queryView, hlookup, htarget⟩
  · obtain ⟨queryView, hlookup, htarget⟩ := hview query queryView' hview'
    rw [hadvances.queryCache, ← htarget]
    exact h.allocated query queryView hlookup
  · rw [hadvances.queryCache]
    exact h.bounded
  · rw [hadvances.queryCache]
    exact h.injective

theorem Tracked.of_advances (h : c.Tracked) (hadvances : c.Advances doc offline c') : c'.Tracked := by
  refine h.of_moves hadvances.reads hadvances.begun (fun n => (hadvances.tells n).moves)
    (fun n hn => ?_) fun n s hs => ?_
  · rw [hadvances.removals] at hn
    have hmuted : (c.status n).muted = true := decide_eq_true (h.removals n hn)
    rw [← (hadvances.tells n).muted] at hmuted
    exact of_decide_eq_true hmuted
  · refine ((hadvances.tells n).snapshot hs).imp_right ?_
    rintro ⟨s', ⟨key, queryView, hhome, hview, hshown⟩, heq⟩
    obtain ⟨d, hdocuments, -⟩ := hshown.documents
    rw [hadvances.following.query_eq hview] at hdocuments
    rw [home, hadvances.reads] at hhome
    exact ⟨key, d, hhome, heq.trans hdocuments⟩

/-- Every read that has a listener is accounted for. -/
theorem Tracked.nobody_or_accounted (h : c.Tracked) (n : ℕ) :
    (c.status n).listener = none ∨ (c.status n).Accounted := by
  rcases Nat.lt_or_ge n c.begun with hn | hbegun
  · exact Or.inl (h.earlier n hn).1
  · rcases Nat.lt_or_ge n c.reads.length with hlength | hlength
    · exact Or.inr (h.accounted n hbegun hlength)
    · exact Or.inl (by rw [h.later n hlength])

end Bookkeeping

omit [DecidableEq υ] [UserQueues υ Q] [LawfulUserQueues κ υ Q] in
theorem Tracked.dispatches (h : c.Tracked) (e : ReadingEvent κ υ γ)
    (hadvances : c.Advances c'.shown offline c')
    (hoffline : offline → c'.eventManager.onlineState = .offline) : c.Dispatches e c' where
  head := fun n s hanswered hhead => by
    have htells := hadvances.tells n
    refine (htells.head (h.nobody_or_accounted n) (htells.answered ▸ hanswered) hhead).imp_right ?_
    rintro ⟨s', hshown, hdocuments, hfromCache, hcache⟩
    exact ⟨s', hshown, hdocuments, hfromCache, fun hs => hoffline (hcache hs)⟩
  error := fun n error herror => Or.inl ((hadvances.tells n).error herror)
  reads := by rw [hadvances.reads]

omit [DecidableEq υ] in
/-- The views have taken a step, and the targets are the same. -/
theorem Invariant.of_advances (h : c.Invariant pending) (hclient : c'.client.Invariant pending')
    (hadvances : c.Advances c'.shown offline c')
    (htargetIDs : c'.client.localStore.targetIDs = c.client.localStore.targetIDs) :
    c'.Invariant pending' where
  client := hclient
  following := hadvances.following
  housed := hadvances.housed
  targeted := h.targeted.of_advances hadvances htargetIDs
  tracked := h.tracked.of_advances hadvances

/-! ## Events of the client -/

omit [DecidableEq υ] [UserQueues υ Q] [LawfulUserQueues κ υ Q] in
theorem targetIDs_of_told {client client' : FirestoreClient κ υ Q γ} (h : client.Told client') :
    client'.localStore.targetIDs = client.localStore.targetIDs := by
  cases h with
  | nothing localStore emitted => rw [localStore]
  | changes changes reports targetIDs emitted => exact targetIDs

/-- The client does something of its own, or is told something by the server. -/
theorem stepClient_safe (h : c.Invariant pending) {e : ClientEvent κ υ γ} (he : c.client.Enabled e)
    (hlaunch : ∀ user, e ≠ .launch user) (hallocate : ∀ targetID, e ≠ .allocateQuery targetID)
    (hrelease : ∀ targetID, e ≠ .releaseQuery targetID)
    (targetChanges : SortedMap ℤ (TargetChange κ)) (event : ReadingEvent κ υ γ) :
    ∃ c' pending', c.stepClient e targetChanges = some c' ∧ c'.Invariant pending' ∧
      c.Dispatches event c' ∧ c'.answered = c.answered := by
  obtain ⟨client, pending', o', hstep, hvalid, -, -⟩ :=
    FirestoreClient.step_refines h.client (c.client.refines_outbox pending) he
  have htold := FirestoreClient.step_told h.client he hlaunch hallocate hrelease hstep
  obtain ⟨c', hstepped, hadvances, hclient, honline⟩ :=
    stepClient_spec h.following h.housed hstep htold hvalid targetChanges
  have hshown : c'.shown = client.localStore.shown := by rw [← hclient]; rfl
  rw [← hshown] at hadvances
  refine ⟨c', pending', hstepped, h.of_advances (hclient ▸ hvalid) hadvances ?_,
    h.tracked.dispatches event hadvances False.elim, hadvances.answered⟩
  rw [hclient, targetIDs_of_told htold]

omit [DecidableEq υ] in
/-- The state of the connection changes. -/
theorem applyChangedOnlineState_safe (h : c.Invariant pending) (state : OnlineState) :
    ∃ c', c.applyChangedOnlineState state = some c' ∧ c'.Invariant pending ∧
      c.Dispatches (.applyChangedOnlineState state) c' ∧ c'.answered = c.answered := by
  have hnext : ∀ query queryView, c.queryViews.lookup query = some queryView →
      queryView.view.Advances (c.shown query) (queryView.view.applyChangedOnlineState state)
        (c.shown query) := fun query queryView hview =>
    View.advances_applyChangedOnlineState (h.following.applied hview) state
  obtain ⟨c₁, hadvance, hadvances, hclient, honline⟩ :=
    advanceViews_spec h.following h.housed hnext
  have hshown : c₁.shown = c.shown := by
    unfold shown
    rw [hclient]
  rw [← hshown] at hadvances
  have h₁ : c₁.Invariant pending :=
    h.of_advances (hclient ▸ h.client) hadvances (by rw [hclient])
  have hadvances' := advances_onlineState hadvances.following hadvances.housed state
  set c' : ReadingClient κ υ Q γ := { c₁ with
    eventManager := (c₁.eventManager.applyChangedOnlineState state).1
    userQueue := c₁.userQueue ++ (c₁.eventManager.applyChangedOnlineState state).2 } with hc'
  have hdispatches : c₁.Dispatches (.applyChangedOnlineState state) c' :=
    h₁.tracked.dispatches _ hadvances' id
  refine ⟨c', ?_, h₁.of_advances h₁.client hadvances' rfl, ⟨fun n s hanswered hhead => ?_,
    fun n error herror => Or.inl ?_, ?_⟩, hadvances.answered⟩
  · rw [applyChangedOnlineState, hadvance]
    rfl
  · rcases hdispatches.head n s hanswered hhead with hhead | hsees
    · -- no view waits for a client that comes back
      have hanswered₁ := (hadvances'.tells n).answered.symm.trans hanswered
      have htells := hadvances.tells n
      refine (htells.head (h.tracked.nobody_or_accounted n) (htells.answered ▸ hanswered₁)
        hhead).imp_right ?_
      rintro ⟨s', hshown, hdocuments, hfromCache, hcache⟩
      exact ⟨s', hshown, hdocuments, hfromCache, fun hs => (hcache hs).elim⟩
    · exact Or.inr hsees
  · exact (hadvances.tells n).error ((hadvances'.tells n).error herror)
  · rw [hadvances'.reads, hadvances.reads]

end ReadingClient

end CocoMap
