import CocoMap.ReadEnds

/-!
# Every step of a client that reads

A read begins by joining the listeners of its document, the first of which makes the sync engine
listen.  With what `ReadEnds` says of the end of a read this gives `step_safe`: on every event that
can happen no assertion fails, and the invariant of `ReadSafety` is kept.
-/

namespace CocoMap

namespace ReadingClient

variable {κ υ Q γ : Type} [LinearOrder κ] {c c' : ReadingClient κ υ Q γ}

variable [DecidableEq υ] [MutationQueue κ Q] [UserQueues υ Q] [LawfulUserQueues κ υ Q]
  {pending : υ → Pending κ}

/-! ## Reads begin -/

omit [MutationQueue κ Q] [UserQueues υ Q] [LawfulUserQueues κ υ Q] [DecidableEq υ] in
theorem home_concat {key : κ} (hreads : c'.reads = c.reads ++ [key]) :
    c'.home = Function.update c.home c.reads.length (some key) := by
  funext k
  rw [home, hreads]
  rcases lt_trichotomy k c.reads.length with hk | rfl | hk
  · rw [Function.update_of_ne hk.ne, List.getElem?_append_left hk]
    rfl
  · rw [Function.update_self, List.getElem?_concat_length]
  · rw [Function.update_of_ne hk.ne', home, List.getElem?_eq_none (by rw [List.length_append]; exact hk),
      List.getElem?_eq_none hk.le]

omit [UserQueues υ Q] [LawfulUserQueues κ υ Q] [DecidableEq υ] in
/-- **A read begins**: its listener is told of the last snapshot of its query. -/
theorem Tracked.of_begun (h : c.Tracked) {key : κ} {queryView : QueryView κ} {s : ViewSnapshot κ}
    (hreads : c'.reads = c.reads ++ [key]) (hbegun : c'.begun = c.begun)
    (hremovals : c'.removals = c.removals) (hmuted : c'.muted = c.muted)
    (hanswered : c'.answered = c.answered)
    (hview : c'.queryViews.lookup key = some queryView) (hquery : queryView.view.query = key)
    (hsnapshot : View.SnapshotOf s queryView.view (c'.shown key))
    (honline : c'.eventManager.onlineState = c.eventManager.onlineState)
    {l : QueryListener κ} (hl : l = c.eventManager.newcomer c.reads.length getOptions)
    (hlistener : ∀ q k, c'.eventManager.listener q k =
      if q = key ∧ k = c.reads.length then some (l.queryDidChangeViewSnapshot s).1
      else c.eventManager.listener q k)
    (hevents : ∀ k, eventsOf k c'.userQueue = eventsOf k c.userQueue ++
      if k = c.reads.length then ((l.queryDidChangeViewSnapshot s).2.map ViewEvent.snapshot).toList
      else []) :
    c'.Tracked ∧ c.Dispatches (.getDocument key) c' := by
  have hhome := home_concat hreads
  set n := c.reads.length with hn
  have hlater := h.later n le_rfl
  have hothers : ∀ k, k ≠ n → c'.status k = c.status k := by
    intro k hk
    have hsame : ((c'.home k).bind fun q => c'.eventManager.listener q k) =
        (c.home k).bind fun q => c.eventManager.listener q k := by
      rw [hhome, Function.update_of_ne hk]
      refine Option.bind_congr fun q _ => ?_
      rw [hlistener, if_neg fun h => hk h.2]
    rw [status, hsame, hevents, if_neg hk, List.append_nil, hmuted, hanswered]
    rfl
  have hnew : c'.status n = ⟨some (l.queryDidChangeViewSnapshot s).1,
      ((l.queryDidChangeViewSnapshot s).2.map ViewEvent.snapshot).toList, false, false⟩ := by
    obtain ⟨-, hnil, hnotMuted, hnotAnswered⟩ := Status.mk.inj hlater
    rw [status, hhome, Function.update_self, Option.bind_some, hlistener, if_pos ⟨rfl, rfl⟩, hevents,
      if_pos rfl, hnil, hmuted, hanswered, hnotMuted, hnotAnswered]
    rfl
  -- the listener is the one of a read that waits, told of the snapshot
  have hoptions : l.options = getOptions := by rw [hl]; rfl
  have htold : l.Told s c'.eventManager.onlineState (l.queryDidChangeViewSnapshot s) := by
    rw [honline, show c.eventManager.onlineState = l.onlineState by rw [hl]; rfl]
    exact QueryListener.told_queryDidChangeViewSnapshot (by rw [hoptions]; rfl) s
  have htells : Status.Tells c'.eventManager.onlineState (c'.IsShown c'.shown n)
      (c'.eventManager.onlineState = .offline) ⟨some l, [], false, false⟩ (c'.status n) := by
    refine .told rfl htold ⟨key, queryView, by rw [hhome, Function.update_self], hview, hsnapshot⟩
      (fun hwaits hraised hcache => ?_) hnew
    obtain ⟨e, he⟩ := Option.ne_none_iff_exists'.mp hraised
    have hshould := (htold.event e he).2.2 hwaits
    rw [shouldRaiseInitialEvent_iff hoptions] at hshould
    exact hshould.resolve_left (by rw [hcache]; exact Bool.noConfusion)
  have hsound : Status.Sound (⟨some l, [], false, false⟩ : Status κ) :=
    ⟨fun _ _ _ => ⟨rfl, rfl⟩, fun h => Bool.noConfusion h, fun h => Bool.noConfusion h,
      fun _ he => absurd he List.not_mem_nil, fun _ before after heq => by
        cases before <;> cases heq⟩
  have haccounted : Status.Accounted (⟨some l, [], false, false⟩ : Status κ) :=
    Or.inr (Or.inr ⟨l, rfl, by rw [hl]; rfl⟩)
  refine ⟨⟨fun k => ?_, fun k hbeg hk => ?_, fun k hk => ?_, fun k hk => ?_, fun k s' hs => ?_, ?_, ?_⟩,
    fun k s' hans hhead => ?_, fun k e he => ?_, hreads ▸ List.prefix_append _ _⟩
  · by_cases hk : k = n
    · exact hk ▸ htells.sound hsound
    · rw [hothers k hk]
      exact h.sound k
  · by_cases hkn : k = n
    · exact hkn ▸ htells.accounted haccounted
    · rw [hothers k hkn]
      rw [hreads, List.length_append, List.length_singleton] at hk
      exact h.accounted k (hbegun ▸ hbeg) (lt_of_le_of_ne (Nat.le_of_lt_succ hk) hkn)
  · rw [hbegun] at hk
    rw [hothers k (lt_of_lt_of_le hk h.begun).ne]
    exact h.earlier k hk
  · rw [hreads, List.length_append, List.length_singleton] at hk
    rw [hothers k (Nat.lt_of_succ_le hk).ne']
    exact h.later k (Nat.le_of_succ_le hk)
  · by_cases hk : k = n
    · rw [hk] at hs ⊢
      rcases htells.snapshot hs with hs | ⟨s', ⟨key', queryView', hkey', hview', hshown⟩, heq⟩
      · exact absurd hs List.not_mem_nil
      · rw [hhome, Function.update_self, Option.some_inj] at hkey'
        subst hkey'
        obtain rfl := Option.some_inj.mp (hview.symm.trans hview')
        obtain ⟨d, hdocuments, -⟩ := hshown.documents
        exact ⟨key, d, by rw [hhome, Function.update_self], by rw [heq, hdocuments, hquery]⟩
    · rw [hothers k hk] at hs
      rw [hhome, Function.update_of_ne hk]
      exact h.documents k s' hs
  · rw [hremovals, hmuted]
    exact h.removals
  · rw [hbegun, hreads, List.length_append]
    exact Nat.le_add_right_of_le h.begun
  · by_cases hk : k = n
    · rw [hk] at hhead ⊢
      rcases htells.head (Or.inr haccounted) rfl hhead with hnil | hsees
      · cases hnil
      · exact Or.inr hsees
    · rw [hothers k hk] at hhead
      exact Or.inl hhead
  · by_cases hk : k = n
    · rw [hk] at he
      exact absurd (htells.error he) List.not_mem_nil
    · rw [hothers k hk] at he
      exact Or.inl he

omit [DecidableEq υ] [MutationQueue κ Q] [UserQueues υ Q] [LawfulUserQueues κ υ Q] in
/-- The query of a new view has a target of its own. -/
theorem Targeted.allocateQuery (h : c.Targeted) {query : κ}
    (hview : c.queryViews.lookup query = none) :
    ∃ targetID queryCache, c.queryCache.allocateQuery query = (targetID, queryCache) ∧
      targetID ∉ c.client.localStore.targetIDs ∧
      ∀ (client : FirestoreClient κ υ Q γ) (view : View κ) (c' : ReadingClient κ υ Q γ),
        client.localStore.targetIDs = targetID :: c.client.localStore.targetIDs →
        c'.client = client → c'.queryCache = queryCache →
        c'.queryViews = c.queryViews.insert query ⟨targetID, view⟩ → c'.Targeted := by
  have hviews : ∀ q queryView, c.queryViews.lookup q = some queryView → q ≠ query := by
    rintro q queryView hq rfl
    rw [hview] at hq
    cases hq
  obtain ⟨targetID, cache, hcache, hnew, hlookup, hothers, hbounded, hinjective⟩ :
      ∃ targetID cache, c.queryCache.allocateQuery query = (targetID, cache) ∧
        targetID ∉ c.client.localStore.targetIDs ∧ cache.targets.lookup query = some targetID ∧
        (∀ q, q ≠ query → cache.targets.lookup q = c.queryCache.targets.lookup q) ∧
        (∀ q t, cache.targets.lookup q = some t → t ≤ cache.highestTargetID) ∧
        ∀ q q' t, cache.targets.lookup q = some t → cache.targets.lookup q' = some t → q = q' := by
    cases hquery : c.queryCache.targets.lookup query with
    | some targetID =>
        refine ⟨targetID, c.queryCache, ?_, fun hmem => ?_, hquery, fun _ _ => rfl, h.bounded,
          h.injective⟩
        · rw [QueryCache.allocateQuery, hquery]
        · obtain ⟨q, queryView, hq, rfl⟩ := (h.mem_iff targetID).mp hmem
          exact hviews q queryView hq (h.injective q query _ (h.allocated q queryView hq) hquery)
    | none =>
        have hold : ∀ q t, c.queryCache.targets.lookup q = some t →
            t < c.queryCache.highestTargetID + 2 := fun q t hq => by
          have := h.bounded q t hq
          omega
        refine ⟨_, _, by rw [QueryCache.allocateQuery, hquery], fun hmem => ?_, ?_, fun q hq => ?_,
          fun q t => ?_, fun q q' t => ?_⟩
        · obtain ⟨q, queryView, hq, heq⟩ := (h.mem_iff _).mp hmem
          exact (hold q _ (h.allocated q queryView hq)).ne heq
        · exact (SortedMap.lookup_insert ..).trans (if_pos rfl)
        · exact (SortedMap.lookup_insert ..).trans (if_neg hq)
        · dsimp only
          rw [SortedMap.lookup_insert]
          split
          · intro heq
            exact (Option.some_inj.mp heq) ▸ le_max_right _ _
          · exact fun hq => le_max_of_le_left (h.bounded q t hq)
        · dsimp only
          rw [SortedMap.lookup_insert, SortedMap.lookup_insert]
          split
          · rename_i hq
            intro heq
            split
            · rename_i hq'
              exact fun _ => hq.trans hq'.symm
            · exact fun hq' => absurd (Option.some_inj.mp heq).symm (hold q' t hq').ne
          · split
            · exact fun hq heq => absurd (Option.some_inj.mp heq).symm (hold q t hq).ne
            · exact h.injective q q' t
  refine ⟨targetID, cache, hcache, hnew, fun client view c' htargetIDs hclient hcache' hviews' => ?_⟩
  subst hclient hcache'
  refine ⟨?_, fun t => ?_, fun q queryView => ?_, hbounded, hinjective⟩
  · rw [htargetIDs]
    exact List.nodup_cons.mpr ⟨hnew, h.nodup⟩
  · rw [htargetIDs, List.mem_cons, h.mem_iff, hviews']
    constructor
    · rintro (rfl | ⟨q, queryView, hq, rfl⟩)
      · exact ⟨query, ⟨t, view⟩, (SortedMap.lookup_insert ..).trans (if_pos rfl), rfl⟩
      · exact ⟨q, queryView,
          (SortedMap.lookup_insert ..).trans ((if_neg (hviews q queryView hq)).trans hq), rfl⟩
    · rintro ⟨q, queryView, hq, rfl⟩
      rw [SortedMap.lookup_insert] at hq
      split at hq
      · exact Or.inl (by cases hq; rfl)
      · exact Or.inr ⟨q, queryView, hq, rfl⟩
  · rw [hviews', SortedMap.lookup_insert]
    split
    · rename_i hq
      intro heq
      cases heq
      exact hq ▸ hlookup
    · rename_i hq
      rw [hothers q hq]
      exact h.allocated q queryView

omit [DecidableEq υ] in
/-- A read of a document that is listened to. -/
theorem getDocument_joins (h : c.Invariant pending) {key : κ} {queryView : QueryView κ}
    {info : QueryListenersInfo κ} (hview : c.queryViews.lookup key = some queryView)
    (hinfo : c.eventManager.queries.lookup key = some info) [DecidableEq υ] :
    ∃ c', c.getDocument key = some c' ∧ c'.Invariant pending ∧ c.Dispatches (.getDocument key) c' ∧
      c'.answered = c.answered := by
  have hfresh : c.home c.reads.length = none := List.getElem?_eq_none le_rfl
  have hfollows := h.following key
  rw [hview, hinfo] at hfollows
  cases hfollows with
  | listened ofQuery applied snapshot loud knows =>
      rename_i s listeners
      set l := c.eventManager.newcomer c.reads.length getOptions with hl
      have hwelcome : c.eventManager.welcome key c.reads.length getOptions =
          l.queryDidChangeViewSnapshot s := by
        rw [EventManager.welcome, hinfo]
        rfl
      have hadd : c.eventManager.addListener key (.init c.reads.length getOptions) = some _ :=
        EventManager.addListener_eq fun s' hs' => by
          rw [hinfo] at hs'
          cases hs'
          exact loud
      rw [hwelcome] at hadd
      let c' : ReadingClient κ υ Q γ := { c with
        reads := c.reads ++ [key]
        eventManager := { c.eventManager with
          queries := c.eventManager.queries.insert key
            (c.eventManager.joined key c.reads.length getOptions) }
        userQueue := c.userQueue ++ ((l.queryDidChangeViewSnapshot s).2.map fun s =>
          (c.reads.length, ViewEvent.snapshot s)).toList }
      have hhome : c'.home = Function.update c.home c.reads.length (some key) := home_concat rfl
      obtain ⟨htracked, hdispatches⟩ := h.tracked.of_begun
        (show c'.reads = c.reads ++ [key] from rfl) rfl rfl rfl rfl hview ofQuery snapshot rfl hl
        (fun q k => by rw [EventManager.listener_joined h.housed hfresh rfl q k, hwelcome])
        fun k => by rw [← eventsOf_raised]; exact eventsOf_append k _ _
      refine ⟨c', ?_, ⟨h.client, fun q => ?_, ?_, h.targeted.congr rfl rfl rfl rfl, htracked⟩,
        hdispatches, rfl⟩
      · rw [getDocument, hadd, hinfo]
        rfl
      · have hfollows := h.following q
        change Follows q (c.shown q) c.eventManager.onlineState (c.queryViews.lookup q)
          ((c.eventManager.queries.insert key _).lookup q)
        rw [SortedMap.lookup_insert]
        split
        · rename_i hq
          subst hq
          rw [hview, EventManager.joined, hwelcome, hinfo]
          refine .listened ofQuery applied snapshot loud fun l' hl' => ?_
          rcases List.mem_append.mp hl' with hold | hnew
          · exact knows l' hold
          · rw [List.mem_singleton.mp hnew]
            have htold : l.Told s l.onlineState (l.queryDidChangeViewSnapshot s) :=
              QueryListener.told_queryDidChangeViewSnapshot rfl s
            exact ⟨htold.knows, htold.options⟩
        · exact hfollows
      · rw [hhome]
        exact EventManager.housed_joined h.housed hfresh rfl

/-- The first read of a document makes the sync engine listen. -/
theorem getDocument_listens (h : c.Invariant pending) {key : κ}
    (hview : c.queryViews.lookup key = none) (hinfo : c.eventManager.queries.lookup key = none) :
    ∃ c', c.getDocument key = some c' ∧ c'.Invariant pending ∧ c.Dispatches (.getDocument key) c' ∧
      c'.answered = c.answered := by
  have hfresh : c.home c.reads.length = none := List.getElem?_eq_none le_rfl
  set l := c.eventManager.newcomer c.reads.length getOptions with hl
  have hwelcome : c.eventManager.welcome key c.reads.length getOptions = (l, none) := by
    rw [EventManager.welcome, hinfo]
    rfl
  have hjoined : c.eventManager.joined key c.reads.length getOptions = ⟨none, [l]⟩ := by
    rw [EventManager.joined, hwelcome, hinfo]
    rfl
  have hadd : c.eventManager.addListener key (.init c.reads.length getOptions) = some _ :=
    EventManager.addListener_eq fun s' hs' => by
      rw [hinfo] at hs'
      cases hs'
  rw [hwelcome, hjoined] at hadd
  set m₁ : EventManager κ := { c.eventManager with
    queries := c.eventManager.queries.insert key ⟨none, [l]⟩ } with hm₁
  have hqueries : m₁.queries = c.eventManager.queries.insert key
      (c.eventManager.joined key c.reads.length getOptions) := by rw [hjoined]
  have hlistener₁ := EventManager.listener_joined h.housed hfresh hqueries
  have hhoused₁ := EventManager.housed_joined h.housed hfresh hqueries
  -- the sync engine listens
  obtain ⟨targetID, queryCache, hallocate, htarget, htargeted⟩ := h.targeted.allocateQuery hview
  obtain ⟨client, hstep, hclient, -⟩ :=
    FirestoreClient.allocateQuery_refines h.client (c.client.refines_outbox pending) htarget
  have hstore : client.localStore =
      { c.client.localStore with targetIDs := targetID :: c.client.localStore.targetIDs } := by
    have hstep' := hstep
    rw [FirestoreClient.step, (LocalStore.allocateQuery_spec h.client.store htarget).1] at hstep'
    cases hstep'
    rfl
  obtain ⟨docs, hdocs, hcompute⟩ :=
    hclient.store.toConsistent.executeQuery key (queryCache.matchingKeys targetID)
  set view := View.init key (queryCache.matchingKeys targetID) with hviewinit
  have hadvances := View.advances_applyChanges view none (client.localStore.shown key) none
  rw [show view.query = key from rfl, ← hcompute] at hadvances
  set next := view.applyChangesToDocuments (view.computeChanges docs) none with hnext
  obtain ⟨s, hs⟩ : ∃ s, next.2 = some s := by
    refine Option.ne_none_iff_exists'.mp fun hnone => ?_
    exact hadvances.applied.syncState_ne_none (hadvances.quiet hnone).2
  obtain ⟨hsnapshot, hloud⟩ := hadvances.loud s hs
  have hquery : s.query = key := hsnapshot.query.trans hadvances.query
  obtain ⟨m, events, hhandle, hhands⟩ := EventManager.handleViewSnapshots_spec hhoused₁
    (show ∀ s' ∈ [s], View.Loud s' from fun s' hs' => List.mem_singleton.mp hs' ▸ hloud)
    (List.nodup_singleton _)
  have hlatest : ∀ q, EventManager.latest [s] q = if q = key then some s else none := by
    intro q
    rw [EventManager.latest, List.find?_singleton, hquery]
    by_cases hq : q = key
    · simp [hq]
    · simp [hq, Ne.symm hq]
  have hnobody : ∀ k, c.eventManager.listener key k = none := fun k => by
    rw [EventManager.listener, hinfo]
    rfl
  let c' : ReadingClient κ υ Q γ := { c with
    reads := c.reads ++ [key]
    client
    queryCache
    queryViews := c.queryViews.insert key ⟨targetID, next.1⟩
    eventManager := m
    userQueue := c.userQueue ++ [] ++ events }
  have hhome : c'.home = Function.update c.home c.reads.length (some key) := home_concat rfl
  have hshown : c'.shown = c.shown := by
    funext q
    change client.localStore.shown q = _
    rw [hstore]
    rfl
  have hlistener : ∀ q k, m.listener q k = if q = key ∧ k = c.reads.length then
      some (l.queryDidChangeViewSnapshot s).1 else c.eventManager.listener q k := by
    intro q k
    rw [hhands.updates.listener, hlistener₁, hwelcome, hlatest]
    by_cases hq : q = key
    · subst hq
      by_cases hk : k = c.reads.length
      · simp [hk, EventManager.change]
      · simp [hk, hnobody]
    · simp [hq, EventManager.change]
  have hevents : ∀ k, eventsOf k c'.userQueue = eventsOf k c.userQueue ++
      if k = c.reads.length then ((l.queryDidChangeViewSnapshot s).2.map ViewEvent.snapshot).toList
      else [] := by
    intro k
    change eventsOf k (c.userQueue ++ [] ++ events) = _
    rw [List.append_nil, eventsOf_append, hhands.events]
    congr 1
    by_cases hk : k = c.reads.length
    · rw [if_pos hk, hk, Function.update_self, Option.bind_some, hlistener₁, if_pos ⟨rfl, rfl⟩,
        hwelcome, hlatest, if_pos rfl]
      rfl
    · rw [if_neg hk, Function.update_of_ne hk]
      cases c.home k with
      | none => rfl
      | some q =>
          rw [Option.bind_some, hlistener₁, if_neg fun h => hk h.2, hlatest]
          by_cases hq : q = key
          · rw [hq, hnobody]
            rfl
          · rw [if_neg hq]
            cases c.eventManager.listener q k <;> rfl
  have hlookup : c'.queryViews.lookup key = some ⟨targetID, next.1⟩ :=
    (SortedMap.lookup_insert ..).trans (if_pos rfl)
  obtain ⟨htracked, hdispatches⟩ := h.tracked.of_begun
    (show c'.reads = c.reads ++ [key] from rfl) rfl rfl rfl rfl hlookup hadvances.query hsnapshot
    hhands.onlineState hl hlistener hevents
  refine ⟨c', ?_, ⟨hclient, fun q => ?_, ?_, ?_, htracked⟩, hdispatches, rfl⟩
  · have hlisten : listenToQuery { c with
        reads := c.reads ++ [key], eventManager := m₁, userQueue := c.userQueue ++ [] } key =
        some c' := by
      unfold listenToQuery
      simp only [hview, hallocate, hstep, hdocs, Option.bind_eq_bind, Option.bind_some]
      rw [if_neg (by simp), ← hviewinit, ← hnext]
      simp only [hs, Option.bind_some, handleViewSnapshots, hhandle]
      rfl
    rw [getDocument, hadd, hinfo]
    exact hlisten
  · have hfollows := h.following q
    change Follows q (c'.shown q) m.onlineState
      ((c.queryViews.insert key ⟨targetID, next.1⟩).lookup q) (m.queries.lookup q)
    rw [hhands.onlineState, hhands.lookup, hlatest, SortedMap.lookup_insert]
    change Follows q (c'.shown q) c.eventManager.onlineState _
      (((c.eventManager.queries.insert key ⟨none, [l]⟩).lookup q).map _)
    rw [SortedMap.lookup_insert]
    by_cases hq : q = key
    · subst hq
      rw [if_pos rfl, if_pos rfl, if_pos rfl]
      refine .listened hadvances.query hadvances.applied hsnapshot hloud fun l' hl' => ?_
      rw [List.mem_singleton.mp hl']
      have htold : l.Told s l.onlineState (l.queryDidChangeViewSnapshot s) :=
        QueryListener.told_queryDidChangeViewSnapshot rfl s
      exact ⟨htold.knows, htold.options⟩
    · rw [if_neg hq, if_neg hq, if_neg hq, EventManager.forEach_change_none_map, hshown]
      exact hfollows
  · rw [hhome]
    exact hhands.updates.housed hhoused₁
  · exact htargeted client next.1 c' (by rw [hstore]) rfl rfl rfl

/-- A read begins, of a document that is listened to or not. -/
theorem getDocument_safe (h : c.Invariant pending) (key : κ) :
    ∃ c', c.getDocument key = some c' ∧ c'.Invariant pending ∧ c.Dispatches (.getDocument key) c' ∧
      c'.answered = c.answered := by
  have hfollows := h.following key
  cases hview : c.queryViews.lookup key with
  | none =>
      cases hinfo : c.eventManager.queries.lookup key with
      | none => exact getDocument_listens h hview hinfo
      | some info =>
          rw [hview, hinfo] at hfollows
          cases hfollows
  | some queryView =>
      cases hinfo : c.eventManager.queries.lookup key with
      | none =>
          rw [hview, hinfo] at hfollows
          cases hfollows
      | some info => exact getDocument_joins h hview hinfo

/-! ## The server speaks -/

theorem applyTargetChanges_targets (entries : List (ℤ × TargetChange κ)) (targetIDs : List ℤ)
    (cache : QueryCache κ) :
    let cache' := entries.foldl (fun cache entry =>
      if entry.1 ∈ targetIDs then cache.applyTargetChange entry.1 entry.2 else cache) cache
    cache'.targets = cache.targets ∧ cache'.highestTargetID = cache.highestTargetID := by
  induction entries generalizing cache with
  | nil => exact ⟨rfl, rfl⟩
  | cons entry entries ih =>
      obtain ⟨htargets, hhighest⟩ := ih
        (if entry.1 ∈ targetIDs then cache.applyTargetChange entry.1 entry.2 else cache)
      refine ⟨htargets.trans ?_, hhighest.trans ?_⟩ <;> split <;> rfl

/-- **A remote event** reaches the views whose targets it speaks of. -/
theorem applyRemoteEvent_safe (h : c.Invariant pending) {snapshotVersion : SnapshotVersion}
    {documentUpdates : SortedMap κ MaybeDocument} {targetChanges : SortedMap ℤ (TargetChange κ)}
    (he : c.client.Enabled (.remoteEvent snapshotVersion documentUpdates))
    (htargets : ∀ entry ∈ targetChanges.entries, (c.queryViewByTarget entry.1).isSome = true) :
    ∃ c' pending', c.applyRemoteEvent snapshotVersion documentUpdates targetChanges = some c' ∧
      c'.Invariant pending' ∧
      c.Dispatches (.remoteEvent snapshotVersion documentUpdates targetChanges) c' ∧
      c'.answered = c.answered := by
  have hknown : (targetChanges.entries.any fun entry => (c.queryViewByTarget entry.1).isNone) =
      false := by
    rw [List.any_eq_false]
    intro entry hentry hnone
    have hsome := htargets entry hentry
    rw [Option.isNone_iff_eq_none.mp hnone] at hsome
    cases hsome
  rw [applyRemoteEvent, hknown, if_neg Bool.false_ne_true]
  dsimp only
  generalize targetChanges.mapVal _ = filtered
  obtain ⟨hsame, hhighest⟩ :=
    applyTargetChanges_targets filtered.entries c.client.localStore.targetIDs c.queryCache
  generalize filtered.entries.foldl _ c.queryCache = queryCache at hsame hhighest
  have h₁ : Invariant { c with queryCache } pending :=
    ⟨h.client, h.following, h.housed, h.targeted.congr rfl hsame hhighest rfl,
      h.tracked.of_moves rfl rfl (fun n => Status.moves_self _) h.tracked.removals
        fun n s hs => Or.inl hs⟩
  obtain ⟨c', pending', hstep, hinvariant, hdispatches, hanswered⟩ := stepClient_safe h₁ he
    (fun _ h => by cases h) (fun _ h => by cases h) (fun _ h => by cases h) filtered
    (.remoteEvent snapshotVersion documentUpdates targetChanges)
  exact ⟨c', pending', hstep, hinvariant,
    ⟨hdispatches.head, hdispatches.error, hdispatches.reads⟩, hanswered⟩

/-! ## A new process -/

/-- **A new process** knows nothing of the reads of the last. -/
theorem launch_safe (h : c.Invariant pending) (initialUser : υ) :
    ∃ c' pending', c.launch initialUser = some c' ∧ c'.Invariant pending' ∧
      c.Dispatches (.client (.launch initialUser)) c' ∧ c'.answered = c.answered := by
  obtain ⟨client, pending', o', hstep, hclient, -, -⟩ :=
    FirestoreClient.step_refines h.client (c.client.refines_outbox pending)
      (show c.client.Enabled (.launch initialUser) from trivial)
  have htargetIDs : client.localStore.targetIDs = [] := by
    obtain ⟨s, hs, henable⟩ := Option.bind_eq_some_iff.mp hstep
    rw [(FirestoreClient.remoteOnly_enableNetwork henable).localStore]
    exact LocalStore.targetIDs_launch hs
  let c' : ReadingClient κ υ Q γ := { c with
    client
    queryViews := .empty
    eventManager := .init
    userQueue := []
    removals := []
    begun := c.reads.length }
  have hstatus : ∀ n, c'.status n = { c.status n with listener := none, events := [] } := by
    intro n
    have hnobody : ((c'.home n).bind fun key => c'.eventManager.listener key n) = none :=
      Option.bind_eq_none_iff.mpr fun key _ => rfl
    rw [status, hnobody]
    rfl
  refine ⟨c', pending', ?_, ⟨hclient, fun q => .nobody, ⟨fun q info hinfo => ?_, fun q info hinfo => ?_⟩,
    ⟨?_, fun targetID => ?_, fun q queryView hview => ?_, h.targeted.bounded, h.targeted.injective⟩,
    ⟨fun n => ?_, fun n hbegun hlength => ?_, fun n _ => ?_, fun n hn => ?_, fun n s hs => ?_,
      fun n hn => ?_, le_rfl⟩⟩,
    ⟨fun n s _ hhead => ?_, fun n e he => ?_, List.prefix_rfl⟩, rfl⟩
  · rw [launch, hstep]
    rfl
  · cases hinfo
  · cases hinfo
  · exact htargetIDs ▸ List.nodup_nil
  · change targetID ∈ client.localStore.targetIDs ↔ _
    rw [htargetIDs]
    constructor
    · exact fun hmem => absurd hmem List.not_mem_nil
    · rintro ⟨q, queryView, hview, -⟩
      cases hview
  · cases hview
  · rw [hstatus]
    exact ⟨fun l hl => absurd hl (Option.not_mem_none l), fun _ => Or.inr ⟨rfl, rfl⟩,
      (h.tracked.sound n).muted, fun e he => absurd he List.not_mem_nil,
      fun e before after heq => by cases before <;> cases heq⟩
  · exact absurd hlength (Nat.not_lt_of_le hbegun)
  · rw [hstatus]
    exact ⟨rfl, rfl⟩
  · rw [hstatus, h.tracked.later n hn]
  · rw [hstatus] at hs
    exact absurd hs List.not_mem_nil
  · exact absurd hn List.not_mem_nil
  · rw [hstatus] at hhead
    cases hhead
  · rw [hstatus] at he
    exact absurd he List.not_mem_nil

/-! ## Every step -/

/-- **On every event that can happen** no assertion fails, the invariant is kept, and the answer of
a read is that of the first event that was dispatched for it. -/
theorem step_safe (h : c.Invariant pending) {e : ReadingEvent κ υ γ} (he : c.Enabled e) :
    ∃ c' pending', c.step e = some c' ∧ c'.Invariant pending' ∧ c.Dispatches e c' ∧ c.Answers c' := by
  cases e with
  | client e =>
      obtain ⟨he, hown⟩ := he
      by_cases hlaunch : ∃ user, e = .launch user
      · obtain ⟨user, rfl⟩ := hlaunch
        obtain ⟨c', pending', hstep, hinvariant, hdispatches, hanswered⟩ := launch_safe h user
        exact ⟨c', pending', hstep, hinvariant, hdispatches, Or.inl hanswered⟩
      · obtain ⟨c', pending', hstep, hinvariant, hdispatches, hanswered⟩ := stepClient_safe h he
          (fun user hu => hlaunch ⟨user, hu⟩) (fun _ hu => by rw [hu] at hown; cases hown)
          (fun _ hu => by rw [hu] at hown; cases hown) .empty (.client e)
        refine ⟨c', pending', ?_, hinvariant, hdispatches, Or.inl hanswered⟩
        cases e with
        | launch user => exact absurd ⟨user, rfl⟩ hlaunch
        | _ => exact hstep
  | getDocument key =>
      obtain ⟨c', hstep, hinvariant, hdispatches, hanswered⟩ := getDocument_safe h key
      exact ⟨c', pending, hstep, hinvariant, hdispatches, Or.inl hanswered⟩
  | removeListener =>
      obtain ⟨c', pending', hstep, hinvariant, hdispatches, hanswered⟩ := removeListener_safe h he
      exact ⟨c', pending', hstep, hinvariant, hdispatches, Or.inl hanswered⟩
  | deliver =>
      obtain ⟨c', hstep, hinvariant, hdispatches, hanswers⟩ := deliver_safe h he
      exact ⟨c', pending, hstep, hinvariant, hdispatches, hanswers⟩
  | remoteEvent snapshotVersion documentUpdates targetChanges =>
      obtain ⟨c', pending', hstep, hinvariant, hdispatches, hanswered⟩ :=
        applyRemoteEvent_safe h he.1 he.2
      exact ⟨c', pending', hstep, hinvariant, hdispatches, Or.inl hanswered⟩
  | rejectListen targetID error =>
      obtain ⟨c', pending', hstep, hinvariant, hdispatches, hanswered⟩ := rejectListen_safe h error he
      exact ⟨c', pending', hstep, hinvariant, hdispatches, Or.inl hanswered⟩
  | applyChangedOnlineState onlineState =>
      obtain ⟨c', hstep, hinvariant, hdispatches, hanswered⟩ :=
        applyChangedOnlineState_safe h onlineState
      exact ⟨c', pending, hstep, hinvariant, hdispatches, Or.inl hanswered⟩

end ReadingClient

end CocoMap
