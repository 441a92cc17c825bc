import CocoMap.ReadSafety

/-!
# How reads end

The first event of a read is delivered to its handler, and the read is over; its listener is then
removed, and with the last listener of a query the view.  When the server rejects a listen, all the
listeners of the query are told, and are gone.
-/

namespace CocoMap

namespace ReadingClient

variable {κ υ Q γ : Type} [LinearOrder κ] {c c' : ReadingClient κ υ Q γ}

/-! ## Deliveries -/

/-- What the handler of a read makes of an event. -/
def answerTo (key : κ) : ViewEvent κ → ReadAnswer
  | .error error => .error error
  | .snapshot snapshot => answerOf (snapshot.documents.lookup key) snapshot.fromCache

/-- What a step adds to the log: the answer of a read that is not answered yet, to the first event
that was dispatched for it. -/
def Answers (c c' : ReadingClient κ υ Q γ) : Prop :=
  c'.answered = c.answered ∨ ∃ n key event, c'.answered = c.answered ++ [(n, answerTo key event)] ∧
    c.home n = some key ∧ (c.status n).answered = false ∧ (c.status n).events.head? = some event

section Steps

variable [DecidableEq υ] [MutationQueue κ Q] [UserQueues υ Q] [LawfulUserQueues κ υ Q]
  {pending : υ → Pending κ}

omit [DecidableEq υ] in
/-- The first event of the queue has been delivered, to the handler or to nobody. -/
theorem Invariant.of_delivered (h : c.Invariant pending) {n : ℕ} {event : ViewEvent κ}
    {userQueue : List (ℕ × ViewEvent κ)} (hqueue : c.userQueue = (n, event) :: userQueue)
    (muted : Finset ℕ) (removals : List ℕ) (answered : List (ℕ × ReadAnswer))
    (hmuted : ∀ k, k ≠ n → (k ∈ muted ↔ k ∈ c.muted))
    (hanswered : ∀ k, k ≠ n → (k ∈ answered.map Prod.fst ↔ k ∈ c.answered.map Prod.fst))
    (hdone : n ∈ answered.map Prod.fst)
    (hover : n ∈ muted ∨ eventsOf n userQueue = [] ∧ (c.status n).listener = none)
    (hremovals : ∀ k ∈ removals, k ∈ muted) :
    let c' : ReadingClient κ υ Q γ := { c with userQueue, muted, removals, answered }
    c'.Invariant pending ∧ c.Dispatches .deliver c' := by
  intro c'
  have hevents : (c.status n).events = event :: eventsOf n userQueue := by
    rw [status, hqueue, eventsOf_cons, if_pos rfl]
  have hothers : ∀ k, k ≠ n → c'.status k = c.status k := by
    intro k hk
    rw [status, status, hqueue, eventsOf_cons, if_neg hk]
    simp only [c', hmuted k hk, hanswered k hk]
    rfl
  have hstatus : c'.status n = ⟨(c.status n).listener, eventsOf n userQueue, n ∈ muted, true⟩ := by
    rw [status]
    simp only [c', hdone, decide_true]
    rfl
  have hmoves : ∀ k, (c.status k).Moves (c'.status k) := by
    intro k
    by_cases hk : k = n
    · subst hk
      rw [hstatus]
      exact Status.moves_delivered hevents (hover.imp_left decide_eq_true)
    · rw [hothers k hk]
      exact Status.moves_self _
  have hsublist : ∀ k, (c'.status k).events.Sublist (c.status k).events := by
    intro k
    by_cases hk : k = n
    · subst hk
      rw [hstatus, hevents]
      exact List.sublist_cons_self event _
    · rw [hothers k hk]
  refine ⟨⟨h.client, h.following, h.housed, h.targeted.congr rfl rfl rfl rfl, ?_⟩, ?_⟩
  · exact h.tracked.of_moves rfl rfl hmoves hremovals fun k s hs => Or.inl ((hsublist k).subset hs)
  · refine ⟨fun k s hnot hhead => Or.inl ?_, fun k e he => Or.inl ((hsublist k).subset he),
      List.prefix_rfl⟩
    rw [← hothers k fun hk => ?_]
    · exact hhead
    · rw [hk, hstatus] at hnot
      cases hnot

omit [DecidableEq υ] in
/-- **A delivery** calls the handler of a read with the first event that was dispatched for it. -/
theorem deliver_safe (h : c.Invariant pending) (hqueue : c.userQueue ≠ []) :
    ∃ c', c.deliver = some c' ∧ c'.Invariant pending ∧ c.Dispatches .deliver c' ∧ c.Answers c' := by
  obtain ⟨⟨n, event⟩, userQueue, hcons⟩ := List.exists_cons_of_ne_nil hqueue
  have hevents : (c.status n).events = event :: eventsOf n userQueue := by
    rw [status, hcons, eventsOf_cons, if_pos rfl]
  have hne : (c.status n).events ≠ [] := by
    rw [hevents]
    exact List.cons_ne_nil _ _
  obtain ⟨key, hkey⟩ : ∃ key, c.home n = some key :=
    ⟨_, List.getElem?_eq_getElem (h.tracked.lt_length (Or.inl hne))⟩
  have hsound := h.tracked.sound n
  have hlog : ∀ answer : ReadAnswer, ∀ k, k ≠ n →
      (k ∈ (c.answered ++ [(n, answer)]).map Prod.fst ↔ k ∈ c.answered.map Prod.fst) := by
    intro answer k hk
    simp [hk]
  by_cases hmuted : n ∈ c.muted
  · -- the event comes too late
    obtain ⟨hinvariant, hdispatches⟩ := h.of_delivered hcons c.muted c.removals c.answered
      (fun _ _ => Iff.rfl) (fun _ _ => Iff.rfl) (of_decide_eq_true (hsound.muted (decide_eq_true hmuted)))
      (Or.inl hmuted) h.tracked.removals
    refine ⟨_, ?_, hinvariant, hdispatches, Or.inl rfl⟩
    rw [deliver, hcons]
    exact if_pos hmuted
  · have hanswered : (c.status n).answered = false := by
      refine Bool.eq_false_iff.mpr fun hdone => ?_
      rcases hsound.finished hdone with h | ⟨h, -⟩
      · exact hmuted (of_decide_eq_true h)
      · exact hne h
    have hanswers : ∀ c' : ReadingClient κ υ Q γ,
        c'.answered = c.answered ++ [(n, answerTo key event)] → c.Answers c' :=
      fun c' hlog => Or.inr ⟨n, key, event, hlog, hkey, hanswered, by rw [hevents]; rfl⟩
    cases event with
    | error error =>
        obtain ⟨hinvariant, hdispatches⟩ := h.of_delivered hcons c.muted c.removals _
          (fun _ _ => Iff.rfl) (hlog (.error error)) (by simp)
          (Or.inr ⟨hsound.last error [] _ hevents,
            hsound.rejected error (hevents ▸ List.mem_cons_self)⟩) h.tracked.removals
        refine ⟨_, ?_, hinvariant, hdispatches, hanswers _ rfl⟩
        rw [deliver, hcons]
        exact if_neg hmuted
    | snapshot s =>
        obtain ⟨key', d, -, hdocuments⟩ := h.tracked.documents n s (hevents ▸ List.mem_cons_self)
        have hlength : ¬1 < s.documents.entries.length := by
          rw [hdocuments]
          cases d <;> simp [SortedMap.single, SortedMap.empty, SortedMap.insert]
        have hremovals : ∀ k ∈ c.removals ++ [n], k ∈ insert n c.muted := by
          intro k hk
          rcases List.mem_append.mp hk with hk | hk
          · exact Finset.mem_insert_of_mem (h.tracked.removals k hk)
          · rw [List.mem_singleton.mp hk]
            exact Finset.mem_insert_self n c.muted
        obtain ⟨hinvariant, hdispatches⟩ := h.of_delivered hcons (insert n c.muted)
          (c.removals ++ [n]) _ (fun k hk => by simp [hk]) (hlog (answerTo key (.snapshot s))) (by simp)
          (Or.inl (Finset.mem_insert_self n c.muted)) hremovals
        refine ⟨_, ?_, hinvariant, hdispatches, hanswers _ rfl⟩
        rw [deliver, hcons]
        dsimp only
        rw [if_neg hmuted, if_neg hlength, show c.reads[n]? = some key from hkey, Option.map_some]
        rfl

/-! ## Listeners are removed -/

/-- **A target is released**: the other views still show what the store has. -/
theorem Targeted.releaseQuery (h : c.Targeted) (hclient : c.client.Invariant pending) {query : κ}
    {queryView : QueryView κ} (hview : c.queryViews.lookup query = some queryView) :
    ∃ client pending', c.releaseQuery query =
        some { c with client, queryViews := c.queryViews.erase query } ∧
      client.Invariant pending' ∧
      Targeted { c with client, queryViews := c.queryViews.erase query } ∧
      ∀ q queryView', q ≠ query → c.queryViews.lookup q = some queryView' →
        client.localStore.shown q = c.shown q := by
  obtain ⟨client, pending', o', hstep, hvalid, -, -⟩ :=
    FirestoreClient.step_refines hclient (c.client.refines_outbox pending)
      (show c.client.Enabled (.releaseQuery queryView.targetID) from trivial)
  have hallocated := h.allocated query queryView hview
  have hreleased : c.releaseQuery query =
      some { c with client, queryViews := c.queryViews.erase query } := by
    rw [ReadingClient.releaseQuery, hallocated, Option.bind_eq_bind, Option.bind_some, hstep]
    rfl
  obtain ⟨s, hs, rfl⟩ := Option.map_eq_some_iff.mp hstep
  have htargets := LocalStore.targetIDs_releaseQuery hs
  have hother : ∀ q queryView', q ≠ query → c.queryViews.lookup q = some queryView' →
      queryView'.targetID ≠ queryView.targetID := by
    intro q queryView' hq hview' heq
    exact hq (h.injective q query queryView.targetID (heq ▸ h.allocated q queryView' hview') hallocated)
  refine ⟨_, pending', hreleased, hvalid, ⟨?_, fun targetID => ?_, fun q queryView' hview' => ?_,
    h.bounded, h.injective⟩, fun q queryView' hq hview' => LocalStore.shown_releaseQuery hs ?_ q⟩
  · exact htargets ▸ h.nodup.erase _
  · change targetID ∈ s.targetIDs ↔ _
    rw [htargets, h.nodup.mem_erase_iff, h.mem_iff]
    constructor
    · rintro ⟨hne, q, queryView', hview', rfl⟩
      refine ⟨q, queryView', ?_, rfl⟩
      rw [SortedMap.lookup_erase, if_neg]
      · exact hview'
      · rintro rfl
        rw [hview] at hview'
        exact hne (congrArg QueryView.targetID (Option.some_inj.mp hview')).symm
    · rintro ⟨q, queryView', hview', rfl⟩
      rw [SortedMap.lookup_erase] at hview'
      split at hview'
      · cases hview'
      · rename_i hq
        exact ⟨hother q queryView' hq hview', q, queryView', hview', rfl⟩
  · rw [SortedMap.lookup_erase] at hview'
    split at hview'
    · cases hview'
    · exact h.allocated q queryView' hview'
  · refine List.ne_nil_of_mem (a := queryView'.targetID) (h.nodup.mem_erase_iff.mpr ⟨?_, ?_⟩)
    · exact hother q queryView' hq hview'
    · exact (h.mem_iff _).mpr ⟨q, queryView', hview', rfl⟩

omit [DecidableEq υ] [UserQueues υ Q] [LawfulUserQueues κ υ Q] in
/-- Nobody listens to a query any more. -/
theorem Following.erase (h : c.Following c.shown) {query : κ}
    (hviews : c'.queryViews = c.queryViews.erase query)
    (hqueries : ∀ q, c'.eventManager.queries.lookup q =
      if q = query then none else c.eventManager.queries.lookup q)
    (honline : c'.eventManager.onlineState = c.eventManager.onlineState)
    (hshown : ∀ q queryView, q ≠ query → c.queryViews.lookup q = some queryView →
      c'.shown q = c.shown q) : c'.Following c'.shown := by
  intro q
  rw [honline, hviews, SortedMap.lookup_erase, hqueries]
  by_cases hq : q = query
  · rw [if_pos hq, if_pos hq]
    exact .nobody
  · rw [if_neg hq, if_neg hq]
    have hfollows := h q
    cases hview : c.queryViews.lookup q with
    | none =>
        rw [hview] at hfollows
        generalize c.eventManager.queries.lookup q = info at hfollows
        cases hfollows
        exact .nobody
    | some queryView =>
        rw [hshown q queryView hq hview, ← hview]
        exact hfollows

omit [MutationQueue κ Q] [UserQueues υ Q] [LawfulUserQueues κ υ Q] [DecidableEq υ] in
/-- A read that is over loses its listener, whatever becomes of the views. -/
theorem Tracked.of_removed (h : c.Tracked) (hhoused : c.eventManager.Housed c.home) {n : ℕ} {query : κ}
    (hn : n ∈ c.removals) (hhome : c.home n = some query) (client : FirestoreClient κ υ Q γ)
    (queryViews : SortedMap κ (QueryView κ)) {c' : ReadingClient κ υ Q γ}
    (hc' : c' = { c with
      client
      queryViews
      eventManager := (c.eventManager.removeListener query n).1
      removals := c.removals.tail }) :
    c'.Tracked ∧ ∀ k, (c'.status k).events = (c.status k).events := by
  have hstatus : ∀ k, c'.status k =
      if k = n then { c.status n with listener := none } else c.status k := by
    intro k
    have hlistener : ((c'.home k).bind fun key => c'.eventManager.listener key k) =
        if k = n then none else (c.home k).bind fun key => c.eventManager.listener key k := by
      subst hc'
      change (c.home k).bind (fun key => (c.eventManager.removeListener query n).1.listener key k) = _
      cases c.home k with
      | none => simp
      | some key =>
          rw [Option.bind_some, Option.bind_some]
          exact EventManager.listener_removeListener hhoused hhome key k
    rw [status, hlistener]
    subst hc'
    split
    · rename_i hk
      rw [hk]
      rfl
    · rfl
  refine ⟨h.of_moves (by rw [hc']) (by rw [hc']) (fun k => ?_) (fun k hk => ?_) fun k s hs => ?_,
    fun k => ?_⟩
  · rw [hstatus]
    split
    · rename_i hk
      rw [hk]
      exact (h.sound n).moves_removed (decide_eq_true (h.removals n hn))
    · exact Status.moves_self _
  · subst hc'
    exact h.removals k (List.mem_of_mem_tail hk)
  · rw [hstatus] at hs
    split at hs
    · rename_i hk
      rw [hk]
      exact Or.inl hs
    · exact Or.inl hs
  · rw [hstatus]
    split
    · rename_i hk
      rw [hk]
    · rfl

/-- **The listener of a read that is over** is removed, and with the last one the view. -/
theorem removeListener_safe (h : c.Invariant pending) (hremovals : c.removals ≠ []) :
    ∃ c' pending', c.removeListener = some c' ∧ c'.Invariant pending' ∧
      c.Dispatches .removeListener c' ∧ c'.answered = c.answered := by
  obtain ⟨n, removals, hcons⟩ := List.exists_cons_of_ne_nil hremovals
  have hn : n ∈ c.removals := hcons ▸ List.mem_cons_self
  obtain ⟨query, hquery⟩ : ∃ query, c.home n = some query :=
    ⟨_, List.getElem?_eq_getElem
      (h.tracked.lt_length (Or.inr (decide_eq_true (h.tracked.removals n hn))))⟩
  have hremove : c.removeListener =
      if (c.eventManager.removeListener query n).2 then
        stopListeningToQuery { c with
          eventManager := (c.eventManager.removeListener query n).1
          removals := c.removals.tail } query
      else some { c with
        eventManager := (c.eventManager.removeListener query n).1
        removals := c.removals.tail } := by
    rw [removeListener, hcons]
    simp only [List.head?_cons, Option.bind_eq_bind, Option.bind_some]
    rw [show c.reads[n]? = some query from hquery]
    rfl
  have hdispatches : ∀ c' : ReadingClient κ υ Q γ, (∀ k, (c'.status k).events = (c.status k).events) →
      c'.reads = c.reads → c.Dispatches .removeListener c' :=
    fun c' hsame hreads => ⟨fun k s _ hhead => Or.inl (hsame k ▸ hhead),
      fun k e he => Or.inl (hsame k ▸ he), by rw [hreads]⟩
  have honline := EventManager.onlineState_removeListener c.eventManager query n
  cases hlast : (c.eventManager.removeListener query n).2 with
  | true =>
      obtain ⟨⟨info, hinfo⟩, hgone⟩ := EventManager.removeListener_last hlast
      obtain ⟨queryView, hview⟩ := h.following.exists_view hinfo
      have htargeted : Targeted { c with
          eventManager := (c.eventManager.removeListener query n).1
          removals := c.removals.tail } := h.targeted.congr rfl rfl rfl rfl
      obtain ⟨client, pending', hrelease, hclient, htargeted, hshown⟩ :=
        htargeted.releaseQuery h.client hview
      obtain ⟨htracked, hsame⟩ := h.tracked.of_removed h.housed hn hquery client
        (c.queryViews.erase query) rfl
      refine ⟨_, pending', ?_, ⟨hclient, h.following.erase rfl hgone honline hshown,
        EventManager.housed_removeListener h.housed query n, htargeted, htracked⟩,
        hdispatches _ hsame rfl, rfl⟩
      rw [hremove, hlast, if_pos rfl, stopListeningToQuery, if_pos]
      · exact hrelease
      · change (c.queryViews.lookup query).isSome = true
        rw [hview]
        rfl
  | false =>
      obtain ⟨htracked, hsame⟩ := h.tracked.of_removed h.housed hn hquery c.client c.queryViews rfl
      refine ⟨{ c with
          eventManager := (c.eventManager.removeListener query n).1
          removals := c.removals.tail }, pending, ?_, ⟨h.client, fun q => ?_,
        EventManager.housed_removeListener h.housed query n, h.targeted.congr rfl rfl rfl rfl,
        htracked⟩, hdispatches _ hsame rfl, rfl⟩
      · rw [hremove, hlast, if_neg Bool.false_ne_true]
      · have hfollows := h.following q
        change Follows q (c.shown q) (c.eventManager.removeListener query n).1.onlineState
          (c.queryViews.lookup q) ((c.eventManager.removeListener query n).1.queries.lookup q)
        rw [honline]
        cases hinfo : c.eventManager.queries.lookup q with
        | none =>
            rw [EventManager.lookup_removeListener, hinfo, Option.bind_none, ← hinfo]
            exact hfollows
        | some info =>
            obtain ⟨info', hinfo'⟩ := EventManager.removeListener_others hlast hinfo
            obtain ⟨info₀, hinfo₀, hsnapshot, hsublist⟩ :=
              EventManager.listeners_removeListener hinfo'
            obtain rfl := Option.some_inj.mp (hinfo.symm.trans hinfo₀)
            rw [hinfo']
            rw [hinfo] at hfollows
            generalize c.queryViews.lookup q = view at hfollows
            obtain ⟨viewSnapshot, listeners⟩ := info'
            cases hfollows with
            | listened ofQuery applied snapshot loud knows =>
                obtain rfl : viewSnapshot = some _ := hsnapshot
                exact .listened ofQuery applied snapshot loud fun l hl => knows l (hsublist.subset hl)

/-! ## The server rejects a listen -/

omit [MutationQueue κ Q] [UserQueues υ Q] [LawfulUserQueues κ υ Q] [DecidableEq υ] in
/-- The listeners of the query are told of the error, and are gone. -/
theorem status_rejected (hhoused : c.eventManager.Housed c.home) (error : FirestoreErrorCode)
    (query : κ) (client : FirestoreClient κ υ Q γ) (queryViews : SortedMap κ (QueryView κ))
    (c' : ReadingClient κ υ Q γ) (hc' : c' = { c with
      client
      queryViews
      eventManager := (c.eventManager.handleError error query).1
      userQueue := c.userQueue ++ (c.eventManager.handleError error query).2 }) (k : ℕ) :
    c'.status k = c.status k ∨ (c.status k).listener ≠ none ∧ c'.status k = { c.status k with
      listener := none
      events := (c.status k).events ++ [.error error] } := by
  have hevents : eventsOf k c'.userQueue = eventsOf k c.userQueue ++
      ((c.eventManager.listener query k).map fun _ => ViewEvent.error error).toList := by
    rw [hc', ← EventManager.eventsOf_handleError hhoused error query k]
    exact eventsOf_append k _ _
  have hlistener : ((c'.home k).bind fun key => c'.eventManager.listener key k) =
      (c.home k).bind fun key => if key = query then none else c.eventManager.listener key k := by
    rw [hc']
    exact Option.bind_congr fun key _ =>
      EventManager.listener_handleError c.eventManager error query key k
  cases hl : c.eventManager.listener query k with
  | none =>
      left
      have hsame : ((c.home k).bind fun key => if key = query then none else
          c.eventManager.listener key k) = (c.status k).listener := by
        refine Option.bind_congr fun key _ => ?_
        split
        · rename_i hkey
          rw [hkey, hl]
        · rfl
      rw [status, hlistener, hevents, hl, hsame, Option.map_none, Option.toList_none, List.append_nil,
        hc']
      rfl
  | some l =>
      right
      obtain ⟨info, hinfo, hmem, rfl⟩ := EventManager.mem_of_listener hl
      have hhome := hhoused.home query info hinfo l hmem
      refine ⟨?_, ?_⟩
      · rw [status, hhome, Option.bind_some, hl]
        exact Option.some_ne_none l
      · rw [status, hlistener, hevents, hl, hhome, Option.bind_some, if_pos rfl, hc']
        rfl

/-- **The server rejects a listen**: the listeners are told, and the view is gone. -/
theorem rejectListen_safe (h : c.Invariant pending) {targetID : ℤ} (error : FirestoreErrorCode)
    (hview : (c.queryViewByTarget targetID).isSome = true) :
    ∃ c' pending', c.rejectListen targetID error = some c' ∧ c'.Invariant pending' ∧
      c.Dispatches (.rejectListen targetID error) c' ∧ c'.answered = c.answered := by
  obtain ⟨queryView, hqueryView⟩ := Option.isSome_iff_exists.mp hview
  obtain ⟨⟨query, _⟩, hfind, rfl⟩ := Option.map_eq_some_iff.mp hqueryView
  have hlookup := SortedMap.lookup_eq_some_iff.mpr (List.mem_of_find?_eq_some hfind)
  have hquery := h.following.query_eq hlookup
  obtain ⟨client, pending', hrelease, hclient, htargeted, hshown⟩ :=
    h.targeted.releaseQuery h.client hlookup
  let c' : ReadingClient κ υ Q γ := { c with
    client
    queryViews := c.queryViews.erase query
    eventManager := (c.eventManager.handleError error query).1
    userQueue := c.userQueue ++ (c.eventManager.handleError error query).2 }
  have hstatus := status_rejected h.housed error query client (c.queryViews.erase query) c' rfl
  refine ⟨c', pending', ?_, ⟨hclient, ?_, EventManager.housed_handleError h.housed error query,
    htargeted.congr rfl rfl rfl rfl, ?_⟩, ?_, rfl⟩
  · rw [rejectListen, hqueryView, Option.bind_eq_bind, Option.bind_some, hquery, hrelease]
    rfl
  · exact h.following.erase rfl (fun q => SortedMap.lookup_erase ..) rfl hshown
  · refine h.tracked.of_moves rfl rfl (fun k => ?_) h.tracked.removals fun k s hs => Or.inl ?_
    · rcases hstatus k with heq | ⟨hlistener, heq⟩
      · rw [heq]
        exact Status.moves_self _
      · rw [heq]
        exact (h.tracked.sound k).moves_rejected hlistener error
    · rcases hstatus k with heq | ⟨-, heq⟩
      · rwa [heq] at hs
      · rw [heq] at hs
        exact (List.mem_append.mp hs).resolve_right fun hs => by cases List.mem_singleton.mp hs
  · refine ⟨fun k s _ hhead => Or.inl ?_, fun k e he => ?_, List.prefix_rfl⟩
    · rcases hstatus k with heq | ⟨-, heq⟩
      · rwa [heq] at hhead
      · rw [heq] at hhead
        cases hevents : (c.status k).events with
        | nil =>
            rw [hevents] at hhead
            cases hhead
        | cons event events => rwa [hevents] at hhead
    · rcases hstatus k with heq | ⟨-, heq⟩
      · rw [heq] at he
        exact Or.inl he
      · rw [heq] at he
        refine (List.mem_append.mp he).imp_right fun he => ?_
        cases List.mem_singleton.mp he
        exact ⟨targetID, rfl⟩

end Steps

end ReadingClient

end CocoMap
