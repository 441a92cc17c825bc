import CocoMap.Emission
import CocoMap.ReadingClient

/-!
# The views follow the store

However the client writes, is answered, changes its user or hears of the server: every view shows
the document of its query as the local store has it, and the listeners know the last snapshot of
their view (`Follows`).  Advancing the views keeps this, and tells every listener of what has
changed (`advanceViews_spec`).
-/

namespace CocoMap

variable {κ υ Q γ : Type} [LinearOrder κ]

/-! ## The local store -/

namespace LocalStore

variable [MutationQueue κ Q] {s s' : LocalStore κ Q} {targetID : ℤ}

theorem targetIDs_releaseQuery (h : s.releaseQuery targetID = some s') :
    s'.targetIDs = s.targetIDs.erase targetID := by
  unfold releaseQuery at h
  dsimp only at h
  split at h
  · obtain ⟨⟨keys, s₁⟩, hrelease, rfl⟩ := Option.map_eq_some_iff.mp h
    exact targetIDs_releaseHeldBatchResults hrelease
  · cases h
    rfl

/-- As long as there are other targets, nothing is released. -/
theorem shown_releaseQuery (h : s.releaseQuery targetID = some s')
    (hothers : s.targetIDs.erase targetID ≠ []) (key : κ) : s'.shown key = s.shown key := by
  unfold releaseQuery at h
  dsimp only at h
  rw [if_neg fun hempty => hothers (List.isEmpty_iff.mp hempty)] at h
  cases h
  rfl

omit [LinearOrder κ] in
theorem targetIDs_launch [UserQueues υ Q] {user : υ} (h : s.launch user = some s') :
    s'.targetIDs = [] := targetIDs_startMutationQueue h

variable [UserQueues υ Q] [LawfulUserQueues κ υ Q] {pending : υ → Pending κ}

/-- **A query is executed on the local view.** -/
theorem Consistent.executeQuery (h : s.Consistent pending) (query : κ) (remoteKeys : Finset κ) :
    ∃ docs, s.executeQuery query = some docs ∧
      (View.init query remoteKeys).computeChanges docs =
        View.changesTo query none (s.shown query) := by
  rw [LocalStore.executeQuery, shown, h.documentForKey, Option.map_some]
  refine ⟨_, rfl, ?_⟩
  rw [View.computeChanges_spec (View.shows_init query remoteKeys)]
  · change View.changesTo query none _ = _
    congr 1
    cases (pending s.user).view query (s.remoteDocumentCache query) with
    | none => rfl
    | some doc =>
        cases doc with
        | document data version hasLocalMutations =>
            simp [Option.filter, MaybeDocument.asDocument, View.init]
        | deletedDocument version => rfl
  · cases (pending s.user).view query (s.remoteDocumentCache query) with
    | none => exact List.nodup_nil
    | some doc => cases doc <;> simp [Option.filter, MaybeDocument.asDocument]

end LocalStore

namespace ReadingClient

/-! ## Following a document -/

/-- A query that is listened to has a view, which shows the document, and listeners, which know the
last snapshot of the view; or nobody listens to it. -/
inductive Follows (query : κ) (doc : Option ExistingDocument) (state : OnlineState) :
    Option (QueryView κ) → Option (QueryListenersInfo κ) → Prop
  | nobody : Follows query doc state none none
  | listened {queryView : QueryView κ} {s : ViewSnapshot κ} {listeners : List (QueryListener κ)}
      (ofQuery : queryView.view.query = query) (applied : queryView.view.Applied doc)
      (snapshot : View.SnapshotOf s queryView.view doc) (loud : View.Loud s)
      (knows : ∀ l ∈ listeners, l.Knows s state ∧ l.options = getOptions) :
      Follows query doc state (some queryView) (some ⟨some s, listeners⟩)

/-- Every query is followed. -/
def Following (c : ReadingClient κ υ Q γ) (doc : κ → Option ExistingDocument) : Prop :=
  ∀ query, Follows query (doc query) c.eventManager.onlineState (c.queryViews.lookup query)
    (c.eventManager.queries.lookup query)

/-! ## Views take a step -/

/-- The listener of a read raises its first event when the view is synced, or the client offline. -/
theorem shouldRaiseInitialEvent_iff {l : QueryListener κ} (hoptions : l.options = getOptions)
    (s : ViewSnapshot κ) (state : OnlineState) :
    l.shouldRaiseInitialEvent s state = true ↔ s.fromCache = false ∨ state = .offline := by
  unfold QueryListener.shouldRaiseInitialEvent
  rw [hoptions]
  cases s.fromCache <;> cases state <;> simp [getOptions]

/-- A step of the view is told to all of its listeners, unless there is nothing to tell. -/
theorem Follows.advances {query : κ} {doc doc' : Option ExistingDocument} {state : OnlineState}
    {queryView : QueryView κ} {info : QueryListenersInfo κ}
    (h : Follows query doc state (some queryView) (some info))
    {next : View κ × Option (ViewSnapshot κ)} (hnext : queryView.view.Advances doc next doc') :
    ∃ s, next.2.or info.viewSnapshot = some s ∧ View.SnapshotOf s next.1 doc' ∧ View.Loud s ∧
      ∀ l ∈ info.listeners, l.options = getOptions ∧ l.Told s state (EventManager.change next.2 l) ∧
        (l.raisedInitialEvent = false → (EventManager.change next.2 l).2 ≠ none →
          s.fromCache = false) := by
  cases h with
  | listened ofQuery applied snapshot loud knows =>
      rename_i s listeners
      cases hs : next.2 with
      | none =>
          obtain ⟨hlook, hsync⟩ := hnext.quiet hs
          refine ⟨s, rfl, ⟨snapshot.query.trans hnext.query.symm, ?_, ?_⟩, loud, fun l hl => ?_⟩
          · rw [hnext.query, ← hlook]
            exact snapshot.documents
          · rw [hsync]
            exact snapshot.fromCache
          · exact ⟨(knows l hl).2, QueryListener.told_self (knows l hl).1, fun _ h => absurd rfl h⟩
      | some s' =>
          obtain ⟨hsnapshot, hloud⟩ := hnext.loud s' hs
          refine ⟨s', rfl, hsnapshot, hloud, fun l hl => ?_⟩
          obtain ⟨hknows, hoptions⟩ := knows l hl
          have htold : l.Told s' state (l.queryDidChangeViewSnapshot s') :=
            hknows.onlineState ▸ QueryListener.told_queryDidChangeViewSnapshot hknows.options s'
          refine ⟨hoptions, htold, fun hwaits hraised => ?_⟩
          obtain ⟨e, he⟩ := Option.ne_none_iff_exists'.mp hraised
          -- a client that is offline does not let anybody wait
          have hshould := (htold.event e he).2.2 hwaits
          rw [shouldRaiseInitialEvent_iff hoptions] at hshould
          refine hshould.resolve_right fun hoffline => ?_
          have hwaited := hknows.waits hwaits
          rw [Bool.eq_false_iff] at hwaited
          exact hwaited ((shouldRaiseInitialEvent_iff hoptions s state).mpr (Or.inr hoffline))

/-! ## Reads -/

/-- What has become of a read. -/
structure Status (κ : Type) [LinearOrder κ] where
  listener : Option (QueryListener κ)
  events : List (ViewEvent κ)
  muted : Bool
  answered : Bool

namespace Status

/-- What holds of every read, however far it has come. -/
structure Sound (r : Status κ) : Prop where
  /-- Nothing is on its way for a listener that waits. -/
  waiting : ∀ l ∈ r.listener, l.raisedInitialEvent = false → r.events = [] ∧ r.answered = false
  finished : r.answered = true → r.muted = true ∨ r.events = [] ∧ r.listener = none
  muted : r.muted = true → r.answered = true
  /-- After an error nothing follows. -/
  rejected : ∀ e, ViewEvent.error e ∈ r.events → r.listener = none
  last : ∀ e before after, r.events = before ++ ViewEvent.error e :: after → after = []

/-- The read is answered, or its answer is on its way, or its listener waits for it. -/
def Accounted (r : Status κ) : Prop :=
  r.answered = true ∨ r.events ≠ [] ∨ ∃ l ∈ r.listener, l.raisedInitialEvent = false

/-- The read is told of a snapshot of which `P` holds, or has no listener.  If the first event of a
read comes from the cache, then the client is `offline`. -/
inductive Tells (state : OnlineState) (P : ViewSnapshot κ → Prop) (offline : Prop)
    (r r' : Status κ) : Prop
  | nobody (listener : r.listener = none) (unchanged : r' = r)
  | told {l : QueryListener κ} {s : ViewSnapshot κ}
      {told : QueryListener κ × Option (ViewSnapshot κ)} (listener : r.listener = some l)
      (isTold : l.Told s state told) (holds : P s)
      (first : l.raisedInitialEvent = false → told.2 ≠ none → s.fromCache = true → offline)
      (result : r' = { r with
        listener := some told.1
        events := r.events ++ (told.2.map ViewEvent.snapshot).toList })

variable {r r' : Status κ} {state : OnlineState} {P : ViewSnapshot κ → Prop} {offline : Prop}

theorem error_mem_of_tells {events : List (ViewEvent κ)} {raised : Option (ViewSnapshot κ)}
    {e : FirestoreErrorCode}
    (h : ViewEvent.error e ∈ events ++ (raised.map ViewEvent.snapshot).toList) :
    ViewEvent.error e ∈ events := by
  rcases List.mem_append.mp h with h | h
  · exact h
  · cases raised with
    | none => exact absurd h List.not_mem_nil
    | some s => cases List.mem_singleton.mp h

theorem Tells.eq_of_nobody (h : Tells state P offline r r') (hnobody : r.listener = none) : r' = r := by
  cases h with
  | nobody listener unchanged => exact unchanged
  | told listener =>
      rw [hnobody] at listener
      cases listener

theorem Tells.muted (h : Tells state P offline r r') : r'.muted = r.muted := by
  cases h with
  | nobody listener unchanged => rw [unchanged]
  | told listener isTold holds first result => rw [result]

theorem Tells.answered (h : Tells state P offline r r') : r'.answered = r.answered := by
  cases h with
  | nobody listener unchanged => rw [unchanged]
  | told listener isTold holds first result => rw [result]

theorem Tells.error (h : Tells state P offline r r') {e : FirestoreErrorCode}
    (he : ViewEvent.error e ∈ r'.events) : ViewEvent.error e ∈ r.events := by
  cases h with
  | nobody listener unchanged => exact unchanged ▸ he
  | told listener isTold holds first result =>
      subst result
      exact error_mem_of_tells he

theorem Tells.snapshot (h : Tells state P offline r r') {e : ViewSnapshot κ}
    (he : ViewEvent.snapshot e ∈ r'.events) :
    ViewEvent.snapshot e ∈ r.events ∨ ∃ s, P s ∧ e.documents = s.documents := by
  cases h with
  | nobody listener unchanged => exact Or.inl (unchanged ▸ he)
  | @told l s told listener isTold holds first result =>
      subst result
      refine (List.mem_append.mp he).imp_right fun he => ?_
      obtain ⟨e', hraised, heq⟩ := Option.map_eq_some_iff.mp (Option.mem_toList.mp he)
      cases heq
      exact ⟨s, holds, (isTold.event e hraised).1⟩

theorem Tells.sound (h : Tells state P offline r r') (hr : r.Sound) : r'.Sound := by
  cases h with
  | nobody listener unchanged => exact unchanged ▸ hr
  | @told l s told listener isTold holds first result =>
      subst result
      have hrejected : ∀ e, ViewEvent.error e ∉ r.events := fun e he => by
        rw [hr.rejected e he] at listener
        cases listener
      refine ⟨fun l' hl' hwaits => ?_, fun hanswered => ?_, hr.muted, fun e he => ?_,
        fun e before after heq => ?_⟩
      · obtain rfl := Option.mem_some_iff.mp hl'
        rw [isTold.raised, Bool.or_eq_false_iff] at hwaits
        obtain ⟨hevents, hanswered⟩ := hr.waiting l listener hwaits.1
        refine ⟨?_, hanswered⟩
        dsimp only
        rw [hevents, Option.isNone_iff_eq_none.mp (Option.isSome_eq_false_iff.mp hwaits.2)]
        rfl
      · rcases hr.finished hanswered with hmuted | ⟨-, hnone⟩
        · exact Or.inl hmuted
        · rw [hnone] at listener
          cases listener
      · exact absurd (error_mem_of_tells he) (hrejected e)
      · have he : ViewEvent.error e ∈ r.events ++ (told.2.map ViewEvent.snapshot).toList := by
          rw [show r.events ++ _ = _ from heq]
          exact List.mem_append_right _ List.mem_cons_self
        exact absurd (error_mem_of_tells he) (hrejected e)

theorem Tells.accounted (h : Tells state P offline r r') (hr : r.Accounted) : r'.Accounted := by
  cases h with
  | nobody listener unchanged => exact unchanged ▸ hr
  | @told l s told listener isTold holds first result =>
      subst result
      rcases hr with hanswered | hevents | ⟨l', hl', hwaits⟩
      · exact Or.inl hanswered
      · exact Or.inr (Or.inl (List.append_ne_nil_of_left_ne_nil hevents _))
      · obtain rfl := Option.some_inj.mp (hl'.symm.trans listener)
        cases hraised : told.2 with
        | none =>
            refine Or.inr (Or.inr ⟨told.1, rfl, ?_⟩)
            rw [isTold.raised, hwaits, hraised]
            rfl
        | some e => exact Or.inr (Or.inl (by simp))

/-- **The first event of a read** that is not answered is a snapshot of what was shown when it was
raised. -/
theorem Tells.head (h : Tells state P offline r r') (hr : r.listener = none ∨ r.Accounted)
    (hanswered : r.answered = false) {e : ViewSnapshot κ}
    (hhead : r'.events.head? = some (.snapshot e)) :
    r.events.head? = some (.snapshot e) ∨
      ∃ s, P s ∧ e.documents = s.documents ∧ e.fromCache = s.fromCache ∧
        (e.fromCache = true → offline) := by
  cases h with
  | nobody listener unchanged => exact Or.inl (unchanged ▸ hhead)
  | @told l s told listener isTold holds first result =>
      subst result
      cases hevents : r.events with
      | cons event events =>
          rw [hevents, List.cons_append] at hhead
          exact Or.inl hhead
      | nil =>
          right
          rw [hevents, List.nil_append, Option.head?_toList] at hhead
          obtain ⟨_, hraised, he⟩ := Option.map_eq_some_iff.mp hhead
          cases he
          obtain ⟨hdocuments, hfromCache, -⟩ := isTold.event e hraised
          refine ⟨s, holds, hdocuments, hfromCache, fun hcache => ?_⟩
          have hwaits : l.raisedInitialEvent = false := by
            rcases hr with hnone | hans | hne | ⟨l', hl', hwaits⟩
            · rw [hnone] at listener
              cases listener
            · rw [hanswered] at hans
              cases hans
            · exact absurd hevents hne
            · rwa [← Option.some_inj.mp (hl'.symm.trans listener)]
          exact first hwaits (by rw [hraised]; exact Option.some_ne_none e)
            (hfromCache.symm.trans hcache)

/-- A read moves on: it stays sound and accounted for, and nothing happens to it when it is over. -/
structure Moves (r r' : Status κ) : Prop where
  sound : r.Sound → r'.Sound
  accounted : r.Accounted → r'.Accounted
  ended : r.listener = none → r.events = [] → r' = r

theorem moves_self (r : Status κ) : r.Moves r := ⟨id, id, fun _ _ => rfl⟩

theorem Tells.moves (h : Tells state P offline r r') : r.Moves r' :=
  ⟨h.sound, h.accounted, fun hlistener _ => h.eq_of_nobody hlistener⟩

/-- An event has been delivered, and the read is over: it is muted, or has no listener. -/
theorem Sound.delivered (hr : r.Sound) {event : ViewEvent κ} {events : List (ViewEvent κ)}
    (hevents : r.events = event :: events) {muted : Bool}
    (hover : muted = true ∨ events = [] ∧ r.listener = none) :
    Sound ⟨r.listener, events, muted, true⟩ where
  waiting := fun l hl hwaits => by
    rw [(hr.waiting l hl hwaits).1] at hevents
    cases hevents
  finished := fun _ => hover
  muted := fun _ => rfl
  rejected := fun e he => hr.rejected e (hevents ▸ List.mem_cons_of_mem event he)
  last := fun e before after heq => by
    refine hr.last e (event :: before) after ?_
    rw [hevents, List.cons_append]
    exact congrArg _ heq

/-- An event has been delivered, after which the read is muted or has no listener. -/
theorem moves_delivered {event : ViewEvent κ} {events : List (ViewEvent κ)}
    (hevents : r.events = event :: events) {muted : Bool}
    (hover : muted = true ∨ events = [] ∧ r.listener = none) :
    r.Moves ⟨r.listener, events, muted, true⟩ where
  sound := fun hr => hr.delivered hevents hover
  accounted := fun _ => Or.inl rfl
  ended := fun _ hnil => by
    rw [hevents] at hnil
    cases hnil

/-- The listener of a read that is over has been removed. -/
theorem Sound.moves_removed (hr : r.Sound) (hmuted : r.muted = true) :
    r.Moves { r with listener := none } where
  sound := fun _ => {
    waiting := fun l hl => absurd hl (Option.not_mem_none l)
    finished := fun _ => Or.inl hmuted
    muted := hr.muted
    rejected := fun _ _ => rfl
    last := hr.last }
  accounted := fun _ => Or.inl (hr.muted hmuted)
  ended := fun hnone _ => by rw [← hnone]

/-- The listener of a read has been told of an error, and is gone. -/
theorem Sound.moves_rejected (hr : r.Sound) (hlistener : r.listener ≠ none)
    (error : FirestoreErrorCode) :
    r.Moves { r with listener := none, events := r.events ++ [.error error] } where
  sound := fun _ => {
    waiting := fun l hl => absurd hl (Option.not_mem_none l)
    finished := fun hanswered =>
      Or.inl ((hr.finished hanswered).resolve_right fun h => hlistener h.2)
    muted := hr.muted
    rejected := fun _ _ => rfl
    last := fun e before after heq => by
      rcases List.eq_nil_or_concat after with rfl | ⟨after, event, rfl⟩
      · rfl
      · rw [List.concat_eq_append, ← List.cons_append, ← List.append_assoc] at heq
        have hevents := (List.append_inj' heq rfl).1
        exact absurd (hr.rejected e (hevents ▸ by simp)) hlistener }
  accounted := fun _ => Or.inr (Or.inl (List.concat_ne_nil _ _))
  ended := fun hnone => absurd hnone hlistener

end Status

/-- The query of a handler. -/
def home (c : ReadingClient κ υ Q γ) (n : ℕ) : Option κ := c.reads[n]?

def status (c : ReadingClient κ υ Q γ) (n : ℕ) : Status κ where
  listener := (c.home n).bind fun key => c.eventManager.listener key n
  events := eventsOf n c.userQueue
  muted := n ∈ c.muted
  answered := n ∈ c.answered.map Prod.fst

/-- The snapshot is one of the view that a read listens to. -/
def IsShown (c : ReadingClient κ υ Q γ) (doc : κ → Option ExistingDocument) (n : ℕ)
    (s : ViewSnapshot κ) : Prop :=
  ∃ key queryView, c.home n = some key ∧ c.queryViews.lookup key = some queryView ∧
    View.SnapshotOf s queryView.view (doc key)

variable {c : ReadingClient κ υ Q γ} {doc doc' : κ → Option ExistingDocument}

theorem Following.query_eq (h : c.Following doc) {query : κ} {queryView : QueryView κ}
    (hview : c.queryViews.lookup query = some queryView) : queryView.view.query = query := by
  have hfollows := h query
  rw [hview] at hfollows
  generalize c.eventManager.queries.lookup query = info at hfollows
  cases hfollows with
  | listened ofQuery => exact ofQuery

theorem Following.applied (h : c.Following doc) {query : κ} {queryView : QueryView κ}
    (hview : c.queryViews.lookup query = some queryView) : queryView.view.Applied (doc query) := by
  have hfollows := h query
  rw [hview] at hfollows
  generalize c.eventManager.queries.lookup query = info at hfollows
  cases hfollows with
  | listened ofQuery applied => exact applied

/-- The listeners of a query have a view. -/
theorem Following.exists_view (h : c.Following doc) {query : κ} {info : QueryListenersInfo κ}
    (hinfo : c.eventManager.queries.lookup query = some info) :
    ∃ queryView, c.queryViews.lookup query = some queryView := by
  have hfollows := h query
  rw [hinfo] at hfollows
  cases hview : c.queryViews.lookup query with
  | none =>
      rw [hview] at hfollows
      cases hfollows
  | some queryView => exact ⟨queryView, rfl⟩

/-- What every listener does for itself is told to its read. -/
theorem tells_of_updates {m : EventManager κ} {events : List (ℕ × ViewEvent κ)}
    {act : κ → QueryListener κ → QueryListener κ × Option (ViewSnapshot κ)}
    (h : c.eventManager.Updates c.home act m events) {n : ℕ} {state : OnlineState}
    {P : ViewSnapshot κ → Prop} {offline : Prop}
    (htold : ∀ key l, c.home n = some key → c.eventManager.listener key n = some l →
      ∃ s, l.Told s state (act key l) ∧ P s ∧ (l.raisedInitialEvent = false → (act key l).2 ≠ none →
        s.fromCache = true → offline)) :
    (c.status n).Tells state P offline
      (status { c with eventManager := m, userQueue := c.userQueue ++ events } n) := by
  have hevents : eventsOf n (c.userQueue ++ events) = (c.status n).events ++ eventsOf n events :=
    eventsOf_append n c.userQueue events
  have hstatus : status { c with eventManager := m, userQueue := c.userQueue ++ events } n =
      { c.status n with
        listener := (c.home n).bind fun key => m.listener key n
        events := (c.status n).events ++ eventsOf n events } := by
    rw [← hevents]
    rfl
  rw [hstatus, h.events]
  cases hhome : c.home n with
  | none => exact .nobody (by rw [status, hhome]; rfl) (by simp [status, hhome])
  | some key =>
      rw [Option.bind_some, Option.bind_some, h.listener]
      have hbefore : (c.status n).listener = c.eventManager.listener key n := by
        rw [status, hhome]
        rfl
      cases hl : c.eventManager.listener key n with
      | none => exact .nobody (hbefore.trans hl) (by simp [status, hhome, hl])
      | some l =>
          obtain ⟨s, htold, hholds, hfirst⟩ := htold key l hhome hl
          exact .told (hbefore.trans hl) htold hholds hfirst rfl

/-- The views have taken a step, after which they show `doc`, and the reads have been told. -/
structure Advances (c : ReadingClient κ υ Q γ) (doc : κ → Option ExistingDocument) (offline : Prop)
    (c' : ReadingClient κ υ Q γ) : Prop where
  queryCache : c'.queryCache = c.queryCache
  targetID : ∀ query, (c'.queryViews.lookup query).map QueryView.targetID =
    (c.queryViews.lookup query).map QueryView.targetID
  reads : c'.reads = c.reads
  begun : c'.begun = c.begun
  removals : c'.removals = c.removals
  answered : c'.answered = c.answered
  housed : c'.eventManager.Housed c'.home
  following : c'.Following doc
  tells : ∀ n, (c.status n).Tells c'.eventManager.onlineState (c'.IsShown doc n) offline (c'.status n)

/-- **The views take a step**, and the reads are told. -/
theorem advanceViews_spec (h : c.Following doc) (hhoused : c.eventManager.Housed c.home)
    {next : QueryView κ → View κ × Option (ViewSnapshot κ)}
    (hnext : ∀ query queryView, c.queryViews.lookup query = some queryView →
      queryView.view.Advances (doc query) (next queryView) (doc' query)) :
    ∃ c', c.advanceViews next = some c' ∧ c.Advances doc' False c' ∧ c'.client = c.client ∧
      c'.eventManager.onlineState = c.eventManager.onlineState := by
  have hkey : ∀ e ∈ c.queryViews, ∀ s ∈ (next e.2).2, s.query = e.1 := by
    intro e he s hs
    have hview := SortedMap.lookup_eq_some_iff.mpr he
    have hadvances := hnext e.1 e.2 hview
    rw [(hadvances.loud s hs).1.query, hadvances.query, h.query_eq hview]
  have hloud : ∀ s ∈ c.queryViews.entries.filterMap fun e => (next e.2).2, View.Loud s := by
    intro s hs
    obtain ⟨e, he, hs⟩ := List.mem_filterMap.mp hs
    exact ((hnext e.1 e.2 (SortedMap.lookup_eq_some_iff.mpr he)).loud s hs).2
  obtain ⟨m, events, hhandle, hhands⟩ := EventManager.handleViewSnapshots_spec hhoused hloud
    (SortedMap.nodup_filterMap (f := fun queryView => (next queryView).2) hkey)
  set views := c.queryViews.mapVal fun _ queryView =>
    ({ queryView with view := (next queryView).1 } : QueryView κ) with hviews
  have hlookup : ∀ query, views.lookup query = (c.queryViews.lookup query).map fun queryView =>
      { queryView with view := (next queryView).1 } := fun query => SortedMap.lookup_mapVal ..
  -- what a query is told is the snapshot that its view has made
  have hlatest : ∀ query, EventManager.latest
      (c.queryViews.entries.filterMap fun e => (next e.2).2) query =
        (c.queryViews.lookup query).bind fun queryView => (next queryView).2 :=
    fun query => SortedMap.find?_filterMap (f := fun queryView => (next queryView).2) hkey query
  refine ⟨{ c with queryViews := views, eventManager := m, userQueue := c.userQueue ++ events }, ?_,
    ⟨rfl, fun query => ?_, rfl, rfl, rfl, rfl, hhands.updates.housed hhoused, fun query => ?_,
      fun n => ?_⟩, rfl, hhands.onlineState⟩
  · rw [advanceViews, handleViewSnapshots]
    dsimp only
    rw [hhandle]
    rfl
  · rw [hlookup, Option.map_map]
    rfl
  · have hfollows := h query
    have hinfo := hhands.lookup query
    change Follows query (doc' query) m.onlineState (views.lookup query) (m.queries.lookup query)
    rw [hhands.onlineState, hlookup, hinfo, hlatest]
    cases hview : c.queryViews.lookup query with
    | none =>
        rw [hview] at hfollows
        generalize c.eventManager.queries.lookup query = info at hfollows
        cases hfollows
        exact .nobody
    | some queryView =>
        rw [hview] at hfollows
        cases hinfo : c.eventManager.queries.lookup query with
        | none =>
            rw [hinfo] at hfollows
            cases hfollows
        | some info =>
            rw [hinfo] at hfollows
            obtain ⟨s, hs, hsnapshot, hloud, htold⟩ := hfollows.advances (hnext query queryView hview)
            rw [Option.bind_some, Option.map_some, Option.map_some, hs]
            refine .listened ?_ (hnext query queryView hview).applied hsnapshot hloud fun l' hl' => ?_
            · exact (hnext query queryView hview).query.trans (h.query_eq hview)
            · obtain ⟨l, hl, rfl⟩ := List.mem_map.mp hl'
              obtain ⟨hoptions, htold, -⟩ := htold l hl
              exact ⟨htold.knows, htold.options.trans hoptions⟩
  · refine tells_of_updates hhands.updates fun key l hhome hl => ?_
    obtain ⟨info, hinfo, hmem, -⟩ := EventManager.mem_of_listener hl
    obtain ⟨queryView, hview⟩ := h.exists_view hinfo
    have hfollows := h key
    rw [hview, hinfo] at hfollows
    obtain ⟨s, -, hsnapshot, -, htold⟩ := hfollows.advances (hnext key queryView hview)
    obtain ⟨-, htold, hfirst⟩ := htold l hmem
    rw [hlatest, hview, Option.bind_some, hhands.onlineState]
    refine ⟨s, htold, ⟨key, _, hhome, by rw [hlookup, hview]; rfl, hsnapshot⟩,
      fun hwaits hraised hcache => ?_⟩
    exact Bool.noConfusion (hcache.symm.trans (hfirst hwaits hraised))

/-- The listener of a read knows what its view shows. -/
theorem Following.knows (h : c.Following doc) {n : ℕ} {l : QueryListener κ}
    (hl : (c.status n).listener = some l) :
    ∃ s, c.IsShown doc n s ∧ l.Knows s c.eventManager.onlineState ∧ l.options = getOptions := by
  obtain ⟨key, hhome, hl⟩ := Option.bind_eq_some_iff.mp hl
  obtain ⟨info, hinfo, hmem, -⟩ := EventManager.mem_of_listener hl
  obtain ⟨queryView, hview⟩ := h.exists_view hinfo
  have hfollows := h key
  rw [hview, hinfo] at hfollows
  cases hfollows with
  | listened ofQuery applied snapshot loud knows =>
      exact ⟨_, ⟨key, queryView, hhome, hview, snapshot⟩, knows l hmem⟩

/-- Nothing happens to the views. -/
theorem advances_self (h : c.Following doc) (hhoused : c.eventManager.Housed c.home) :
    c.Advances doc False c where
  queryCache := rfl
  targetID := fun query => rfl
  reads := rfl
  begun := rfl
  removals := rfl
  answered := rfl
  housed := hhoused
  following := h
  tells := fun n => by
    cases hl : (c.status n).listener with
    | none => exact .nobody hl rfl
    | some l =>
        obtain ⟨s, hshown, hknows, -⟩ := h.knows hl
        refine .told hl (QueryListener.told_self hknows) hshown (fun _ hraised => absurd rfl hraised) ?_
        rw [← hl, Option.map_none, Option.toList_none, List.append_nil]

/-! ## The online state -/

/-- **The listeners learn of the online state**, after the views have. -/
theorem advances_onlineState (h : c.Following doc) (hhoused : c.eventManager.Housed c.home)
    (state : OnlineState) :
    c.Advances doc (state = .offline) { c with
      eventManager := (c.eventManager.applyChangedOnlineState state).1
      userQueue := c.userQueue ++ (c.eventManager.applyChangedOnlineState state).2 } where
  queryCache := rfl
  targetID := fun query => rfl
  reads := rfl
  begun := rfl
  removals := rfl
  answered := rfl
  housed := (EventManager.applyChangedOnlineState_updates hhoused state).housed hhoused
  following := fun query => by
    have hfollows := h query
    change Follows query (doc query) state (c.queryViews.lookup query)
      ((c.eventManager.queries.mapVal fun _ info => { info with
        listeners := (QueryListener.forEach (QueryListener.applyChangedOnlineState state)
          info.listeners).1 }).lookup query)
    rw [SortedMap.lookup_mapVal]
    generalize c.queryViews.lookup query = view at hfollows
    generalize c.eventManager.queries.lookup query = info at hfollows
    cases hfollows with
    | nobody => exact .nobody
    | listened ofQuery applied snapshot loud knows =>
        refine .listened ofQuery applied snapshot loud fun l' hl' => ?_
        obtain ⟨l, hl, rfl⟩ := List.mem_map.mp hl'
        have htold := QueryListener.told_applyChangedOnlineState (knows l hl).1 state
        exact ⟨htold.knows, htold.options.trans (knows l hl).2⟩
  tells := fun n => by
    have hupdates := EventManager.applyChangedOnlineState_updates hhoused state
    refine tells_of_updates hupdates fun key l hhome hl => ?_
    have hlistener : (c.status n).listener = some l := by
      rw [status, hhome]
      exact hl
    obtain ⟨s, hshown, hknows, hoptions⟩ := h.knows hlistener
    have htold := QueryListener.told_applyChangedOnlineState hknows state
    refine ⟨s, htold, hshown, fun hwaits hraised hcache => ?_⟩
    obtain ⟨e, he⟩ := Option.ne_none_iff_exists'.mp hraised
    have hshould := (htold.event e he).2.2 hwaits
    rw [shouldRaiseInitialEvent_iff hoptions] at hshould
    exact hshould.resolve_left (by rw [hcache]; exact Bool.noConfusion)

end ReadingClient

end CocoMap
