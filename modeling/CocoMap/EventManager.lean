import CocoMap.View
import CocoMap.WriteStream

/-!
# The event manager

`FSTEventManager` keeps the listeners of every query that is listened to, and the last snapshot
of its view.  A listener raises an event when a snapshot is worth one: its first event may have
to wait until the view is synced, or the client is offline.

An event is not handled at once.  It is dispatched to the queue of the user, as a pair of the
handler and the event, and handled later.  What an operation dispatches is part of its result.
-/

namespace CocoMap

/-- `FSTListenOptions` -/
structure ListenOptions where
  includeQueryMetadataChanges : Bool
  includeDocumentMetadataChanges : Bool
  waitForSyncWhenOnline : Bool
deriving DecidableEq

/-- What the handler of a listener is called with. -/
inductive ViewEvent (κ : Type) [LinearOrder κ]
  | snapshot (snapshot : ViewSnapshot κ)
  | error (error : FirestoreErrorCode)

/-- `FSTQueryListener`; its handler is known by a number. -/
structure QueryListener (κ : Type) [LinearOrder κ] where
  handler : ℕ
  options : ListenOptions
  raisedInitialEvent : Bool
  onlineState : OnlineState
  /-- The last received view snapshot. -/
  snapshot : Option (ViewSnapshot κ)

/-- `FSTQueryListenersInfo` -/
structure QueryListenersInfo (κ : Type) [LinearOrder κ] where
  viewSnapshot : Option (ViewSnapshot κ)
  listeners : List (QueryListener κ)

/-- `FSTEventManager` -/
structure EventManager (κ : Type) [LinearOrder κ] where
  queries : SortedMap κ (QueryListenersInfo κ)
  onlineState : OnlineState

variable {κ : Type} [LinearOrder κ]

namespace QueryListener

/-- `initWithQuery:options:viewSnapshotHandler:` -/
def init (handler : ℕ) (options : ListenOptions) : QueryListener κ where
  handler := handler
  options := options
  raisedInitialEvent := false
  onlineState := .unknown
  snapshot := none

/-- We consider an unknown state as online (it should become offline or online if we wait long
enough). -/
def shouldRaiseInitialEvent (listener : QueryListener κ) (snapshot : ViewSnapshot κ)
    (onlineState : OnlineState) : Bool :=
  -- Always raise the first event when we're synced
  if !snapshot.fromCache then true
  -- Don't raise the event if we're online and are waiting for a sync
  else if listener.options.waitForSyncWhenOnline ∧ onlineState ≠ .offline then false
  -- Raise data from cache if we have any documents or we are offline
  else !snapshot.documents.entries.isEmpty || onlineState = .offline

def shouldRaiseEvent (listener : QueryListener κ) (snapshot : ViewSnapshot κ) : Bool :=
  if snapshot.documentChanges ≠ [] then true
  else
    let hasPendingWritesChanged := listener.snapshot.any fun last =>
      last.hasPendingWrites ≠ snapshot.hasPendingWrites
    (snapshot.syncStateChanged || hasPendingWritesChanged) &&
      listener.options.includeQueryMetadataChanges

/-- The snapshot of an initial event: all of its documents have been added. -/
def initialEvent (snapshot : ViewSnapshot κ) : ViewSnapshot κ :=
  { snapshot with
    documentChanges := snapshot.documents.entries.map fun entry => (entry.1, .added)
    syncStateChanged := true }

/-- `raiseInitialEventForSnapshot:`, if it should be raised. -/
def raiseInitialEvent (listener : QueryListener κ) (snapshot : ViewSnapshot κ) :
    QueryListener κ × Option (ViewSnapshot κ) :=
  if listener.shouldRaiseInitialEvent snapshot listener.onlineState then
    ({ listener with raisedInitialEvent := true }, some (initialEvent snapshot))
  else (listener, none)

/-- Remove the metadata-only changes, if they are not to be included. -/
def stripped (listener : QueryListener κ) (snapshot : ViewSnapshot κ) : ViewSnapshot κ :=
  if listener.options.includeDocumentMetadataChanges then snapshot
  else { snapshot with
    documentChanges := snapshot.documentChanges.filter fun change => change.2 ≠ .metadata }

/-- `queryDidChangeViewSnapshot:`, for a snapshot with changes. -/
def queryDidChangeViewSnapshot (listener : QueryListener κ) (snapshot : ViewSnapshot κ) :
    QueryListener κ × Option (ViewSnapshot κ) :=
  let snapshot := listener.stripped snapshot
  let raised :=
    if !listener.raisedInitialEvent then listener.raiseInitialEvent snapshot
    else (listener, if listener.shouldRaiseEvent snapshot then some snapshot else none)
  ({ raised.1 with snapshot := some snapshot }, raised.2)

def applyChangedOnlineState (onlineState : OnlineState) (listener : QueryListener κ) :
    QueryListener κ × Option (ViewSnapshot κ) :=
  let listener := { listener with onlineState }
  match listener.snapshot with
  | none => (listener, none)
  | some snapshot =>
      if !listener.raisedInitialEvent then listener.raiseInitialEvent snapshot
      else (listener, none)

end QueryListener

/-- Each of the listeners does `act`, and the events that they raise are dispatched. -/
def QueryListener.forEach (act : QueryListener κ → QueryListener κ × Option (ViewSnapshot κ))
    (listeners : List (QueryListener κ)) : List (QueryListener κ) × List (ℕ × ViewEvent κ) :=
  (listeners.map fun listener => (act listener).1,
    listeners.flatMap fun listener =>
      ((act listener).2.map fun snapshot => (listener.handler, .snapshot snapshot)).toList)

namespace EventManager

def init : EventManager κ where
  queries := .empty
  onlineState := .unknown

/-- One round of the loop of `handleViewSnapshots:`.  Every listener asserts that the snapshot has
changes. -/
def handleViewSnapshot (m : EventManager κ) (viewSnapshot : ViewSnapshot κ) :
    Option (EventManager κ × List (ℕ × ViewEvent κ)) :=
  match m.queries.lookup viewSnapshot.query with
  | none => some (m, [])
  | some info =>
      if info.listeners ≠ [] ∧ ¬View.Loud viewSnapshot then none
      else
        let told := QueryListener.forEach
          (fun listener => listener.queryDidChangeViewSnapshot viewSnapshot) info.listeners
        some ({ m with
          queries := m.queries.insert viewSnapshot.query ⟨some viewSnapshot, told.1⟩ }, told.2)

def handleViewSnapshots (m : EventManager κ) :
    List (ViewSnapshot κ) → Option (EventManager κ × List (ℕ × ViewEvent κ))
  | [] => some (m, [])
  | viewSnapshot :: viewSnapshots => do
      let (m, events) ← m.handleViewSnapshot viewSnapshot
      let (m, later) ← m.handleViewSnapshots viewSnapshots
      return (m, events ++ later)

/-- `addListener:`, up to the listen of the sync engine, which the first listener asks for. -/
def addListener (m : EventManager κ) (query : κ) (listener : QueryListener κ) :
    Option (EventManager κ × List (ℕ × ViewEvent κ)) :=
  let info := (m.queries.lookup query).getD ⟨none, []⟩
  let (listener, first) := listener.applyChangedOnlineState m.onlineState
  let told := match info.viewSnapshot with
    | none => (listener, none)
    | some viewSnapshot => listener.queryDidChangeViewSnapshot viewSnapshot
  if info.viewSnapshot.any fun viewSnapshot => ¬View.Loud viewSnapshot then none
  else some ({ m with
      queries := m.queries.insert query { info with listeners := info.listeners ++ [told.1] } },
    (first.toList ++ told.2.toList).map fun snapshot => (listener.handler, .snapshot snapshot))

/-- `removeListener:`, and whether it was the last. -/
def removeListener (m : EventManager κ) (query : κ) (handler : ℕ) : EventManager κ × Bool :=
  match m.queries.lookup query with
  | none => (m, false)
  | some info =>
      let listeners := info.listeners.filter fun listener => listener.handler ≠ handler
      if listeners = [] then ({ m with queries := m.queries.erase query }, true)
      else ({ m with queries := m.queries.insert query { info with listeners } }, false)

/-- We don't need to stop listening after an error. -/
def handleError (m : EventManager κ) (error : FirestoreErrorCode) (query : κ) :
    EventManager κ × List (ℕ × ViewEvent κ) :=
  ({ m with queries := m.queries.erase query },
    ((m.queries.lookup query).toList.flatMap QueryListenersInfo.listeners).map fun listener =>
      (listener.handler, .error error))

def applyChangedOnlineState (m : EventManager κ) (onlineState : OnlineState) :
    EventManager κ × List (ℕ × ViewEvent κ) :=
  let told := fun info : QueryListenersInfo κ =>
    QueryListener.forEach (QueryListener.applyChangedOnlineState onlineState) info.listeners
  ({ queries := m.queries.mapVal fun _ info => { info with listeners := (told info).1 }
     onlineState },
    m.queries.entries.flatMap fun entry => (told entry.2).2)

end EventManager

/-! ## Listeners -/

namespace QueryListener

/-- The listener knows the snapshot of its view and the online state, and if it has not raised an
event yet, it still has to wait. -/
structure Knows (l : QueryListener κ) (s : ViewSnapshot κ) (state : OnlineState) : Prop where
  options : l.options.includeDocumentMetadataChanges = true
  snapshot : l.snapshot = some s
  onlineState : l.onlineState = state
  waits : l.raisedInitialEvent = false → l.shouldRaiseInitialEvent s state = false

/-- The listener has been told of a snapshot or of an online state, and may have raised an event. -/
structure Told (l : QueryListener κ) (s : ViewSnapshot κ) (state : OnlineState)
    (told : QueryListener κ × Option (ViewSnapshot κ)) : Prop where
  handler : told.1.handler = l.handler
  options : told.1.options = l.options
  knows : told.1.Knows s state
  raised : told.1.raisedInitialEvent = (l.raisedInitialEvent || told.2.isSome)
  event : ∀ e ∈ told.2, e.documents = s.documents ∧ e.fromCache = s.fromCache ∧
    (l.raisedInitialEvent = false → l.shouldRaiseInitialEvent s state = true)

variable {l : QueryListener κ} {s : ViewSnapshot κ} {state : OnlineState}

theorem told_self (h : l.Knows s state) : l.Told s state (l, none) where
  handler := rfl
  options := rfl
  knows := h
  raised := (Bool.or_false _).symm
  event := fun e he => absurd he (Option.not_mem_none e)

/-- The first event is raised when it should be. -/
theorem told_raiseInitialEvent (hoptions : l.options.includeDocumentMetadataChanges = true)
    (hraised : l.raisedInitialEvent = false) (s : ViewSnapshot κ) (state : OnlineState) :
    let told := { l with onlineState := state }.raiseInitialEvent s
    l.Told s state ({ told.1 with snapshot := some s }, told.2) := by
  unfold raiseInitialEvent
  dsimp only
  split
  · rename_i hshould
    refine ⟨rfl, rfl, ⟨hoptions, rfl, rfl, fun h => Bool.noConfusion h⟩, ?_, fun e he => ?_⟩
    · rw [hraised]
      rfl
    · obtain rfl := Option.mem_some_iff.mp he
      exact ⟨rfl, rfl, fun _ => hshould⟩
  · rename_i hwaits
    refine ⟨rfl, rfl, ⟨hoptions, rfl, rfl, fun _ => Bool.eq_false_iff.mpr hwaits⟩, ?_, fun e he => ?_⟩
    · exact (Bool.or_false _).symm
    · exact absurd he (Option.not_mem_none e)

theorem told_queryDidChangeViewSnapshot
    (hoptions : l.options.includeDocumentMetadataChanges = true) (s : ViewSnapshot κ) :
    l.Told s l.onlineState (l.queryDidChangeViewSnapshot s) := by
  have hstripped : l.stripped s = s := if_pos hoptions
  unfold queryDidChangeViewSnapshot
  rw [hstripped]
  cases hraised : l.raisedInitialEvent with
  | false => exact told_raiseInitialEvent hoptions hraised s l.onlineState
  | true =>
      refine ⟨rfl, rfl, ⟨hoptions, rfl, rfl, fun h => ?_⟩, hraised.trans ?_, fun e he => ?_⟩
      · exact absurd (hraised.symm.trans h) Bool.noConfusion
      · rw [hraised, Bool.true_or]
      · have he : e ∈ if l.shouldRaiseEvent s then some s else none := he
        split at he
        · obtain rfl := Option.mem_some_iff.mp he
          exact ⟨rfl, rfl, fun h => absurd (hraised.symm.trans h) Bool.noConfusion⟩
        · exact absurd he (Option.not_mem_none e)

theorem told_applyChangedOnlineState (h : l.Knows s state) (state' : OnlineState) :
    l.Told s state' (l.applyChangedOnlineState state') := by
  obtain ⟨handler, options, raised, _, snapshot⟩ := l
  obtain rfl : snapshot = some s := h.snapshot
  cases raised with
  | false =>
      have htold := told_raiseInitialEvent h.options rfl s state'
      have hsnapshot : (raiseInitialEvent ⟨handler, options, false, state', some s⟩ s).1.snapshot =
          some s := by
        unfold raiseInitialEvent
        split <;> rfl
      exact ⟨htold.handler, htold.options,
        ⟨htold.knows.options, hsnapshot, htold.knows.onlineState, htold.knows.waits⟩,
        htold.raised, htold.event⟩
  | true =>
      exact ⟨rfl, rfl, ⟨h.options, rfl, rfl, fun hwaits => Bool.noConfusion hwaits⟩, rfl,
        fun e he => absurd he (Option.not_mem_none e)⟩

end QueryListener

/-- The events that are dispatched for one handler. -/
def eventsOf (handler : ℕ) (events : List (ℕ × ViewEvent κ)) : List (ViewEvent κ) :=
  (events.filter fun event => event.1 = handler).map Prod.snd

theorem eventsOf_append (handler : ℕ) (events later : List (ℕ × ViewEvent κ)) :
    eventsOf handler (events ++ later) = eventsOf handler events ++ eventsOf handler later := by
  rw [eventsOf, List.filter_append, List.map_append]
  rfl

theorem eventsOf_cons (n : ℕ) (event : ViewEvent κ) (events : List (ℕ × ViewEvent κ)) (k : ℕ) :
    eventsOf k ((n, event) :: events) = if k = n then event :: eventsOf k events
      else eventsOf k events := by
  by_cases hk : k = n
  · simp [eventsOf, hk]
  · simp [eventsOf, hk, Ne.symm hk]

theorem eventsOf_raised (n : ℕ) (raised : Option (ViewSnapshot κ)) (k : ℕ) :
    eventsOf k ((raised.map fun s => (n, ViewEvent.snapshot s)).toList) =
      if k = n then (raised.map ViewEvent.snapshot).toList else [] := by
  cases raised with
  | none => exact (ite_self []).symm
  | some s => exact eventsOf_cons n (.snapshot s) [] k

theorem eventsOf_eq_nil {handler : ℕ} {events : List (ℕ × ViewEvent κ)}
    (h : ∀ event ∈ events, event.1 ≠ handler) : eventsOf handler events = [] := by
  rw [eventsOf, List.map_eq_nil_iff, List.filter_eq_nil_iff]
  simpa using h

namespace QueryListener

variable {act : QueryListener κ → QueryListener κ × Option (ViewSnapshot κ)}
  {listeners : List (QueryListener κ)} {n : ℕ}

theorem find?_forEach (hact : ∀ l, (act l).1.handler = l.handler) :
    (forEach act listeners).1.find? (fun l => l.handler = n) =
      (listeners.find? fun l => l.handler = n).map fun l => (act l).1 := by
  rw [forEach, List.find?_map]
  congr 2
  funext l
  rw [Function.comp_apply, hact]

/-- What the listeners dispatch, if each of them dispatches an event or none. -/
def dispatched (raise : QueryListener κ → Option (ViewEvent κ)) (listeners : List (QueryListener κ)) :
    List (ℕ × ViewEvent κ) :=
  listeners.flatMap fun l => ((raise l).map fun event => (l.handler, event)).toList

/-- Each handler has the event of its own listener. -/
theorem eventsOf_dispatched (raise : QueryListener κ → Option (ViewEvent κ))
    (hnodup : (listeners.map handler).Nodup) :
    eventsOf n (dispatched raise listeners) =
      ((listeners.find? fun l => l.handler = n).bind raise).toList := by
  have hhandlers : ∀ ls : List (QueryListener κ), (∀ l ∈ ls, l.handler ≠ n) →
      eventsOf n (dispatched raise ls) = [] := by
    intro ls hls
    refine eventsOf_eq_nil fun event hevent => ?_
    obtain ⟨l, hl, hevent⟩ := List.mem_flatMap.mp hevent
    obtain ⟨e, -, rfl⟩ := Option.map_eq_some_iff.mp (Option.mem_toList.mp hevent)
    exact hls l hl
  induction listeners with
  | nil => rfl
  | cons l listeners ih =>
      obtain ⟨hnot, hnodup⟩ := List.nodup_cons.mp hnodup
      have hsplit : dispatched raise (l :: listeners) =
          dispatched raise [l] ++ dispatched raise listeners := by simp [dispatched]
      rw [hsplit, eventsOf_append]
      by_cases hn : l.handler = n
      · have hrest := hhandlers listeners fun l' hl' heq =>
          hnot (List.mem_map.mpr ⟨l', hl', heq.trans hn.symm⟩)
        rw [hrest, List.append_nil, List.find?_cons_of_pos (by simpa using hn), Option.bind_some]
        cases hraise : raise l <;> simp [dispatched, eventsOf, hraise, hn]
      · rw [hhandlers [l] (by simpa using hn), List.nil_append, ih hnodup,
          List.find?_cons_of_neg (by simpa using hn)]

theorem eventsOf_forEach (hnodup : (listeners.map handler).Nodup) :
    eventsOf n (forEach act listeners).2 =
      (((listeners.find? fun l => l.handler = n).bind fun l => (act l).2).map
        ViewEvent.snapshot).toList := by
  have hdispatched : (forEach act listeners).2 =
      dispatched (fun l => (act l).2.map ViewEvent.snapshot) listeners := by
    unfold forEach dispatched
    simp only [Option.map_map]
    rfl
  rw [hdispatched, eventsOf_dispatched _ hnodup, Option.map_bind]
  rfl

end QueryListener

namespace EventManager

/-- The listener of a query with a certain handler. -/
def listener (m : EventManager κ) (query : κ) (n : ℕ) : Option (QueryListener κ) :=
  (m.queries.lookup query).bind fun info => info.listeners.find? fun l => l.handler = n

theorem mem_of_listener {m : EventManager κ} {query : κ} {n : ℕ} {l : QueryListener κ}
    (h : m.listener query n = some l) :
    ∃ info, m.queries.lookup query = some info ∧ l ∈ info.listeners ∧ l.handler = n := by
  obtain ⟨info, hinfo, hfind⟩ := Option.bind_eq_some_iff.mp h
  exact ⟨info, hinfo, List.mem_of_find?_eq_some hfind, by simpa using List.find?_some hfind⟩

/-- Every handler has at most one listener, and `home` knows of which query. -/
structure Housed (m : EventManager κ) (home : ℕ → Option κ) : Prop where
  home : ∀ query info, m.queries.lookup query = some info →
    ∀ l ∈ info.listeners, home l.handler = some query
  nodup : ∀ query info, m.queries.lookup query = some info →
    (info.listeners.map QueryListener.handler).Nodup

/-- What a listener does when its view may have a new snapshot. -/
def change (snapshot : Option (ViewSnapshot κ)) (l : QueryListener κ) :
    QueryListener κ × Option (ViewSnapshot κ) :=
  snapshot.elim (l, none) l.queryDidChangeViewSnapshot

theorem handler_change (snapshot : Option (ViewSnapshot κ)) (l : QueryListener κ) :
    (change snapshot l).1.handler = l.handler := by
  cases snapshot with
  | none => rfl
  | some s =>
      change (l.queryDidChangeViewSnapshot s).1.handler = l.handler
      unfold QueryListener.queryDidChangeViewSnapshot QueryListener.raiseInitialEvent
      dsimp only
      split
      · split <;> rfl
      · rfl

theorem handler_applyChangedOnlineState (state : OnlineState) (l : QueryListener κ) :
    (l.applyChangedOnlineState state).1.handler = l.handler := by
  unfold QueryListener.applyChangedOnlineState QueryListener.raiseInitialEvent
  dsimp only
  split
  · rfl
  · split
    · split <;> rfl
    · rfl

theorem forEach_change_none (listeners : List (QueryListener κ)) :
    QueryListener.forEach (change none) listeners = (listeners, []) := by
  simp [QueryListener.forEach, change]

theorem forEach_change_none_map (info : Option (QueryListenersInfo κ)) :
    (info.map fun info : QueryListenersInfo κ =>
      (⟨(none : Option (ViewSnapshot κ)).or info.viewSnapshot,
        (QueryListener.forEach (change none) info.listeners).1⟩ : QueryListenersInfo κ)) = info := by
  cases info with
  | none => rfl
  | some info => rw [Option.map_some, forEach_change_none, Option.none_or]

/-- The listeners of every query act, each for itself, and what they raise is dispatched. -/
structure Updates (m : EventManager κ) (home : ℕ → Option κ)
    (act : κ → QueryListener κ → QueryListener κ × Option (ViewSnapshot κ)) (m' : EventManager κ)
    (events : List (ℕ × ViewEvent κ)) : Prop where
  handler : ∀ query l, (act query l).1.handler = l.handler
  listeners : ∀ query, (m'.queries.lookup query).map QueryListenersInfo.listeners =
    (m.queries.lookup query).map fun info => (QueryListener.forEach (act query) info.listeners).1
  events : ∀ n, eventsOf n events =
    (((home n).bind fun query => (m.listener query n).bind fun l => (act query l).2).map
      ViewEvent.snapshot).toList

variable {m m' : EventManager κ} {home : ℕ → Option κ}
  {act : κ → QueryListener κ → QueryListener κ × Option (ViewSnapshot κ)}
  {events : List (ℕ × ViewEvent κ)}

theorem Updates.listener (h : m.Updates home act m' events) (query : κ) (n : ℕ) :
    m'.listener query n = (m.listener query n).map fun l => (act query l).1 := by
  have hlisteners := h.listeners query
  rw [EventManager.listener, EventManager.listener]
  cases hlookup : m.queries.lookup query with
  | none =>
      rw [hlookup, Option.map_none, Option.map_eq_none_iff] at hlisteners
      rw [hlisteners]
      rfl
  | some info =>
      rw [hlookup, Option.map_some, Option.map_eq_some_iff] at hlisteners
      obtain ⟨info', hlookup', hinfo'⟩ := hlisteners
      rw [hlookup', Option.bind_some, Option.bind_some, hinfo',
        QueryListener.find?_forEach (h.handler query)]

theorem Updates.housed (h : m.Updates home act m' events) (hm : m.Housed home) : m'.Housed home := by
  have hlisteners : ∀ query info', m'.queries.lookup query = some info' →
      ∃ info, m.queries.lookup query = some info ∧
        info'.listeners = info.listeners.map fun l => (act query l).1 := by
    intro query info' hinfo'
    have hmap := h.listeners query
    rw [hinfo', Option.map_some, eq_comm, Option.map_eq_some_iff] at hmap
    obtain ⟨info, hinfo, heq⟩ := hmap
    exact ⟨info, hinfo, heq.symm⟩
  refine ⟨fun query info' hinfo' l' hl' => ?_, fun query info' hinfo' => ?_⟩
  · obtain ⟨info, hinfo, heq⟩ := hlisteners query info' hinfo'
    rw [heq] at hl'
    obtain ⟨l, hl, rfl⟩ := List.mem_map.mp hl'
    rw [h.handler]
    exact hm.home query info hinfo l hl
  · obtain ⟨info, hinfo, heq⟩ := hlisteners query info' hinfo'
    rw [heq, List.map_map]
    have hhandlers : (QueryListener.handler ∘ fun l => (act query l).1) = QueryListener.handler :=
      funext (h.handler query)
    rw [hhandlers]
    exact hm.nodup query info hinfo

/-- The events of a handler are those of the listener of its query. -/
theorem Housed.eventsOf_forEach (hm : m.Housed home) {query : κ} {info : QueryListenersInfo κ}
    (hinfo : m.queries.lookup query = some info)
    (act : QueryListener κ → QueryListener κ × Option (ViewSnapshot κ)) (n : ℕ) :
    eventsOf n (QueryListener.forEach act info.listeners).2 =
      (if home n = some query then
        ((m.listener query n).bind fun l => (act l).2).map ViewEvent.snapshot else none).toList := by
  rw [QueryListener.eventsOf_forEach (hm.nodup query info hinfo)]
  have hlistener : m.listener query n = info.listeners.find? fun l => l.handler = n := by
    rw [EventManager.listener, hinfo, Option.bind_some]
  rw [hlistener]
  cases hfind : info.listeners.find? fun l => l.handler = n with
  | none => simp
  | some l =>
      have hhandler : l.handler = n := by simpa using List.find?_some hfind
      have hhome := hm.home query info hinfo l (List.mem_of_find?_eq_some hfind)
      rw [hhandler] at hhome
      rw [if_pos hhome]

/-! ## Snapshots -/

/-- Every query has been told of its new snapshot, if there is one. -/
structure Hands (m : EventManager κ) (home : ℕ → Option κ) (new : κ → Option (ViewSnapshot κ))
    (m' : EventManager κ) (events : List (ℕ × ViewEvent κ)) : Prop where
  onlineState : m'.onlineState = m.onlineState
  lookup : ∀ query, m'.queries.lookup query = (m.queries.lookup query).map fun info =>
    ⟨(new query).or info.viewSnapshot,
      (QueryListener.forEach (change (new query)) info.listeners).1⟩
  events : ∀ n, eventsOf n events =
    (((home n).bind fun query => (m.listener query n).bind fun l => (change (new query) l).2).map
      ViewEvent.snapshot).toList

variable {new new' : κ → Option (ViewSnapshot κ)}

theorem Hands.updates (h : m.Hands home new m' events) :
    m.Updates home (fun query => change (new query)) m' events where
  handler := fun query => handler_change (new query)
  listeners := fun query => by
    rw [h.lookup, Option.map_map]
    rfl
  events := h.events

theorem hands_nothing (m : EventManager κ) (home : ℕ → Option κ) :
    m.Hands home (fun _ => none) m [] where
  onlineState := rfl
  lookup := fun query => by simp [forEach_change_none]
  events := fun n => by simp [change, eventsOf]

/-- A query is told once. -/
theorem Hands.trans {m'' : EventManager κ} {later : List (ℕ × ViewEvent κ)}
    (h : m.Hands home new m' events) (h' : m'.Hands home new' m'' later)
    (honce : ∀ query, new query = none ∨ new' query = none) :
    m.Hands home (fun query => (new query).or (new' query)) m'' (events ++ later) where
  onlineState := h'.onlineState.trans h.onlineState
  lookup := fun query => by
    rw [h'.lookup, h.lookup, Option.map_map]
    congr 1
    funext info
    rcases honce query with hnone | hnone
    · simp [hnone, forEach_change_none]
    · simp [hnone, forEach_change_none]
  events := fun n => by
    rw [eventsOf_append, h.events, h'.events]
    cases home n with
    | none => rfl
    | some query =>
        simp only [Option.bind_some, h.updates.listener]
        rcases honce query with hnone | hnone
        · cases m.listener query n <;> simp [hnone, change]
        · cases m.listener query n <;> simp [hnone, change]

theorem handleViewSnapshot_spec (hm : m.Housed home) {s : ViewSnapshot κ} (hs : View.Loud s) :
    ∃ m' events, m.handleViewSnapshot s = some (m', events) ∧
      m.Hands home (fun query => if s.query = query then some s else none) m' events := by
  unfold handleViewSnapshot
  split
  · rename_i hnone
    refine ⟨m, [], rfl, rfl, fun query => ?_, fun n => ?_⟩
    · by_cases hquery : s.query = query
      · rw [← hquery, hnone]
        rfl
      · simp [hquery, forEach_change_none]
    · cases home n with
      | none => rfl
      | some query =>
          by_cases hquery : s.query = query
          · simp [← hquery, listener, hnone, eventsOf]
          · simp [hquery, change, eventsOf]
  · rename_i info hinfo
    rw [if_neg fun h => h.2 hs]
    refine ⟨_, _, rfl, rfl, fun query => ?_, fun n => ?_⟩
    · dsimp only
      rw [SortedMap.lookup_insert]
      by_cases hquery : s.query = query
      · subst hquery
        rw [if_pos rfl, hinfo, Option.map_some, if_pos rfl]
        rfl
      · rw [if_neg (Ne.symm hquery)]
        simp [hquery, forEach_change_none]
    · refine (hm.eventsOf_forEach hinfo (change (some s)) n).trans ?_
      cases home n with
      | none => rfl
      | some query =>
          by_cases hquery : s.query = query
          · simp [hquery]
          · simp [hquery, Ne.symm hquery, change]

/-- The snapshot of a query, if there is one among them. -/
def latest (snapshots : List (ViewSnapshot κ)) (query : κ) : Option (ViewSnapshot κ) :=
  snapshots.find? fun s => s.query = query

theorem handleViewSnapshots_spec {snapshots : List (ViewSnapshot κ)} (hm : m.Housed home)
    (hloud : ∀ s ∈ snapshots, View.Loud s) (hnodup : (snapshots.map ViewSnapshot.query).Nodup) :
    ∃ m' events, m.handleViewSnapshots snapshots = some (m', events) ∧
      m.Hands home (latest snapshots) m' events := by
  induction snapshots generalizing m with
  | nil => exact ⟨m, [], rfl, hands_nothing m home⟩
  | cons s snapshots ih =>
      obtain ⟨hnot, hnodup⟩ := List.nodup_cons.mp hnodup
      obtain ⟨m₁, first, hfirst, hhands⟩ :=
        handleViewSnapshot_spec hm (hloud s List.mem_cons_self)
      obtain ⟨m₂, later, hlater, hhands'⟩ := ih (hhands.updates.housed hm)
        (fun s' hs' => hloud s' (List.mem_cons_of_mem s hs')) hnodup
      refine ⟨m₂, first ++ later, ?_, ?_⟩
      · rw [handleViewSnapshots, hfirst, Option.bind_eq_bind, Option.bind_some]
        dsimp only
        rw [hlater]
        rfl
      · have hlatest : latest (s :: snapshots) = fun query =>
            (if s.query = query then some s else none).or (latest snapshots query) := by
          funext query
          by_cases hquery : s.query = query <;> simp [latest, hquery]
        rw [hlatest]
        refine hhands.trans hhands' fun query => ?_
        by_cases hquery : s.query = query
        · refine Or.inr (List.find?_eq_none.mpr fun s' hs' heq => hnot ?_)
          exact List.mem_map.mpr ⟨s', hs', (of_decide_eq_true heq).trans hquery.symm⟩
        · exact Or.inl (if_neg hquery)

/-! ## Online states -/

theorem eventsOf_flatMap (hm : m.Housed home)
    (act : QueryListener κ → QueryListener κ × Option (ViewSnapshot κ)) (n : ℕ)
    {entries : List (κ × QueryListenersInfo κ)}
    (hentries : ∀ e ∈ entries, m.queries.lookup e.1 = some e.2)
    (hnodup : (entries.map Prod.fst).Nodup) :
    eventsOf n (entries.flatMap fun e => (QueryListener.forEach act e.2.listeners).2) =
      (((home n).bind fun query =>
        if query ∈ entries.map Prod.fst then (m.listener query n).bind fun l => (act l).2
        else none).map ViewEvent.snapshot).toList := by
  induction entries with
  | nil => cases home n <;> rfl
  | cons e entries ih =>
      obtain ⟨hnot, hnodup⟩ := List.nodup_cons.mp hnodup
      have ih := ih (fun e' he' => hentries e' (List.mem_cons_of_mem e he')) hnodup
      rw [List.flatMap_cons, eventsOf_append, ih,
        hm.eventsOf_forEach (hentries e List.mem_cons_self)]
      cases home n with
      | none => rfl
      | some query =>
          by_cases hquery : query = e.1
          · subst hquery
            simp [hnot]
          · have hmem : query ∈ (e :: entries).map Prod.fst ↔ query ∈ entries.map Prod.fst := by
              rw [List.map_cons, List.mem_cons, or_iff_right hquery]
            have hne : some query ≠ some e.1 := fun h => hquery (Option.some_inj.mp h)
            rw [if_neg hne, Option.bind_some, Option.bind_some, Option.toList_none, List.nil_append]
            simp only [hmem]

theorem applyChangedOnlineState_updates (hm : m.Housed home) (state : OnlineState) :
    m.Updates home (fun _ => QueryListener.applyChangedOnlineState state)
      (m.applyChangedOnlineState state).1 (m.applyChangedOnlineState state).2 where
  handler := fun _ => handler_applyChangedOnlineState state
  listeners := fun query => by
    rw [applyChangedOnlineState, SortedMap.lookup_mapVal, Option.map_map]
    rfl
  events := fun n => by
    refine (eventsOf_flatMap hm (QueryListener.applyChangedOnlineState state) n
      (fun e he => SortedMap.lookup_eq_some_iff.mpr he) ?_).trans ?_
    · exact m.queries.nodup_keys
    · congr 2
      refine Option.bind_congr fun query _ => ?_
      split
      · rfl
      · rename_i hquery
        have hnone : m.queries.lookup query = none :=
          SortedMap.lookup_eq_none_iff.mpr fun e he heq => hquery (List.mem_map.mpr ⟨e, he, heq⟩)
        rw [listener, hnone]
        rfl

/-! ## Listeners come and go -/

/-- A new listener, which knows the online state. -/
def newcomer (m : EventManager κ) (n : ℕ) (options : ListenOptions) : QueryListener κ :=
  { QueryListener.init n options with onlineState := m.onlineState }

/-- The new listener is told of the last snapshot, if there is one. -/
def welcome (m : EventManager κ) (query : κ) (n : ℕ) (options : ListenOptions) :
    QueryListener κ × Option (ViewSnapshot κ) :=
  change ((m.queries.lookup query).bind QueryListenersInfo.viewSnapshot) (m.newcomer n options)

/-- The query with the new listener. -/
def joined (m : EventManager κ) (query : κ) (n : ℕ) (options : ListenOptions) :
    QueryListenersInfo κ where
  viewSnapshot := (m.queries.lookup query).bind QueryListenersInfo.viewSnapshot
  listeners := (m.queries.lookup query).elim [] QueryListenersInfo.listeners ++
    [(m.welcome query n options).1]

theorem addListener_eq {query : κ} {n : ℕ} {options : ListenOptions}
    (hloud : ∀ s ∈ (m.queries.lookup query).bind QueryListenersInfo.viewSnapshot, View.Loud s) :
    m.addListener query (.init n options) = some
      ({ m with queries := m.queries.insert query (m.joined query n options) },
        ((m.welcome query n options).2.map fun s => (n, ViewEvent.snapshot s)).toList) := by
  unfold joined welcome addListener
  cases hlookup : m.queries.lookup query with
  | none => rfl
  | some info =>
      obtain ⟨viewSnapshot, listeners⟩ := info
      cases viewSnapshot with
      | none => rfl
      | some s =>
          have hs : View.Loud s := hloud s (by rw [hlookup]; rfl)
          have hquiet : ((some s).any fun s => decide ¬View.Loud s) = false := by
            rw [Option.any_some, decide_eq_false (not_not.mpr hs)]
          dsimp only [Option.getD_some]
          rw [hquiet, if_neg Bool.false_ne_true]
          refine congrArg some (Prod.ext rfl ?_)
          change (change (some s) (m.newcomer n options)).2.toList.map (fun e => (n, ViewEvent.snapshot e)) =
            ((change (some s) (m.newcomer n options)).2.map fun e => (n, ViewEvent.snapshot e)).toList
          cases (change (some s) (m.newcomer n options)).2 <;> rfl

section Joined

variable {query : κ} {n : ℕ} {options : ListenOptions}

theorem handler_welcome : (m.welcome query n options).1.handler = n := handler_change _ _

theorem Housed.ne_of_fresh (hm : m.Housed home) (hfresh : home n = none) {q : κ}
    {info : QueryListenersInfo κ} (hinfo : m.queries.lookup q = some info) :
    ∀ l ∈ info.listeners, l.handler ≠ n := by
  intro l hl heq
  have hhome := hm.home q info hinfo l hl
  rw [heq, hfresh] at hhome
  cases hhome

/-- A listener has joined those of its query. -/
theorem listener_joined (hm : m.Housed home) (hfresh : home n = none)
    (hm' : m'.queries = m.queries.insert query (m.joined query n options)) (q : κ) (k : ℕ) :
    m'.listener q k =
      if q = query ∧ k = n then some (m.welcome query n options).1 else m.listener q k := by
  rw [listener, listener, hm', SortedMap.lookup_insert]
  by_cases hq : q = query
  · subst hq
    rw [if_pos rfl, Option.bind_some, joined]
    dsimp only
    rw [List.find?_append, List.find?_singleton, handler_welcome]
    cases hlookup : m.queries.lookup q with
    | none => by_cases hk : n = k <;> simp [hk, eq_comm]
    | some info =>
        by_cases hk : k = n
        · subst hk
          have hnone : info.listeners.find? (fun l => l.handler = k) = none :=
            List.find?_eq_none.mpr fun l hl => by simpa using hm.ne_of_fresh hfresh hlookup l hl
          simp [hnone]
        · simp [hk, Ne.symm hk]
  · simp [hq]

theorem housed_joined (hm : m.Housed home) (hfresh : home n = none)
    (hm' : m'.queries = m.queries.insert query (m.joined query n options)) :
    m'.Housed (Function.update home n (some query)) := by
  have hold : ∀ q info, m.queries.lookup q = some info → ∀ l ∈ info.listeners,
      Function.update home n (some query) l.handler = some q := by
    intro q info hinfo l hl
    rw [Function.update_of_ne (hm.ne_of_fresh hfresh hinfo l hl)]
    exact hm.home q info hinfo l hl
  refine ⟨fun q info hinfo l hl => ?_, fun q info hinfo => ?_⟩
  · rw [hm', SortedMap.lookup_insert] at hinfo
    split at hinfo
    · rename_i hq
      subst hq
      obtain rfl := Option.some_inj.mp hinfo
      rcases List.mem_append.mp hl with hl | hl
      · cases hlookup : m.queries.lookup q with
        | none =>
            rw [hlookup] at hl
            exact absurd hl List.not_mem_nil
        | some old =>
            rw [hlookup] at hl
            exact hold q old hlookup l hl
      · rw [List.mem_singleton.mp hl, handler_welcome, Function.update_self]
    · exact hold q info hinfo l hl
  · rw [hm', SortedMap.lookup_insert] at hinfo
    split at hinfo
    · rename_i hq
      subst hq
      obtain rfl := Option.some_inj.mp hinfo
      rw [joined]
      dsimp only
      rw [List.map_append, List.map_singleton, handler_welcome]
      cases hlookup : m.queries.lookup q with
      | none => exact List.nodup_singleton n
      | some old =>
          refine (hm.nodup q old hlookup).append (List.nodup_singleton n) ?_
          rw [List.disjoint_singleton]
          intro hmem
          obtain ⟨l, hl, heq⟩ := List.mem_map.mp hmem
          exact hm.ne_of_fresh hfresh hlookup l hl heq
    · exact hm.nodup q info hinfo

end Joined

theorem lookup_removeListener (m : EventManager κ) (query : κ) (n : ℕ) (q : κ) :
    (m.removeListener query n).1.queries.lookup q = (m.queries.lookup q).bind fun info =>
      if q = query then
        let listeners := info.listeners.filter fun l => l.handler ≠ n
        if listeners = [] then none else some { info with listeners }
      else some info := by
  unfold removeListener
  by_cases hq : q = query
  · subst hq
    cases hlookup : m.queries.lookup q with
    | none => simp [hlookup]
    | some info =>
        dsimp only
        split
        · rename_i hempty
          rw [SortedMap.lookup_erase, if_pos rfl, Option.bind_some, if_pos rfl, if_pos hempty]
        · rename_i hne
          rw [SortedMap.lookup_insert, if_pos rfl, Option.bind_some, if_pos rfl, if_neg hne]
  · cases hlookup : m.queries.lookup query with
    | none => simp [hq]
    | some info =>
        dsimp only
        split
        · simp [SortedMap.lookup_erase, hq]
        · simp [SortedMap.lookup_insert, hq]

theorem onlineState_removeListener (m : EventManager κ) (query : κ) (n : ℕ) :
    (m.removeListener query n).1.onlineState = m.onlineState := by
  unfold removeListener
  cases m.queries.lookup query with
  | none => rfl
  | some info =>
      dsimp only
      split <;> rfl

/-- The last listener of a query is gone. -/
theorem removeListener_last {query : κ} {n : ℕ} (h : (m.removeListener query n).2 = true) :
    (∃ info, m.queries.lookup query = some info) ∧
      ∀ q, (m.removeListener query n).1.queries.lookup q =
        if q = query then none else m.queries.lookup q := by
  unfold removeListener at h ⊢
  cases hinfo : m.queries.lookup query with
  | none =>
      rw [hinfo] at h
      cases h
  | some info =>
      rw [hinfo] at h
      dsimp only at h ⊢
      split at h
      · rename_i hempty
        rw [if_pos hempty]
        exact ⟨⟨info, rfl⟩, fun q => SortedMap.lookup_erase ..⟩
      · cases h

/-- There are other listeners. -/
theorem removeListener_others {query : κ} {n : ℕ} (h : (m.removeListener query n).2 = false)
    {q : κ} {info : QueryListenersInfo κ} (hinfo : m.queries.lookup q = some info) :
    ∃ info', (m.removeListener query n).1.queries.lookup q = some info' := by
  unfold removeListener at h ⊢
  cases hquery : m.queries.lookup query with
  | none => exact ⟨info, hinfo⟩
  | some old =>
      rw [hquery] at h
      dsimp only at h ⊢
      split at h
      · cases h
      · rename_i hne
        rw [if_neg hne, SortedMap.lookup_insert]
        split
        · exact ⟨_, rfl⟩
        · exact ⟨info, hinfo⟩

/-- What is left of a query. -/
theorem listeners_removeListener {query : κ} {n : ℕ} {q : κ} {info' : QueryListenersInfo κ}
    (h : (m.removeListener query n).1.queries.lookup q = some info') :
    ∃ info, m.queries.lookup q = some info ∧ info'.viewSnapshot = info.viewSnapshot ∧
      info'.listeners.Sublist info.listeners := by
  rw [lookup_removeListener] at h
  obtain ⟨info, hinfo, h⟩ := Option.bind_eq_some_iff.mp h
  refine ⟨info, hinfo, ?_⟩
  split at h
  · dsimp only at h
    split at h
    · cases h
    · cases h
      exact ⟨rfl, List.filter_sublist⟩
  · cases h
    exact ⟨rfl, List.Sublist.refl _⟩

theorem listener_removeListener (hm : m.Housed home) {query : κ} {n : ℕ}
    (hhome : home n = some query) (q : κ) (k : ℕ) :
    (m.removeListener query n).1.listener q k = if k = n then none else m.listener q k := by
  rw [listener, listener, lookup_removeListener]
  cases hlookup : m.queries.lookup q with
  | none => simp
  | some info =>
      rw [Option.bind_some, Option.bind_some]
      by_cases hq : q = query
      · have hfind : (info.listeners.filter fun l => l.handler ≠ n).find? (fun l => l.handler = k) =
            if k = n then none else info.listeners.find? fun l => l.handler = k := by
          rw [List.find?_filter]
          by_cases hk : k = n
          · subst hk
            rw [if_pos rfl, List.find?_eq_none]
            simp
          · rw [if_neg hk]
            congr 1
            funext l
            by_cases hl : l.handler = k <;> simp [hl, hk]
        rw [if_pos hq, ← hfind]
        dsimp only
        split
        · rename_i hempty
          rw [hempty]
          rfl
        · rfl
      · rw [if_neg hq, Option.bind_some]
        split
        · rename_i hk
          subst hk
          refine List.find?_eq_none.mpr fun l hl heq => hq ?_
          have hl' := hm.home q info hlookup l hl
          rw [of_decide_eq_true heq, hhome] at hl'
          exact (Option.some_inj.mp hl').symm
        · rfl

theorem housed_removeListener (hm : m.Housed home) (query : κ) (n : ℕ) :
    (m.removeListener query n).1.Housed home where
  home := fun q info' hinfo' l hl => by
    obtain ⟨info, hinfo, -, hsublist⟩ := listeners_removeListener hinfo'
    exact hm.home q info hinfo l (hsublist.subset hl)
  nodup := fun q info' hinfo' => by
    obtain ⟨info, hinfo, -, hsublist⟩ := listeners_removeListener hinfo'
    exact (hm.nodup q info hinfo).sublist (hsublist.map _)

theorem listener_handleError (m : EventManager κ) (error : FirestoreErrorCode) (query q : κ) (k : ℕ) :
    (m.handleError error query).1.listener q k = if q = query then none else m.listener q k := by
  rw [listener, handleError]
  dsimp only
  rw [SortedMap.lookup_erase]
  split
  · rfl
  · rfl

theorem eventsOf_handleError (hm : m.Housed home) (error : FirestoreErrorCode) (query : κ) (k : ℕ) :
    eventsOf k (m.handleError error query).2 =
      ((m.listener query k).map fun _ => ViewEvent.error error).toList := by
  have hdispatched : (m.handleError error query).2 =
      ((m.queries.lookup query).elim [] fun info =>
        QueryListener.dispatched (fun _ => some (.error error)) info.listeners) := by
    unfold handleError QueryListener.dispatched
    cases m.queries.lookup query with
    | none => rfl
    | some info =>
        rw [Option.toList_some, List.flatMap_singleton, List.map_eq_flatMap]
        rfl
  rw [hdispatched, listener]
  cases hlookup : m.queries.lookup query with
  | none => rfl
  | some info =>
      rw [Option.elim_some, QueryListener.eventsOf_dispatched _ (hm.nodup query info hlookup),
        Option.bind_some]
      cases info.listeners.find? fun l => l.handler = k <;> rfl

theorem housed_handleError (hm : m.Housed home) (error : FirestoreErrorCode) (query : κ) :
    (m.handleError error query).1.Housed home := by
  have hlookup : ∀ q info, (m.handleError error query).1.queries.lookup q = some info →
      m.queries.lookup q = some info := by
    intro q info hinfo
    rw [handleError, SortedMap.lookup_erase] at hinfo
    split at hinfo
    · cases hinfo
    · exact hinfo
  exact ⟨fun q info hinfo => hm.home q info (hlookup q info hinfo),
    fun q info hinfo => hm.nodup q info (hlookup q info hinfo)⟩

end EventManager

end CocoMap
