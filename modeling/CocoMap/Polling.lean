import CocoMap.Handlers

/-!
# The polling map screens of one device

`MainTabBarController.setupViewController` makes a new `MapController` every time
it is called: at launch, and again after every login and sign-up.  The view of a
`MapController` schedules a repeating timer that is never invalidated, so a
replaced controller stays alive and goes on polling until the process ends.

`App` is the state of one device: the user Auth keeps signed in, the controllers
with a running timer, the annotation on the map of each of them, and the polls in
flight.  Controllers and polls are numbered in the order of their creation.  A
poll in flight is what is left of its `updatePin`.

The database is any sequence of versions of the collection.  The reply to a read
is the document as it is in one of them, or an error; replies arrive in any order.
-/

namespace CocoMap

/-- An `updatePin` in flight: the controller it belongs to, and what is left of it. -/
structure Poll where
  controller : ℕ
  task : Task

structure App where
  /-- `Auth.auth().currentUser` -/
  currentUser : Option Uid
  /-- The number of `MapController`s made so far, in all processes. -/
  created : ℕ
  /-- The `MapController`s of this process; the timer of each of them is running. -/
  timers : List ℕ
  /-- The partner annotation on the map of each `MapController`. -/
  mapView : ℕ → Option Pin
  /-- The number of polls started so far. -/
  started : ℕ
  /-- The polls in flight. -/
  polls : ℕ → Option Poll

/-- What happens on the device. -/
inductive Event
  | launch
  | auth (currentUser : Option Uid)
  | setupViewController
  | tick (controller : ℕ)
  | reply (poll : ℕ) (version : Option ℕ)

namespace App

/-- A new device. -/
def init : App where
  currentUser := none
  created := 0
  timers := []
  mapView _ := none
  started := 0
  polls _ := none

/-- `setupViewController`, with `MapController.viewDidLoad`. -/
def setupViewController (app : App) : App :=
  { app with timers := app.created :: app.timers, created := app.created + 1 }

/-- The end of the process: no timer fires, no callback is called any more. -/
def terminate (app : App) : App :=
  { app with timers := [], polls := fun _ => none }

/-- What a callback of a poll leaves: a pin on the map or nothing to do, the end of
the process on an exception, or the next request. -/
def proceed (app : App) (poll controller : ℕ) : Task → App
  | .done none => { app with polls := Function.update app.polls poll none }
  | .done (some pin) =>
      { app with
        polls := Function.update app.polls poll none
        mapView := Function.update app.mapView controller (some pin) }
  | .raised => app.terminate
  | .read ref completion =>
      { app with polls := Function.update app.polls poll (some ⟨controller, .read ref completion⟩) }
  | .write request next =>
      { app with polls := Function.update app.polls poll (some ⟨controller, .write request next⟩) }

/-- The reply to a read: the document in one version of the collection, or an error. -/
def answer (versions : ℕ → Collection) (version : Option ℕ) (ref : String) :
    Option DocumentSnapshot :=
  version.map fun m => ⟨versions m ref⟩

/-- One event. -/
def step (versions : ℕ → Collection) (app : App) : Event → Option App
  | .launch => some app.terminate.setupViewController
  -- signing in or out stops no timer and cancels no read
  | .auth currentUser => some { app with currentUser := currentUser }
  | .setupViewController => some app.setupViewController
  | .tick controller =>
      if controller ∈ app.timers then
        some ({ app with started := app.started + 1 }.proceed app.started controller
          (updatePin app.currentUser))
      else none
  | .reply poll version =>
      match app.polls poll with
      | some ⟨controller, .read ref completion⟩ =>
          some (app.proceed poll controller (completion (answer versions version ref)))
      | _ => none

/-! ## What a callback can do -/

section Proceed

variable {app : App} {poll controller : ℕ} {task : Task}

theorem mem_timers_of_proceed {c : ℕ} (h : c ∈ (app.proceed poll controller task).timers) :
    c ∈ app.timers := by
  unfold proceed at h
  split at h
  · exact h
  · exact h
  · exact absurd h List.not_mem_nil
  · exact h
  · exact h

variable (app poll controller task) in
/-- Only a callback that ends in a pin changes a map, and only its controller's. -/
theorem mapView_proceed (c : ℕ) :
    (app.proceed poll controller task).mapView c = app.mapView c ∨
      c = controller ∧ ∃ pin, task = .done (some pin) ∧
        (app.proceed poll controller task).mapView c = some pin := by
  unfold proceed
  split
  · exact Or.inl rfl
  · rename_i pin
    rcases eq_or_ne c controller with rfl | hc
    · exact Or.inr ⟨rfl, pin, rfl, Function.update_self ..⟩
    · exact Or.inl (Function.update_of_ne hc ..)
  · exact Or.inl rfl
  · exact Or.inl rfl
  · exact Or.inl rfl

/-- A poll in flight after a callback is the callback's own, or was in flight before. -/
theorem polls_of_proceed {id : ℕ} {p : Poll}
    (h : (app.proceed poll controller task).polls id = some p) :
    id = poll ∧ p = ⟨controller, task⟩ ∨ id ≠ poll ∧ app.polls id = some p := by
  rcases eq_or_ne id poll with rfl | hid
  · refine Or.inl ⟨rfl, ?_⟩
    unfold proceed at h
    -- a poll that is over leaves nothing in flight
    split at h
    · simp only [Function.update_self, reduceCtorEq] at h
    · simp only [Function.update_self, reduceCtorEq] at h
    · cases h
    · simp only [Function.update_self, Option.some_inj] at h
      exact h.symm
    · simp only [Function.update_self, Option.some_inj] at h
      exact h.symm
  · refine Or.inr ⟨hid, ?_⟩
    unfold proceed at h
    split at h
    · simpa only [Function.update_of_ne hid] using h
    · simpa only [Function.update_of_ne hid] using h
    · cases h
    · simpa only [Function.update_of_ne hid] using h
    · simpa only [Function.update_of_ne hid] using h

/-- A poll that is over is not in flight. -/
@[simp] theorem polls_proceed_done (pin : Option Pin) :
    (app.proceed poll controller (.done pin)).polls poll = none := by
  cases pin with
  | none => exact Function.update_self ..
  | some pin => exact Function.update_self ..

@[simp] theorem polls_proceed_raised (id : ℕ) :
    (app.proceed poll controller .raised).polls id = none := rfl

/-- A callback starts no poll. -/
@[simp] theorem started_proceed : (app.proceed poll controller task).started = app.started := by
  unfold proceed
  split
  · rfl
  · rfl
  · rfl
  · rfl
  · rfl

end Proceed

/-! ## What an event can do -/

theorem step_tick {versions : ℕ → Collection} {app app' : App} {controller : ℕ}
    (h : app.step versions (.tick controller) = some app') :
    controller ∈ app.timers ∧
      app' = { app with started := app.started + 1 }.proceed app.started controller
        (updatePin app.currentUser) := by
  rw [step] at h
  split at h
  · rename_i hmem
    exact ⟨hmem, (Option.some.inj h).symm⟩
  · cases h

theorem step_reply {versions : ℕ → Collection} {app app' : App} {poll : ℕ}
    {version : Option ℕ} (h : app.step versions (.reply poll version) = some app') :
    ∃ controller ref completion, app.polls poll = some ⟨controller, .read ref completion⟩ ∧
      app' = app.proceed poll controller (completion (answer versions version ref)) := by
  rw [step] at h
  split at h
  · rename_i controller ref completion hpoll
    exact ⟨controller, ref, completion, hpoll, (Option.some.inj h).symm⟩
  · cases h

end App

end CocoMap
