import CocoMap.Lib.Transition
import CocoMap.Polling

/-!
# Where a pin comes from

Polls overlap, the signed-in user can change between the two reads of a poll, and
controllers of earlier sessions poll on.  Still every pin can be traced back
through the history of the device, the list of its events so far:

* `MadeIn` — a `MapController` was made;
* `StartedIn` — then a poll of it was started, with a user signed in;
* `AnsweredIn` — then the poll's first read returned a version of that user's
  document, which names a partner;
* `ShownIn` — then its second read returned a version of the partner's document,
  and the pin shows what this one document says.

Each predicate speaks of the events before the one it adds, so the order of the
events is part of the statement.  `pin_origin` is the invariant `Traced` at the
end of a run.
-/

namespace CocoMap

open Request Transition

/-- The controller `c` was made, at a launch or by a later `setupViewController`. -/
def MadeIn (versions : ℕ → Collection) (events : List Event) (c : ℕ) : Prop :=
  ∃ before after app, (events = before ++ .launch :: after ∨
      events = before ++ .setupViewController :: after) ∧
    run (App.step versions) App.init before = some app ∧ app.created = c

/-- The poll `id` was started by the timer of the controller `c`, made before, while
`u` was signed in. -/
def StartedIn (versions : ℕ → Collection) (events : List Event) (id c : ℕ) (u : Uid) : Prop :=
  ∃ before after app, events = before ++ .tick c :: after ∧
    run (App.step versions) App.init before = some app ∧ app.started = id ∧
    app.currentUser = some u ∧ MadeIn versions before c

/-- The first read of the poll `id` returned a version of the document of `u` whose
decoded partner names the document `v`. -/
def AnsweredIn (versions : ℕ → Collection) (events : List Event) (id c : ℕ) (u : Uid)
    (v : String) : Prop :=
  ∃ before after m p, events = before ++ .reply id (some m) :: after ∧
    StartedIn versions before id c u ∧ Names (versions m) u.string p ∧ document p = some v

/-- The second read of a poll of `c` returned a version of the document `v`, and
`pin` shows this version of it. -/
def ShownIn (versions : ℕ → Collection) (events : List Event) (c : ℕ) (pin : Pin) : Prop :=
  ∃ before after id m u v partnerData, events = before ++ .reply id (some m) :: after ∧
    AnsweredIn versions before id c u v ∧ userOf (versions m) v = some partnerData ∧
    pin = partnerPin partnerData

section History

variable {versions : ℕ → Collection} {events : List Event} (e : Event) {id c : ℕ} {u : Uid}
  {v : String} {pin : Pin}

theorem MadeIn.concat (h : MadeIn versions events c) : MadeIn versions (events ++ [e]) c := by
  obtain ⟨before, after, app, hevents, hrun⟩ := h
  refine ⟨before, after ++ [e], app, ?_, hrun⟩
  rcases hevents with rfl | rfl
  · exact Or.inl (by simp)
  · exact Or.inr (by simp)

theorem StartedIn.concat (h : StartedIn versions events id c u) :
    StartedIn versions (events ++ [e]) id c u := by
  obtain ⟨before, after, app, rfl, hstarted⟩ := h
  exact ⟨before, after ++ [e], app, by simp, hstarted⟩

theorem AnsweredIn.concat (h : AnsweredIn versions events id c u v) :
    AnsweredIn versions (events ++ [e]) id c u v := by
  obtain ⟨before, after, m, p, rfl, hanswered⟩ := h
  exact ⟨before, after ++ [e], m, p, by simp, hanswered⟩

theorem ShownIn.concat (h : ShownIn versions events c pin) :
    ShownIn versions (events ++ [e]) c pin := by
  obtain ⟨before, after, id, m, u, v, partnerData, rfl, hshown⟩ := h
  exact ⟨before, after ++ [e], id, m, u, v, partnerData, by simp, hshown⟩

end History

/-- The history of a poll in flight: it awaits its first reply, or its second. -/
def PollTraced (versions : ℕ → Collection) (events : List Event) (id : ℕ) (poll : Poll) : Prop :=
  ∃ u, StartedIn versions events id poll.controller u ∧
      poll.task = .read u.string userCompletion ∨
    ∃ v, AnsweredIn versions events id poll.controller u v ∧
      poll.task = .read v partnerCompletion

/-- Everything on the device has its history. -/
structure Traced (versions : ℕ → Collection) (events : List Event) (app : App) : Prop where
  timers : ∀ c ∈ app.timers, MadeIn versions events c
  polls : ∀ id poll, app.polls id = some poll → PollTraced versions events id poll
  pins : ∀ c pin, app.mapView c = some pin → ShownIn versions events c pin

theorem PollTraced.concat {versions : ℕ → Collection} {events : List Event} {id : ℕ} {poll : Poll}
    (e : Event) (h : PollTraced versions events id poll) :
    PollTraced versions (events ++ [e]) id poll := by
  obtain ⟨u, ⟨hstarted, htask⟩ | ⟨v, hanswered, htask⟩⟩ := h
  · exact ⟨u, Or.inl ⟨hstarted.concat e, htask⟩⟩
  · exact ⟨u, Or.inr ⟨v, hanswered.concat e, htask⟩⟩

theorem traced_init (versions : ℕ → Collection) : Traced versions [] App.init where
  timers c hc := absurd hc List.not_mem_nil
  polls id poll hpoll := by cases hpoll
  pins c pin hpin := by cases hpin

section Step

variable {versions : ℕ → Collection} {events : List Event} {app app' : App}

/-- `setupViewController` adds a controller with the history that made it. -/
theorem Traced.setupViewController (hrun : run (App.step versions) App.init events = some app)
    {e : Event} (he : e = .launch ∨ e = .setupViewController) {app₀ : App}
    (hcreated : app₀.created = app.created)
    (h : Traced versions (events ++ [e]) app₀) :
    Traced versions (events ++ [e]) app₀.setupViewController where
  timers c hc := by
    rcases List.mem_cons.mp hc with rfl | hc
    · refine ⟨events, [], app, ?_, hrun, hcreated.symm⟩
      rcases he with rfl | rfl
      · exact Or.inl rfl
      · exact Or.inr rfl
    · exact h.timers c hc
  polls := h.polls
  pins := h.pins

theorem Traced.concat (e : Event) (h : Traced versions events app) :
    Traced versions (events ++ [e]) app where
  timers c hc := (h.timers c hc).concat e
  polls id poll hpoll := (h.polls id poll hpoll).concat e
  pins c pin hpin := (h.pins c pin hpin).concat e

/-- A callback keeps the histories, if what it leaves has one. -/
theorem Traced.proceed {id c : ℕ} {task : Task} (h : Traced versions events app)
    (hpoll : (app.proceed id c task).polls id = some ⟨c, task⟩ →
      PollTraced versions events id ⟨c, task⟩)
    (hpin : ∀ pin, task = .done (some pin) → ShownIn versions events c pin) :
    Traced versions events (app.proceed id c task) where
  timers c hc := h.timers c (App.mem_timers_of_proceed hc)
  polls id' poll hpolls := by
    rcases App.polls_of_proceed hpolls with ⟨rfl, rfl⟩ | ⟨-, hold⟩
    · exact hpoll hpolls
    · exact h.polls id' poll hold
  pins c' pin hmap := by
    rcases App.mapView_proceed app id c task c' with hsame | ⟨rfl, pin', htask, hnew⟩
    · exact h.pins c' pin (hsame ▸ hmap)
    · rw [hnew, Option.some_inj] at hmap
      exact hpin pin (hmap ▸ htask)

theorem traced_tick (hrun : run (App.step versions) App.init events = some app)
    (h : Traced versions events app) {c : ℕ}
    (hstep : app.step versions (.tick c) = some app') :
    Traced versions (events ++ [.tick c]) app' := by
  obtain ⟨hc, rfl⟩ := App.step_tick hstep
  have hcount : Traced versions (events ++ [.tick c]) { app with started := app.started + 1 } :=
    { h.concat (.tick c) with }
  refine hcount.proceed (fun hpoll => ?_) fun pin htask => ?_
  · cases huser : app.currentUser with
    | none =>
        rw [huser, updatePin, App.polls_proceed_done] at hpoll
        cases hpoll
    | some u =>
        refine ⟨u, Or.inl ⟨?_, updatePin_some u⟩⟩
        exact ⟨events, [], app, rfl, hrun, rfl, huser, h.timers c hc⟩
  · cases huser : app.currentUser with
    | none => rw [huser] at htask; cases htask
    | some u => rw [huser, updatePin_some] at htask; cases htask

theorem traced_reply (h : Traced versions events app) {id : ℕ} {version : Option ℕ}
    (hstep : app.step versions (.reply id version) = some app') :
    Traced versions (events ++ [.reply id version]) app' := by
  obtain ⟨c, ref, completion, hpoll, rfl⟩ := App.step_reply hstep
  obtain ⟨u, ⟨hstarted, htask⟩ | ⟨v, hanswered, htask⟩⟩ := h.polls id _ hpoll
  · -- the first reply: the poll is over, or goes on to the partner's document
    cases htask
    refine (h.concat _).proceed (fun hnext => ?_) fun pin hpin => ?_
    · rcases userCompletion_cases (App.answer versions version u.string) with
        hdone | hraised | ⟨v, hread⟩
      · rw [hdone, App.polls_proceed_done] at hnext
        cases hnext
      · rw [hraised, App.polls_proceed_raised] at hnext
        cases hnext
      · refine ⟨u, Or.inr ⟨v, ?_, hread⟩⟩
        cases version with
        | none => cases hread
        | some m =>
            obtain ⟨-, p, hnames, hdoc⟩ := userCompletion_eq_read.mp hread
            exact ⟨events, [], m, p, rfl, hstarted, hnames, hdoc⟩
    · exact absurd hpin (userCompletion_ne_pin _ pin)
  · -- the second reply: the poll is over, with a pin if the document exists
    cases htask
    refine (h.concat _).proceed (fun hnext => ?_) fun pin hpin => ?_
    · rw [partnerCompletion, App.polls_proceed_done] at hnext
      cases hnext
    · cases version with
      | none => cases hpin
      | some m =>
          obtain ⟨partnerData, hdata, rfl⟩ := partnerCompletion_eq_pin.mp hpin
          exact ⟨events, [], id, m, u, ref, partnerData, rfl, hanswered, hdata, rfl⟩

/-- **The step lemma.** -/
theorem traced_step (hrun : run (App.step versions) App.init events = some app)
    (h : Traced versions events app) {e : Event} (hstep : app.step versions e = some app') :
    Traced versions (events ++ [e]) app' := by
  cases e with
  | launch =>
      -- timers and polls end with the old process, the maps keep their history
      cases hstep
      refine Traced.setupViewController hrun (Or.inl rfl) rfl
        { h.concat .launch with timers := ?_, polls := ?_ }
      · exact fun c hc => absurd hc List.not_mem_nil
      · exact fun id poll hpoll => by cases hpoll
  | auth currentUser =>
      cases hstep
      exact { h.concat _ with }
  | setupViewController =>
      cases hstep
      exact Traced.setupViewController hrun (Or.inr rfl) rfl (h.concat _)
  | tick c => exact traced_tick hrun h hstep
  | reply id version => exact traced_reply h hstep

end Step

theorem traced_of_run {versions : ℕ → Collection} {events : List Event} {app : App}
    (hrun : run (App.step versions) App.init events = some app) : Traced versions events app :=
  run_history (P := Traced versions) (traced_init versions)
    (fun _ _ _ _ hrun h hstep => traced_step hrun h hstep) hrun

/-- **Every pin has a legitimate and consistent origin.** -/
theorem pin_origin {versions : ℕ → Collection} {events : List Event} {app : App}
    (hrun : run (App.step versions) App.init events = some app) {c : ℕ} {pin : Pin}
    (hpin : app.mapView c = some pin) : ShownIn versions events c pin :=
  (traced_of_run hrun).pins c pin hpin

/-- Two controllers poll for Alice, who signs out before the replies arrive. -/
def pollsOfTwoControllers : List Event :=
  [.launch, .auth (some alice), .setupViewController, .tick 1, .tick 0, .auth none,
    .reply 1 (some 4), .reply 0 none, .reply 1 (some 2)]

theorem pin_origin_pollsOfTwoControllers :
    ∃ app pin, run (App.step fun _ => pairedUsers) App.init pollsOfTwoControllers = some app ∧
      app.mapView 0 = some pin ∧ ShownIn (fun _ => pairedUsers) pollsOfTwoControllers 0 pin := by
  obtain ⟨app, hrun, pin, hpin⟩ : ∃ app,
      run (App.step fun _ => pairedUsers) App.init pollsOfTwoControllers = some app ∧
        ∃ pin, app.mapView 0 = some pin := ⟨_, rfl, _, rfl⟩
  exact ⟨app, pin, hrun, hpin, pin_origin hrun hpin⟩

end CocoMap
