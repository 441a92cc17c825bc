import CocoMap.Lib.History
import CocoMap.PinRemoval

/-!
# Late replies

A poll starts every half second whether or not the one before it is over, and each
sets the pin when its second reply arrives.  Nothing orders the replies: a poll has no
number in the code, and no callback compares its own with that of the pin on the map.

So the map shows what the poll *answered* last has found, which need not be the poll
*started* last (`lateReply`).  `mapView_iff_answeredLast` is the rule for registers
with the map of a controller as the register; as long as the second replies come in the
order in which the polls were started, it makes no difference.
-/

namespace CocoMap

open Request Transition

/-- The event number `n` answers the poll `id` of `c`, come to its second read, with the
document that `pin` shows. -/
def PlacedAt (versions : ℕ → Collection) (events : List Event) (c n id : ℕ) (pin : Pin) : Prop :=
  ∃ app e, StepAt (App.step versions) App.init events n app e ∧ Places versions c app e id pin

/-- `pin` shows what the poll of `c` answered last with an existing document has found. -/
def AnsweredLast (versions : ℕ → Collection) (events : List Event) (c : ℕ) (pin : Pin) : Prop :=
  ∃ n id, PlacedAt versions events c n id pin ∧
    ∀ n' id' pin', PlacedAt versions events c n' id' pin' → n' ≤ n

/-- `pin` shows what the poll of `c` started last among those answered with an existing
document has found. -/
def StartedLast (versions : ℕ → Collection) (events : List Event) (c : ℕ) (pin : Pin) : Prop :=
  ∃ n id, PlacedAt versions events c n id pin ∧
    ∀ n' id' pin', PlacedAt versions events c n' id' pin' → id' ≤ id

/-- The replies with existing documents come in the order in which their polls started. -/
def InOrder (versions : ℕ → Collection) (events : List Event) (c : ℕ) : Prop :=
  ∀ n id pin n' id' pin', PlacedAt versions events c n id pin →
    PlacedAt versions events c n' id' pin' → id < id' → n < n'

/-- When no poll of `c` is in flight, its map shows what the poll started last among those
that reached a partner's document has found. -/
def ShowsNewest (versions : ℕ → Collection) (events : List Event) (app : App) (c : ℕ) : Prop :=
  Quiet app c → ∀ pin, StartedLast versions events c pin →
    ∃ shown, app.mapView c = some shown ∧ shown.coordinate = pin.coordinate ∧
      shown.title = pin.title

variable {versions : ℕ → Collection} {events : List Event} {app app' : App} {c : ℕ}

/-! ## The map is a register -/

theorem answeredLast_iff_lastSet {pin : Pin} :
    AnsweredLast versions events c pin ↔
      LastSet (App.step versions) App.init (fun app e pin => ∃ id, Places versions c app e id pin)
        events pin := by
  constructor
  · rintro ⟨n, id, ⟨app, e, hat, hplaces⟩, hlast⟩
    refine ⟨n, app, e, hat, ⟨id, hplaces⟩, ?_⟩
    rintro n' app' e' pin' hat' ⟨id', hplaces'⟩
    exact hlast n' id' pin' ⟨app', e', hat', hplaces'⟩
  · rintro ⟨n, app, e, hat, ⟨id, hplaces⟩, hlast⟩
    refine ⟨n, id, ⟨app, e, hat, hplaces⟩, ?_⟩
    rintro n' id' pin' ⟨app', e', hat', hplaces'⟩
    exact hlast n' app' e' pin' hat' ⟨id', hplaces'⟩

theorem mapView_iff_answeredLast (hrun : run (App.step versions) App.init events = some app)
    (c : ℕ) (pin : Pin) : app.mapView c = some pin ↔ AnsweredLast versions events c pin := by
  rw [answeredLast_iff_lastSet]
  refine register_eq_some_iff (r := fun app => app.mapView c) rfl ?_ hrun pin
  intro events app e app' hrun hstep
  rcases mapView_step_cases (c := c) (traced_of_run hrun) hstep with
    ⟨hsame, hno⟩ | ⟨id, pin, hpin, hplaces⟩
  · exact Or.inl ⟨hsame, fun pin ⟨id, hplaces⟩ => hno id pin hplaces⟩
  · exact Or.inr ⟨pin, hpin, ⟨id, hplaces⟩, fun pin' ⟨id', h'⟩ => (hplaces.unique h').2⟩

/-! ## A poll is answered once -/

section Step

variable {e : Event} (hstep : app.step versions e = some app')
include hstep

theorem started_le_of_step : app.started ≤ app'.started := by
  cases e with
  | launch => cases hstep; exact le_rfl
  | auth currentUser => cases hstep; exact le_rfl
  | setupViewController => cases hstep; exact le_rfl
  | tick c =>
      obtain ⟨-, rfl⟩ := App.step_tick hstep
      rw [App.started_proceed]
      exact Nat.le_succ _
  | reply id version =>
      obtain ⟨_, _, _, -, rfl⟩ := App.step_reply hstep
      rw [App.started_proceed]

/-- A poll in flight after an event was in flight before, or was started by it. -/
theorem inFlight_of_step {id : ℕ} {poll : Poll} (hpoll : app'.polls id = some poll) :
    (∃ poll', app.polls id = some poll') ∨ id = app.started ∧ id < app'.started := by
  cases e with
  | launch => cases hstep; cases hpoll
  | auth currentUser => cases hstep; exact Or.inl ⟨poll, hpoll⟩
  | setupViewController => cases hstep; exact Or.inl ⟨poll, hpoll⟩
  | tick c =>
      obtain ⟨-, rfl⟩ := App.step_tick hstep
      rcases App.polls_of_proceed hpoll with ⟨rfl, -⟩ | ⟨-, hold⟩
      · rw [App.started_proceed]
        exact Or.inr ⟨rfl, Nat.lt_succ_self _⟩
      · exact Or.inl ⟨poll, hold⟩
  | reply id' version =>
      obtain ⟨c', ref, completion, hread, rfl⟩ := App.step_reply hstep
      rcases App.polls_of_proceed hpoll with ⟨rfl, -⟩ | ⟨-, hold⟩
      · exact Or.inl ⟨_, hread⟩
      · exact Or.inl ⟨poll, hold⟩

/-- A poll that places its pin is over. -/
theorem Places.ended {id : ℕ} {pin : Pin} (h : Places versions c app e id pin) :
    app'.polls id = none := by
  obtain ⟨m, v, partnerData, rfl, hpoll, -, -⟩ := h
  obtain ⟨c', ref, completion, hread, rfl⟩ := App.step_reply hstep
  rw [hpoll, Option.some_inj, Poll.mk.injEq, Program.read.injEq] at hread
  obtain ⟨rfl, rfl, rfl⟩ := hread
  rw [partnerCompletion, App.polls_proceed_done]

end Step

theorem placedAt_concat (hrun : run (App.step versions) App.init events = some app) {e : Event}
    {n id : ℕ} {pin : Pin} :
    PlacedAt versions (events ++ [e]) c n id pin ↔
      PlacedAt versions events c n id pin ∨
        (n = events.length ∧ Places versions c app e id pin) := by
  constructor
  · rintro ⟨u, e', hat, hplaces⟩
    rcases (stepAt_concat hrun).mp hat with hold | ⟨rfl, rfl, rfl⟩
    · exact Or.inl ⟨u, e', hold, hplaces⟩
    · exact Or.inr ⟨rfl, hplaces⟩
  · rintro (⟨u, e', hold, hplaces⟩ | ⟨rfl, hplaces⟩)
    · exact ⟨u, e', (stepAt_concat hrun).mpr (Or.inl hold), hplaces⟩
    · exact ⟨app, e, (stepAt_concat hrun).mpr (Or.inr ⟨rfl, rfl, rfl⟩), hplaces⟩

/-- Polls in flight have been started, and those that have placed a pin are over. -/
structure Answered (versions : ℕ → Collection) (events : List Event) (app : App) : Prop where
  inFlight : ∀ id poll, app.polls id = some poll → id < app.started
  ended : ∀ c n id pin, PlacedAt versions events c n id pin → id < app.started ∧ app.polls id = none
  once : ∀ c n id pin n' pin', PlacedAt versions events c n id pin →
    PlacedAt versions events c n' id pin' → n' = n

theorem answered_init (versions : ℕ → Collection) : Answered versions [] App.init where
  inFlight id poll hpoll := by cases hpoll
  ended c n id pin := by
    rintro ⟨_, _, hat, -⟩
    exact absurd hat not_stepAt_nil
  once c n id pin n' pin' := by
    rintro ⟨_, _, hat, -⟩
    exact absurd hat not_stepAt_nil

/-- **The step lemma.** -/
theorem Answered.step (h : Answered versions events app)
    (hrun : run (App.step versions) App.init events = some app) {e : Event}
    (hstep : app.step versions e = some app') : Answered versions (events ++ [e]) app' where
  inFlight id poll hpoll := by
    rcases inFlight_of_step hstep hpoll with ⟨poll', hbefore⟩ | ⟨-, hlt⟩
    · exact (h.inFlight id poll' hbefore).trans_le (started_le_of_step hstep)
    · exact hlt
  ended c n id pin hplaced := by
    rcases (placedAt_concat hrun).mp hplaced with hold | ⟨-, hplaces⟩
    · obtain ⟨hlt, hnone⟩ := h.ended c n id pin hold
      refine ⟨hlt.trans_le (started_le_of_step hstep), ?_⟩
      -- ids are not used again
      by_contra hsome
      obtain ⟨poll, hpoll⟩ := Option.ne_none_iff_exists'.mp hsome
      rcases inFlight_of_step hstep hpoll with ⟨poll', hbefore⟩ | ⟨heq, -⟩
      · rw [hnone] at hbefore
        cases hbefore
      · omega
    · refine ⟨?_, hplaces.ended hstep⟩
      obtain ⟨_, _, _, -, hpoll, -⟩ := hplaces
      exact (h.inFlight id _ hpoll).trans_le (started_le_of_step hstep)
  once c n id pin n' pin' hplaced hplaced' := by
    have hnever : ∀ m pin₁ pin₂, PlacedAt versions events c m id pin₁ →
        ¬ Places versions c app e id pin₂ := by
      rintro m pin₁ pin₂ hold ⟨_, _, _, -, hpoll, -⟩
      rw [(h.ended c m id pin₁ hold).2] at hpoll
      cases hpoll
    rcases (placedAt_concat hrun).mp hplaced with hold | ⟨rfl, hnew⟩
    · rcases (placedAt_concat hrun).mp hplaced' with hold' | ⟨-, hnew'⟩
      · exact h.once c n id pin n' pin' hold hold'
      · exact absurd hnew' (hnever n pin pin' hold)
    · rcases (placedAt_concat hrun).mp hplaced' with hold' | ⟨rfl, -⟩
      · exact absurd hnew (hnever n' pin' pin hold')
      · rfl

theorem answered_of_run (hrun : run (App.step versions) App.init events = some app) :
    Answered versions events app :=
  run_history (P := Answered versions) (answered_init versions)
    (fun _ _ _ _ hrun h hstep => h.step hrun hstep) hrun

/-! ## The order of the replies -/

/-- As long as the replies come in order, the last poll to be answered is the last one
that was started. -/
theorem answeredLast_iff_startedLast (hrun : run (App.step versions) App.init events = some app)
    (hinOrder : InOrder versions events c) {pin : Pin} :
    AnsweredLast versions events c pin ↔ StartedLast versions events c pin := by
  constructor
  · rintro ⟨n, id, hplaced, hlast⟩
    refine ⟨n, id, hplaced, fun n' id' pin' hplaced' => ?_⟩
    by_contra! hlt
    have hn : n < n' := hinOrder n id pin n' id' pin' hplaced hplaced' hlt
    have hn' : n' ≤ n := hlast n' id' pin' hplaced'
    omega
  · rintro ⟨n, id, hplaced, hlast⟩
    refine ⟨n, id, hplaced, fun n' id' pin' hplaced' => ?_⟩
    rcases (hlast n' id' pin' hplaced').lt_or_eq with hlt | rfl
    · exact (hinOrder n' id' pin' n id pin hplaced' hplaced hlt).le
    · exact ((answered_of_run hrun).once c n id' pin n' pin' hplaced hplaced').le

/-- **The pin is that of the poll answered last**, and of the poll started last as long
as the replies come in the order of the polls. -/
theorem pin_of_last_reply (hrun : run (App.step versions) App.init events = some app) (c : ℕ) :
    (∀ pin, app.mapView c = some pin ↔ AnsweredLast versions events c pin) ∧
      (InOrder versions events c →
        ∀ pin, app.mapView c = some pin ↔ StartedLast versions events c pin) := by
  refine ⟨mapView_iff_answeredLast hrun c, fun hinOrder pin => ?_⟩
  rw [mapView_iff_answeredLast hrun c, answeredLast_iff_startedLast hrun hinOrder]

/-- Before and after Bob has moved. -/
def movingVersions : ℕ → Collection
  | 0 => pairedUsers
  | _ => (setLocation "bobby-7" 0#64 1#64).perform pairedUsers

/-- Two polls overlap, and the second one overtakes the first. -/
def overtaking : List Event :=
  [.launch, .auth (some alice), .tick 0, .tick 0, .reply 0 (some 0), .reply 1 (some 1),
    .reply 1 (some 1), .reply 0 (some 0)]

theorem pin_of_last_reply_overtaking :
    ∃ app, run (App.step movingVersions) App.init overtaking = some app ∧
      (∀ pin, app.mapView 0 = some pin ↔ AnsweredLast movingVersions overtaking 0 pin) ∧
      (InOrder movingVersions overtaking 0 →
        ∀ pin, app.mapView 0 = some pin ↔ StartedLast movingVersions overtaking 0 pin) := by
  obtain ⟨app, hrun⟩ : ∃ app, run (App.step movingVersions) App.init overtaking = some app :=
    ⟨_, rfl⟩
  exact ⟨app, hrun, pin_of_last_reply hrun 0⟩

/-- Alice sees where Bob was, although a later poll has seen him move. -/
theorem not_showsNewest_overtaking :
    ∃ app, run (App.step movingVersions) App.init overtaking = some app ∧
      ¬ ShowsNewest movingVersions overtaking app 0 := by
  obtain ⟨app, hrun, hpolls, hstarted, hmap⟩ : ∃ app,
      run (App.step movingVersions) App.init overtaking = some app ∧
        (∀ id, app.polls id = none) ∧ app.started = 2 ∧
        app.mapView 0 = some ⟨⟨tokyoLatitude, tokyoLongitude⟩, "Bob", "ここにいるよ！"⟩ :=
    ⟨_, rfl, fun | 0 => rfl | 1 => rfl | _ + 2 => rfl, rfl, rfl⟩
  refine ⟨app, hrun, fun hshows => ?_⟩
  have hquiet : Quiet app 0 := by
    intro id poll hpoll
    rw [hpolls] at hpoll
    cases hpoll
  have hplaced : PlacedAt movingVersions overtaking 0 6 1
      ⟨⟨0#64, 1#64⟩, "Bob", "ここにいるよ！"⟩ :=
    ⟨_, .reply 1 (some 1), ⟨[.launch, .auth (some alice), .tick 0, .tick 0, .reply 0 (some 0),
      .reply 1 (some 1)], [.reply 0 (some 0)], rfl, rfl, rfl⟩, 1, "bobby-7", _, rfl, rfl, rfl, rfl⟩
  have hlast : StartedLast movingVersions overtaking 0 ⟨⟨0#64, 1#64⟩, "Bob", "ここにいるよ！"⟩ := by
    refine ⟨6, 1, hplaced, fun n' id' pin' hplaced' => ?_⟩
    have hlt : id' < app.started := ((answered_of_run hrun).ended 0 n' id' pin' hplaced').1
    omega
  obtain ⟨shown, hshown, hcoordinate, -⟩ := hshows hquiet _ hlast
  rw [hmap, Option.some_inj] at hshown
  subst hshown
  exact absurd hcoordinate (by decide)

end CocoMap
