import CocoMap.PinOrigin

/-!
# No pin is ever removed

The dissolve dialog promises that the former partner can no longer be seen.  But
none of the branches of `updatePin` that end without a partner, for a missing
document, an empty partner field or a missing partner document, takes the
annotation of an earlier poll off the map.

`Clears` is the promise for one `MapController`: once its polls have found no
partner, its map shows none.  `clears_iff` says when it is kept: only as long as no
poll of this controller has ever been answered with the document of a partner.
-/

namespace CocoMap

open Request Transition

/-- No poll of the controller `c` is in flight. -/
def Quiet (app : App) (c : ℕ) : Prop := ∀ id poll, app.polls id = some poll → poll.controller ≠ c

/-- The poll of `c` that was started last read the document of the user signed in
then, and found it missing or without a partner. -/
def LastPollUnpaired (versions : ℕ → Collection) (events : List Event) (c : ℕ) : Prop :=
  ∃ before between after app u m,
    events = before ++ .tick c :: between ++ .reply app.started (some m) :: after ∧
    .tick c ∉ between ∧ .tick c ∉ after ∧ (∀ version, .reply app.started version ∉ between) ∧
    run (App.step versions) App.init before = some app ∧ app.currentUser = some u ∧
    ∀ p, ¬ Names (versions m) u.string p

/-- The map of `c` carries no annotation once its last poll found no partner and no
poll is in flight. -/
def Clears (versions : ℕ → Collection) (events : List Event) (app : App) (c : ℕ) : Prop :=
  Quiet app c → LastPollUnpaired versions events c → app.mapView c = none

/-- The event answers a poll of `c` that has come to its second read with a document
that exists. -/
def ShowsPartner (versions : ℕ → Collection) (c : ℕ) (app : App) (e : Event) : Prop :=
  ∃ id m v, e = .reply id (some m) ∧ app.polls id = some ⟨c, .read v partnerCompletion⟩ ∧
    versions m v ≠ none

/-- The event answers the poll `id` of `c`, come to its second read, with the document
that `pin` shows. -/
def Places (versions : ℕ → Collection) (c : ℕ) (app : App) (e : Event) (id : ℕ) (pin : Pin) :
    Prop :=
  ∃ m v partnerData, e = .reply id (some m) ∧
    app.polls id = some ⟨c, .read v partnerCompletion⟩ ∧
    userOf (versions m) v = some partnerData ∧ pin = partnerPin partnerData

section Step

variable {versions : ℕ → Collection} {events : List Event} {app app' : App} {c : ℕ}

theorem showsPartner_iff {e : Event} :
    ShowsPartner versions c app e ↔ ∃ id pin, Places versions c app e id pin := by
  constructor
  · rintro ⟨id, m, v, he, hpoll, hdoc⟩
    obtain ⟨partnerData, hdata⟩ := Option.ne_none_iff_exists'.mp (userOf_eq_none.not.mpr hdoc)
    exact ⟨id, partnerPin partnerData, m, v, partnerData, he, hpoll, hdata, rfl⟩
  · rintro ⟨id, pin, m, v, partnerData, he, hpoll, hdata, -⟩
    refine ⟨id, m, v, he, hpoll, fun hnone => ?_⟩
    rw [userOf_eq_none.mpr hnone] at hdata
    cases hdata

theorem not_places_of_not_reply {e : Event} (he : ∀ id version, e ≠ .reply id version) (id : ℕ)
    (pin : Pin) : ¬ Places versions c app e id pin := by
  rintro ⟨m, _, _, rfl, -⟩
  exact he id (some m) rfl

/-- An event places one pin at most. -/
theorem Places.unique {e : Event} {id id' : ℕ} {pin pin' : Pin}
    (h : Places versions c app e id pin) (h' : Places versions c app e id' pin') :
    id' = id ∧ pin' = pin := by
  obtain ⟨m, v, partnerData, rfl, hpoll, hdata, rfl⟩ := h
  obtain ⟨m', v', partnerData', he, hpoll', hdata', rfl⟩ := h'
  cases he
  rw [hpoll, Option.some_inj, Poll.mk.injEq, Program.read.injEq] at hpoll'
  obtain ⟨-, rfl, -⟩ := hpoll'
  rw [hdata, Option.some_inj] at hdata'
  exact ⟨rfl, by rw [hdata']⟩

/-- A callback without a pin leaves every map as it was. -/
theorem mapView_proceed_of_ne_pin {id c' : ℕ} {task : Task} (h : ∀ pin, task ≠ .done (some pin)) :
    (app.proceed id c' task).mapView c = app.mapView c := by
  rcases App.mapView_proceed app id c' task c with hsame | ⟨-, pin, htask, -⟩
  · exact hsame
  · exact absurd htask (h pin)

theorem mapView_reply_cases (h : Traced versions events app) {id : ℕ} {version : Option ℕ}
    (hstep : app.step versions (.reply id version) = some app') :
    (app'.mapView c = app.mapView c ∧
        ∀ id' pin, ¬ Places versions c app (.reply id version) id' pin) ∨
      ∃ pin, app'.mapView c = some pin ∧ Places versions c app (.reply id version) id pin := by
  obtain ⟨c', ref, completion, hpoll, rfl⟩ := App.step_reply hstep
  obtain ⟨u, ⟨-, htask⟩ | ⟨v, -, htask⟩⟩ := h.polls id _ hpoll
  · -- a first reply shows nothing
    cases htask
    refine Or.inl ⟨mapView_proceed_of_ne_pin (userCompletion_ne_pin _), ?_⟩
    rintro _ _ ⟨m, v, _, he, hpoll', -⟩
    cases he
    rw [hpoll, Option.some_inj, Poll.mk.injEq, Program.read.injEq] at hpoll'
    exact userCompletion_ne_partnerCompletion hpoll'.2.2
  · cases htask
    by_cases hplaces : ∃ pin, Places versions c app (.reply id version) id pin
    · -- an existing document is shown on the map of the poll's controller
      obtain ⟨pin, hpin⟩ := hplaces
      refine Or.inr ⟨pin, ?_, hpin⟩
      obtain ⟨m, v, partnerData, he, hpoll', hdata, rfl⟩ := hpin
      cases he
      rw [hpoll, Option.some_inj, Poll.mk.injEq, Program.read.injEq] at hpoll'
      obtain ⟨rfl, rfl, -⟩ := hpoll'
      have htask : partnerCompletion (App.answer versions (some m) ref) =
          .done (some (partnerPin partnerData)) :=
        partnerCompletion_eq_pin.mpr ⟨partnerData, hdata, rfl⟩
      rw [htask]
      exact Function.update_self ..
    · -- an error or a missing document, or the map of another controller
      refine Or.inl ⟨?_, ?_⟩
      · rcases App.mapView_proceed app id c' (partnerCompletion (App.answer versions version ref)) c
          with hsame | ⟨rfl, pin, htask, -⟩
        · exact hsame
        · cases version with
          | none => cases htask
          | some m =>
              obtain ⟨partnerData, hdata, rfl⟩ := partnerCompletion_eq_pin.mp htask
              exact absurd ⟨_, m, ref, partnerData, rfl, hpoll, hdata, rfl⟩ hplaces
      · rintro id' pin ⟨m, v, partnerData, he, hshown⟩
        cases he
        exact hplaces ⟨pin, m, v, partnerData, rfl, hshown⟩

/-- **The step lemma**: an event that places no pin leaves the map alone. -/
theorem mapView_step_cases (h : Traced versions events app) {e : Event}
    (hstep : app.step versions e = some app') :
    (app'.mapView c = app.mapView c ∧ ∀ id pin, ¬ Places versions c app e id pin) ∨
      ∃ id pin, app'.mapView c = some pin ∧ Places versions c app e id pin := by
  cases e with
  | launch =>
      cases hstep
      exact Or.inl ⟨rfl, not_places_of_not_reply (by simp)⟩
  | auth currentUser =>
      cases hstep
      exact Or.inl ⟨rfl, not_places_of_not_reply (by simp)⟩
  | setupViewController =>
      cases hstep
      exact Or.inl ⟨rfl, not_places_of_not_reply (by simp)⟩
  | tick c' =>
      obtain ⟨-, rfl⟩ := App.step_tick hstep
      refine Or.inl ⟨?_, not_places_of_not_reply (by simp)⟩
      refine mapView_proceed_of_ne_pin fun pin htask => ?_
      cases huser : app.currentUser with
      | none => rw [huser] at htask; cases htask
      | some u => rw [huser, updatePin_some] at htask; cases htask
  | reply id version =>
      rcases mapView_reply_cases h hstep with hsame | ⟨pin, hpin, hplaces⟩
      · exact Or.inl hsame
      · exact Or.inr ⟨id, pin, hpin, hplaces⟩

/-- A map without an annotation gets one exactly when a partner's document is shown. -/
theorem mapView_step_iff (h : Traced versions events app) {e : Event}
    (hstep : app.step versions e = some app') :
    app'.mapView c = none ↔ app.mapView c = none ∧ ¬ ShowsPartner versions c app e := by
  rw [showsPartner_iff]
  rcases mapView_step_cases (c := c) h hstep with ⟨hsame, hno⟩ | ⟨id, pin, hpin, hplaces⟩
  · simp [hsame, hno]
  · rw [hpin]
    constructor
    · intro hnone
      cases hnone
    · rintro ⟨-, hno⟩
      exact absurd ⟨id, pin, hplaces⟩ hno

end Step

/-- A map is without an annotation exactly as long as no partner was ever shown. -/
theorem mapView_eq_none_iff {versions : ℕ → Collection} {events : List Event} {app : App}
    (hrun : run (App.step versions) App.init events = some app) (c : ℕ) :
    app.mapView c = none ↔
      EachStep (App.step versions) (fun app e => ¬ ShowsPartner versions c app e) App.init events := by
  refine run_history (P := fun events app => app.mapView c = none ↔ EachStep (App.step versions)
    (fun app e => ¬ ShowsPartner versions c app e) App.init events)
    ⟨fun _ => eachStep_nil, fun _ => rfl⟩ ?_ hrun
  intro events app e app' hrun hiff hstep
  rw [mapView_step_iff (traced_of_run hrun) hstep, hiff, eachStep_concat]
  constructor
  · rintro ⟨heach, hno⟩
    refine ⟨heach, fun t t' ht _ => ?_⟩
    rw [hrun, Option.some_inj] at ht
    exact ht ▸ hno
  · rintro ⟨heach, hlast⟩
    exact ⟨heach, hlast app app' hrun hstep⟩

/-- **A map is cleared after the end of a partnership exactly if it never showed a
partner.** -/
theorem clears_iff {versions : ℕ → Collection} {events : List Event} {app : App}
    (hrun : run (App.step versions) App.init events = some app) (c : ℕ) :
    Clears versions events app c ↔
      (Quiet app c → LastPollUnpaired versions events c →
        EachStep (App.step versions) (fun app e => ¬ ShowsPartner versions c app e)
          App.init events) := by
  unfold Clears
  rw [mapView_eq_none_iff hrun c]

/-- Before and after Alice has dissolved her partnership with Bob. -/
def dissolvedVersions : ℕ → Collection
  | 0 => pairedUsers
  | _ => (handlePartnerRemove (some alice)).run firestore pairedUsers

/-- One poll before, and one after. -/
def pollsAroundDissolving : List Event :=
  [.launch, .auth (some alice), .tick 0, .reply 0 (some 0), .reply 0 (some 0),
    .tick 0, .reply 1 (some 1)]

theorem clears_iff_pollsAroundDissolving :
    ∃ app, run (App.step dissolvedVersions) App.init pollsAroundDissolving = some app ∧
      (Clears dissolvedVersions pollsAroundDissolving app 0 ↔
        (Quiet app 0 → LastPollUnpaired dissolvedVersions pollsAroundDissolving 0 →
          EachStep (App.step dissolvedVersions)
            (fun app e => ¬ ShowsPartner dissolvedVersions 0 app e) App.init
            pollsAroundDissolving)) := by
  obtain ⟨app, hrun⟩ : ∃ app,
    run (App.step dissolvedVersions) App.init pollsAroundDissolving = some app := ⟨_, rfl⟩
  exact ⟨app, hrun, clears_iff hrun 0⟩

/-- Alice still sees where Bob was. -/
theorem not_clears_pollsAroundDissolving :
    ∃ app, run (App.step dissolvedVersions) App.init pollsAroundDissolving = some app ∧
      ¬ Clears dissolvedVersions pollsAroundDissolving app 0 := by
  obtain ⟨app, hrun, hpolls, pin, hpin⟩ : ∃ app,
      run (App.step dissolvedVersions) App.init pollsAroundDissolving = some app ∧
        (∀ id, app.polls id = none) ∧ ∃ pin, app.mapView 0 = some pin :=
    ⟨_, rfl, fun | 0 => rfl | 1 => rfl | _ + 2 => rfl, _, rfl⟩
  refine ⟨app, hrun, fun hclears => ?_⟩
  have hquiet : Quiet app 0 := by
    intro id poll hpoll
    rw [hpolls] at hpoll
    cases hpoll
  have hlast : LastPollUnpaired dissolvedVersions pollsAroundDissolving 0 := by
    refine ⟨[.launch, .auth (some alice), .tick 0, .reply 0 (some 0),
      .reply 0 (some 0)], [], [], _, alice, 1, rfl, List.not_mem_nil, List.not_mem_nil,
      fun _ => List.not_mem_nil, rfl, rfl, fun p hnames => ?_⟩
    have hempty : partnerOf (dissolvedVersions 1) "alice-7" = some "" := rfl
    exact hnames.2 (Option.some.inj (hnames.1.symm.trans hempty))
  rw [hclears hquiet hlast] at hpin
  cases hpin

end CocoMap
