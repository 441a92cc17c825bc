import CocoMap.Session

/-!
# One polling timer for every sign-in

`viewDidLoad` of a `MapController` schedules a repeating timer and keeps it in the
property `timer`, but nothing ever calls `invalidate` on it.  The controllers that
`setupViewController` replaces therefore poll on, and it is called at the launch and
again at the end of every login and sign-up.

`timers_length_of_run` counts the timers of a run: one for the launch of the process,
and one for everybody who has signed in or up since.  So there is at most one in
exactly the runs in which nobody does.
-/

namespace CocoMap

open Transition

/-- How many timers run after an action, when `n` ran before it. -/
def Action.timersAfter (n : ℕ) : Action → ℕ
  | .launch => 1
  | action => n + action.entered.toList.length

theorem Action.timersAfter_of_ne {action : Action} (h : action ≠ .launch) (n : ℕ) :
    action.timersAfter n = n + action.entered.toList.length := by
  cases action with
  | launch => exact absurd rfl h
  | _ => rfl

namespace Device

/-- An action on the device, whatever becomes of its writes. -/
def perform (d : Device) (action : Action) : Option Device := (d.step action).map Prod.fst

/-- At most one polling timer is running. -/
def AtMostOneTimer (d : Device) : Prop := d.app.timers.length ≤ 1

/-- A running app polls. -/
def Polls (d : Device) : Prop := d.screen ≠ none → 0 < d.app.timers.length

section Step

variable {d d' : Device} {action : Action}

theorem perform_eq_some :
    d.perform action = some d' ↔ ∃ writes, d.step action = some (d', writes) := by
  simp [perform]

/-- Nothing but a launch happens while the app does not run. -/
theorem screen_ne_none_of_perform (h : d.perform action = some d') (hlaunch : action ≠ .launch) :
    d.screen ≠ none := by
  intro hscreen
  obtain ⟨writes, hstep⟩ := perform_eq_some.mp h
  cases action <;> simp_all [step]

/-- **The step lemma**: a launch leaves one timer, and whoever signs in adds one. -/
theorem timers_length_of_perform (h : d.perform action = some d') :
    d'.app.timers.length = action.timersAfter d.app.timers.length := by
  obtain ⟨writes, hstep⟩ := perform_eq_some.mp h
  rcases step_cases hstep with ⟨rfl, rfl, -⟩ | ⟨rfl, -, hlaunch, hentered⟩ |
    ⟨_, _, rfl | rfl, rfl, -⟩ | ⟨uid, rfl, rfl, -⟩ |
    ⟨form, createUser, uid, rfl, hcreated, rfl, -⟩ | ⟨rfl, -, rfl, -⟩ | ⟨_, rfl, -, -, rfl, -⟩
  · rfl
  · rw [Action.timersAfter_of_ne hlaunch, hentered]
    rfl
  · rfl
  · rfl
  · rfl
  · rw [Action.timersAfter_of_ne (by simp), Action.entered, hcreated]
    rfl
  · rfl
  · rfl

theorem Polls.perform (hpolls : d.Polls) (h : d.perform action = some d') : d'.Polls := by
  intro _
  rw [timers_length_of_perform h]
  by_cases hlaunch : action = .launch
  · rw [hlaunch]
    exact Nat.one_pos
  · rw [Action.timersAfter_of_ne hlaunch]
    exact Nat.add_pos_left (hpolls (screen_ne_none_of_perform h hlaunch)) _

/-- A single timer stays alone exactly if nobody signs in. -/
theorem atMostOneTimer_perform_iff (hpolls : d.Polls) (hone : d.AtMostOneTimer)
    (h : d.perform action = some d') : d'.AtMostOneTimer ↔ action.entered = none := by
  rw [AtMostOneTimer, timers_length_of_perform h]
  by_cases hlaunch : action = .launch
  · subst hlaunch
    exact ⟨fun _ => rfl, fun _ => le_rfl⟩
  · have hpos : 0 < d.app.timers.length := hpolls (screen_ne_none_of_perform h hlaunch)
    have hle : d.app.timers.length ≤ 1 := hone
    rw [Action.timersAfter_of_ne hlaunch]
    cases action.entered with
    | none => simpa using hle
    | some uid =>
        simp only [Option.toList_some, List.length_singleton, reduceCtorEq, iff_false]
        omega

end Step

/-! ## Runs -/

theorem polls_init : Polls init := fun hscreen => absurd rfl hscreen

/-- **The timers of a run**: those of the sign-ins since the last launch, and one. -/
theorem timers_length_of_run {actions : List Action} {d : Device}
    (hrun : run perform init actions = some d) :
    d.app.timers.length = actions.foldl Action.timersAfter 0 := by
  refine run_history (P := fun actions d => d.app.timers.length =
    actions.foldl Action.timersAfter 0) rfl ?_ hrun
  intro actions d action d' _ hlength hstep
  rw [timers_length_of_perform hstep, hlength, List.foldl_concat]

/-- **At most one timer is running in every state exactly if nobody signs in or up.** -/
theorem everywhere_atMostOneTimer_iff (actions : List Action) :
    Everywhere perform AtMostOneTimer init actions ↔
      EachStep perform (fun _ action => action.entered = none) init actions :=
  everywhere_iff_eachStep_of_invariant (J := Polls) (fun _ _ _ hpolls h => hpolls.perform h)
    (fun _ _ _ hpolls hone h => atMostOneTimer_perform_iff hpolls hone h) polls_init
    (Nat.zero_le 1)

/-- A new device, and the first login on it. -/
theorem not_everywhere_atMostOneTimer :
    ¬ Everywhere perform AtMostOneTimer init [.launch, .handleLogin (some alice)] := by
  intro h
  obtain ⟨d, hrun, htimers⟩ : ∃ d, run perform init [.launch, .handleLogin (some alice)] = some d ∧
      d.app.timers = [1, 0] := ⟨_, rfl, rfl⟩
  have hone : d.AtMostOneTimer := h.last hrun
  rw [AtMostOneTimer, htimers] at hone
  exact absurd hone (by decide)

end Device

end CocoMap
