import Mathlib.Data.List.Induction
import Mathlib.Data.List.Infix

/-!
# Partial transition functions and their finite runs

A deterministic system is a partial function `step : σ → α → Option σ`: in state
`s` the label `a` either leads to one successor or is not enabled.  A run is a
list of labels, and `run step s as` is the state it ends in, if every label was
enabled in turn.

Two predicates say what holds along a run:

* `Everywhere step Φ s as` — `Φ` holds in every state the run passes through;
* `EachStep step Ψ s as` — every enabled step of the run meets `Ψ`, a condition
  on the state before the step and on its label.

The rules below are the ones a development about runs needs: an invariant is
preserved by a run (`run_invariant`), an invariant that a step keeps exactly
when it meets `Ψ` holds along exactly the runs whose steps all meet `Ψ`
(`everywhere_iff_eachStep`), and a step-by-step simulation extends to runs
(`run_simulation`, `run_lockstep`).
-/

namespace Transition

universe u v w z

variable {σ : Type u} {α : Type v} {τ : Type w} {β : Type z}

/-- The state a list of labels leads to, if each label is enabled in turn. -/
def run (step : σ → α → Option σ) : σ → List α → Option σ
  | s, [] => some s
  | s, a :: as => (step s a).bind fun s' => run step s' as

@[simp] theorem run_nil (step : σ → α → Option σ) (s : σ) :
    run step s [] = some s := rfl

theorem run_cons (step : σ → α → Option σ) (s : σ) (a : α) (as : List α) :
    run step s (a :: as) = (step s a).bind fun s' => run step s' as := rfl

theorem run_cons_eq_some {step : σ → α → Option σ} {s t : σ} {a : α} {as : List α} :
    run step s (a :: as) = some t ↔
      ∃ s', step s a = some s' ∧ run step s' as = some t := by
  rw [run_cons, Option.bind_eq_some_iff]

theorem run_append (step : σ → α → Option σ) (s : σ) (as bs : List α) :
    run step s (as ++ bs) = (run step s as).bind fun s' => run step s' bs := by
  induction as generalizing s with
  | nil => rfl
  | cons a as ih =>
      rw [List.cons_append, run_cons, run_cons, Option.bind_assoc]
      exact Option.bind_congr fun s' _ => ih s'

theorem run_append_eq_some {step : σ → α → Option σ} {s t : σ} {as bs : List α} :
    run step s (as ++ bs) = some t ↔
      ∃ s', run step s as = some s' ∧ run step s' bs = some t := by
  rw [run_append, Option.bind_eq_some_iff]

/-- The last step of a run, singled out. -/
theorem run_concat_eq_some {step : σ → α → Option σ} {s t : σ} {as : List α} {a : α} :
    run step s (as ++ [a]) = some t ↔
      ∃ s', run step s as = some s' ∧ step s' a = some t := by
  rw [run_append_eq_some]
  simp [run_cons]

/-! ## Invariants -/

/-- **The invariant rule.**  What every step of a run preserves, the run preserves. -/
theorem run_invariant {step : σ → α → Option σ} {I : σ → Prop} {s t : σ} {as : List α}
    (preserved : ∀ s, ∀ a ∈ as, ∀ s', I s → step s a = some s' → I s')
    (start : I s) (h : run step s as = some t) : I t := by
  induction as generalizing s with
  | nil => cases h; exact start
  | cons a as ih =>
      obtain ⟨s', hstep, hrest⟩ := run_cons_eq_some.mp h
      have hs' : I s' := preserved s a List.mem_cons_self s' start hstep
      exact ih (fun s b hb => preserved s b (List.mem_cons_of_mem a hb)) hs' hrest

/-- **The history rule.**  An invariant may also speak of the steps taken so far. -/
theorem run_history {step : σ → α → Option σ} {s : σ} {P : List α → σ → Prop} (start : P [] s)
    (preserved : ∀ as t a t', run step s as = some t → P as t → step t a = some t' →
      P (as ++ [a]) t')
    {as : List α} {t : σ} (h : run step s as = some t) : P as t := by
  induction as using List.reverseRecOn generalizing t with
  | nil => cases h; exact start
  | append_singleton as a ih =>
      obtain ⟨t', hrun, hstep⟩ := run_concat_eq_some.mp h
      exact preserved as t' a t hrun (ih hrun) hstep

/-- `Φ` holds in every state a run passes through, its two ends included. -/
def Everywhere (step : σ → α → Option σ) (Φ : σ → Prop) (s : σ) (as : List α) : Prop :=
  ∀ pre t, pre <+: as → run step s pre = some t → Φ t

/-- Every enabled step of a run meets `Ψ` in the state it starts from. -/
def EachStep (step : σ → α → Option σ) (Ψ : σ → α → Prop) (s : σ) (as : List α) : Prop :=
  ∀ pre a t t', pre ++ [a] <+: as → run step s pre = some t → step t a = some t' → Ψ t a

theorem everywhere_nil {step : σ → α → Option σ} {Φ : σ → Prop} {s : σ} :
    Everywhere step Φ s [] ↔ Φ s := by
  refine ⟨fun h => h [] s (List.prefix_refl []) rfl, fun h pre t hpre ht => ?_⟩
  rw [List.prefix_nil.mp hpre] at ht
  cases ht
  exact h

theorem everywhere_cons {step : σ → α → Option σ} {Φ : σ → Prop} {s : σ} {a : α}
    {as : List α} :
    Everywhere step Φ s (a :: as) ↔
      Φ s ∧ ∀ s', step s a = some s' → Everywhere step Φ s' as := by
  constructor
  · intro h
    refine ⟨h [] s (List.nil_prefix) rfl, fun s' hstep pre t hpre ht => ?_⟩
    exact h (a :: pre) t (List.cons_prefix_cons.mpr ⟨rfl, hpre⟩)
      (run_cons_eq_some.mpr ⟨s', hstep, ht⟩)
  · rintro ⟨hs, hrest⟩ pre t hpre ht
    cases pre with
    | nil => cases ht; exact hs
    | cons b pre =>
        obtain ⟨rfl, hpre'⟩ := List.cons_prefix_cons.mp hpre
        obtain ⟨s', hstep, ht'⟩ := run_cons_eq_some.mp ht
        exact hrest s' hstep pre t hpre' ht'

@[simp] theorem eachStep_nil {step : σ → α → Option σ} {Ψ : σ → α → Prop} {s : σ} :
    EachStep step Ψ s [] := by
  intro pre a t t' hpre
  simp at hpre

theorem eachStep_cons {step : σ → α → Option σ} {Ψ : σ → α → Prop} {s : σ} {a : α}
    {as : List α} :
    EachStep step Ψ s (a :: as) ↔
      ∀ s', step s a = some s' → Ψ s a ∧ EachStep step Ψ s' as := by
  constructor
  · intro h s' hstep
    refine ⟨h [] a s s' ⟨as, rfl⟩ rfl hstep, fun pre b t t' hpre ht hb => ?_⟩
    exact h (a :: pre) b t t' (List.cons_prefix_cons.mpr ⟨rfl, hpre⟩)
      (run_cons_eq_some.mpr ⟨s', hstep, ht⟩) hb
  · intro h pre b t t' hpre ht hb
    cases pre with
    | nil =>
        -- the first step of the run
        obtain ⟨rfl, -⟩ := List.cons_prefix_cons.mp hpre
        cases ht
        exact (h t' hb).1
    | cons c pre =>
        obtain ⟨rfl, hpre'⟩ := List.cons_prefix_cons.mp hpre
        obtain ⟨s', hstep, ht'⟩ := run_cons_eq_some.mp ht
        exact (h s' hstep).2 pre b t t' hpre' ht' hb

/-- The last step of a run, singled out. -/
theorem eachStep_concat {step : σ → α → Option σ} {Ψ : σ → α → Prop} {s : σ} {as : List α}
    {a : α} :
    EachStep step Ψ s (as ++ [a]) ↔
      EachStep step Ψ s as ∧
        ∀ t t', run step s as = some t → step t a = some t' → Ψ t a := by
  induction as generalizing s with
  | nil =>
      rw [List.nil_append, eachStep_cons]
      constructor
      · intro h
        refine ⟨eachStep_nil, fun t t' ht hstep => ?_⟩
        cases ht
        exact (h t' hstep).1
      · exact fun h s' hstep => ⟨h.2 s s' rfl hstep, eachStep_nil⟩
  | cons b as ih =>
      rw [List.cons_append, eachStep_cons, eachStep_cons]
      constructor
      · intro h
        refine ⟨fun s' hstep => ⟨(h s' hstep).1, (ih.mp (h s' hstep).2).1⟩, ?_⟩
        intro t t' ht hlast
        obtain ⟨s', hstep, hrest⟩ := run_cons_eq_some.mp ht
        exact (ih.mp (h s' hstep).2).2 t t' hrest hlast
      · rintro ⟨h, hlast⟩ s' hstep
        refine ⟨(h s' hstep).1, ih.mpr ⟨(h s' hstep).2, fun t t' ht => ?_⟩⟩
        exact hlast t t' (run_cons_eq_some.mpr ⟨s', hstep, ht⟩)

/-- Along a concrete run a decidable condition on the steps can be checked. -/
instance decidableEachStep (step : σ → α → Option σ) (Ψ : σ → α → Prop)
    [∀ s a, Decidable (Ψ s a)] : ∀ s as, Decidable (EachStep step Ψ s as)
  | _, [] => isTrue eachStep_nil
  | s, a :: as =>
      match hstep : step s a with
      | none => isTrue (eachStep_cons.mpr fun s' h => by rw [hstep] at h; cases h)
      | some s' =>
          haveI := decidableEachStep step Ψ s' as
          decidable_of_iff (Ψ s a ∧ EachStep step Ψ s' as) (by
            rw [eachStep_cons, hstep]
            constructor
            · intro h t ht
              cases ht
              exact h
            · exact fun h => h s' rfl)

/-- **The exact invariant rule**, relative to an invariant `J` of every run.  If a
step from a state of `I` keeps `I` exactly when it meets `Ψ`, then `I` holds along
a run exactly when every step of the run meets `Ψ`. -/
theorem everywhere_iff_eachStep_of_invariant {step : σ → α → Option σ} {I J : σ → Prop}
    {Ψ : σ → α → Prop} (preserved : ∀ s a s', J s → step s a = some s' → J s')
    (exact_step : ∀ s a s', J s → I s → step s a = some s' → (I s' ↔ Ψ s a))
    {s : σ} {as : List α} (always : J s) (start : I s) :
    Everywhere step I s as ↔ EachStep step Ψ s as := by
  induction as generalizing s with
  | nil => exact ⟨fun _ => eachStep_nil, fun _ => everywhere_nil.mpr start⟩
  | cons a as ih =>
      rw [everywhere_cons, eachStep_cons]
      constructor
      · rintro ⟨-, h⟩ s' hstep
        have hI' : I s' := h s' hstep [] s' List.nil_prefix rfl
        exact ⟨(exact_step s a s' always start hstep).mp hI',
          (ih (preserved s a s' always hstep) hI').mp (h s' hstep)⟩
      · intro h
        refine ⟨start, fun s' hstep => ?_⟩
        obtain ⟨hΨ, hrest⟩ := h s' hstep
        have hI' : I s' := (exact_step s a s' always start hstep).mpr hΨ
        exact (ih (preserved s a s' always hstep) hI').mpr hrest

/-- **The exact invariant rule.** -/
theorem everywhere_iff_eachStep {step : σ → α → Option σ} {I : σ → Prop}
    {Ψ : σ → α → Prop}
    (exact_step : ∀ s a s', I s → step s a = some s' → (I s' ↔ Ψ s a))
    {s : σ} {as : List α} (start : I s) :
    Everywhere step I s as ↔ EachStep step Ψ s as :=
  everywhere_iff_eachStep_of_invariant (J := fun _ => True) (fun _ _ _ _ _ => trivial)
    (fun s a s' _ => exact_step s a s') trivial start

theorem Everywhere.mono {step : σ → α → Option σ} {Φ Φ' : σ → Prop} {s : σ}
    {as : List α} (weaker : ∀ t, Φ t → Φ' t) (h : Everywhere step Φ s as) :
    Everywhere step Φ' s as :=
  fun pre t hpre ht => weaker t (h pre t hpre ht)

/-- What holds everywhere along a run holds at its end. -/
theorem Everywhere.last {step : σ → α → Option σ} {Φ : σ → Prop} {s t : σ}
    {as : List α} (h : Everywhere step Φ s as) (ht : run step s as = some t) : Φ t :=
  h as t (List.prefix_refl as) ht

/-! ## Simulation -/

/-- A finite run of a relational system, with its labels. -/
inductive Steps (absStep : τ → β → τ → Prop) : τ → List β → τ → Prop
  | nil (x : τ) : Steps absStep x [] x
  | cons {x y z : τ} {b : β} {bs : List β} (head : absStep x b y)
      (rest : Steps absStep y bs z) : Steps absStep x (b :: bs) z

/-- **The simulation rule.**  If a relation `R` is carried along by every step
that meets `Ψ`, the label `a` being matched by the abstract label `f a`, then it
is carried along by every run whose steps all meet `Ψ`. -/
theorem run_simulation {step : σ → α → Option σ} (absStep : τ → β → τ → Prop) (f : α → β)
    (R : σ → τ → Prop) {Ψ : σ → α → Prop}
    (simulates : ∀ s a s' x, R s x → Ψ s a → step s a = some s' →
      ∃ y, absStep x (f a) y ∧ R s' y)
    {s t : σ} {as : List α} {x : τ} (start : R s x) (guarded : EachStep step Ψ s as)
    (h : run step s as = some t) :
    ∃ y, Steps absStep x (as.map f) y ∧ R t y := by
  induction as generalizing s x with
  | nil => cases h; exact ⟨x, .nil x, start⟩
  | cons a as ih =>
      obtain ⟨s', hstep, hrest⟩ := run_cons_eq_some.mp h
      obtain ⟨hΨ, hguard⟩ := eachStep_cons.mp guarded s' hstep
      obtain ⟨y, habs, hR⟩ := simulates s a s' x start hΨ hstep
      obtain ⟨z, hrun, hz⟩ := ih hR hguard hrest
      exact ⟨z, .cons habs hrun, hz⟩

/-! ## Progress -/

/-- Each label of a list is permitted in the state it is reached in. -/
def Permitted (step : σ → α → Option σ) (Enabled : σ → α → Prop) : σ → List α → Prop
  | _, [] => True
  | s, a :: as => Enabled s a ∧ ∀ s', step s a = some s' → Permitted step Enabled s' as

/-- Along a concrete run decidable conditions can be checked. -/
instance decidablePermitted (step : σ → α → Option σ) (Enabled : σ → α → Prop)
    [∀ s a, Decidable (Enabled s a)] : ∀ s as, Decidable (Permitted step Enabled s as)
  | _, [] => isTrue trivial
  | s, a :: as =>
      match hstep : step s a with
      | none => decidable_of_iff (Enabled s a) (by
          rw [Permitted, hstep]
          exact ⟨fun h => ⟨h, fun s' hs' => by cases hs'⟩, And.left⟩)
      | some s' =>
          haveI := decidablePermitted step Enabled s' as
          decidable_of_iff (Enabled s a ∧ Permitted step Enabled s' as) (by
            rw [Permitted, hstep]
            constructor
            · rintro ⟨henabled, h⟩
              exact ⟨henabled, fun t ht => by cases ht; exact h⟩
            · exact fun h => ⟨h.1, h.2 s' rfl⟩)

theorem permitted_append {step : σ → α → Option σ} {Enabled : σ → α → Prop} {s : σ}
    {as bs : List α} :
    Permitted step Enabled s (as ++ bs) ↔ Permitted step Enabled s as ∧
      ∀ t, run step s as = some t → Permitted step Enabled t bs := by
  induction as generalizing s with
  | nil => simp [Permitted]
  | cons a as ih =>
      simp only [List.cons_append, Permitted, ih, run_cons_eq_some]
      constructor
      · rintro ⟨henabled, h⟩
        exact ⟨⟨henabled, fun s' hs' => (h s' hs').1⟩,
          fun t ⟨s', hs', ht⟩ => (h s' hs').2 t ht⟩
      · rintro ⟨⟨henabled, h⟩, hrest⟩
        exact ⟨henabled, fun s' hs' => ⟨h s' hs', fun t ht => hrest t ⟨s', hs', ht⟩⟩⟩

/-- A permitted run from one state to another. -/
structure PermittedRun (step : σ → α → Option σ) (Enabled : σ → α → Prop) (s : σ) (as : List α)
    (t : σ) : Prop where
  permitted : Permitted step Enabled s as
  run : run step s as = some t

theorem PermittedRun.nil {step : σ → α → Option σ} {Enabled : σ → α → Prop} {s : σ} :
    PermittedRun step Enabled s [] s := ⟨trivial, rfl⟩

theorem PermittedRun.single {step : σ → α → Option σ} {Enabled : σ → α → Prop} {s t : σ} {a : α}
    (ha : Enabled s a) (h : step s a = some t) : PermittedRun step Enabled s [a] t :=
  ⟨⟨ha, fun _ _ => trivial⟩, run_cons_eq_some.mpr ⟨t, h, rfl⟩⟩

theorem PermittedRun.trans {step : σ → α → Option σ} {Enabled : σ → α → Prop} {s t u : σ}
    {as bs : List α} (h : PermittedRun step Enabled s as t) (h' : PermittedRun step Enabled t bs u) :
    PermittedRun step Enabled s (as ++ bs) u := by
  refine ⟨permitted_append.mpr ⟨h.permitted, fun t' ht' => ?_⟩,
    run_append_eq_some.mpr ⟨t, h.run, h'.run⟩⟩
  obtain rfl := Option.some_inj.mp (h.run.symm.trans ht')
  exact h'.permitted

/-- **The history rule for permitted runs.**  If every permitted step is enabled and preserves what
is known of the run so far, then every permitted run ends in a state of which it is known. -/
theorem run_permitted {step : σ → α → Option σ} {Enabled : σ → α → Prop} {s : σ}
    {P : List α → σ → Prop} (start : P [] s)
    (progress : ∀ as t a, run step s as = some t → P as t → Enabled t a →
      ∃ t', step t a = some t' ∧ P (as ++ [a]) t')
    {as : List α} (h : Permitted step Enabled s as) : ∃ t, run step s as = some t ∧ P as t := by
  induction as using List.reverseRecOn with
  | nil => exact ⟨s, rfl, start⟩
  | append_singleton as a ih =>
      obtain ⟨has, hlast⟩ := permitted_append.mp h
      obtain ⟨t, hrun, hP⟩ := ih has
      obtain ⟨t', hstep, hP'⟩ := progress as t a hrun hP (hlast t hrun).1
      exact ⟨t', run_concat_eq_some.mpr ⟨t, hrun, hstep⟩, hP'⟩

/-- **The rank rule.**  If a permitted label takes every state that is not a goal to one of lower
rank, then a goal is reached by that many of them. -/
theorem exists_run_of_rank {step : σ → α → Option σ} {Enabled : σ → α → Prop} {Good : α → Prop}
    {I : σ → ℕ → Prop} {Goal : σ → Prop}
    (progress : ∀ s n, I s n → Goal s ∨
      ∃ a s' m, Good a ∧ Enabled s a ∧ step s a = some s' ∧ m < n ∧ I s' m)
    {s : σ} {n : ℕ} (start : I s n) :
    ∃ as t, as.length ≤ n ∧ (∀ a ∈ as, Good a) ∧ Permitted step Enabled s as ∧
      run step s as = some t ∧ Goal t := by
  induction n using Nat.strong_induction_on generalizing s with
  | _ n ih =>
      rcases progress s n start with hgoal | ⟨a, s', m, hgood, henabled, hstep, hm, hI⟩
      · exact ⟨[], s, Nat.zero_le n, fun a ha => absurd ha List.not_mem_nil, trivial, rfl, hgoal⟩
      · obtain ⟨as, t, hlength, hgoods, hpermitted, hrun, hgoal⟩ := ih m hm hI
        refine ⟨a :: as, t, ?_, List.forall_mem_cons.mpr ⟨hgood, hgoods⟩, ⟨henabled, ?_⟩,
          run_cons_eq_some.mpr ⟨s', hstep, hrun⟩, hgoal⟩
        · rw [List.length_cons]
          omega
        · intro s'' hs''
          rw [hstep] at hs''
          cases hs''
          exact hpermitted

/-- The labels of another system that match the steps of a run. -/
def labels (step : σ → α → Option σ) (label : σ → α → β) : σ → List α → List β
  | _, [] => []
  | s, a :: as => label s a :: match step s a with
      | none => []
      | some s' => labels step label s' as

/-- **The lockstep rule.**  If every permitted step of one system is enabled, and so is the
step of the other that its state and its label choose, then the two run in lockstep. -/
theorem run_lockstep {step : σ → α → Option σ} {absStep : τ → β → Option τ}
    {Enabled : σ → α → Prop} {label : σ → α → β} (R : σ → τ → Prop)
    (simulates : ∀ s a x, R s x → Enabled s a →
      ∃ s' y, step s a = some s' ∧ absStep x (label s a) = some y ∧ R s' y)
    {s : σ} {as : List α} {x : τ} (start : R s x) (h : Permitted step Enabled s as) :
    ∃ t y, run step s as = some t ∧ run absStep x (labels step label s as) = some y ∧ R t y := by
  induction as generalizing s x with
  | nil => exact ⟨s, x, rfl, rfl, start⟩
  | cons a as ih =>
      obtain ⟨henabled, hpermitted⟩ := h
      obtain ⟨s', y, hstep, habs, hR⟩ := simulates s a x start henabled
      obtain ⟨t, z, hrun, hruns, hz⟩ := ih hR (hpermitted s' hstep)
      refine ⟨t, z, run_cons_eq_some.mpr ⟨s', hstep, hrun⟩, ?_, hz⟩
      rw [labels, hstep]
      exact run_cons_eq_some.mpr ⟨y, habs, hruns⟩

end Transition
