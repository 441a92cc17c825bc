import CocoMap.Lib.Transition

/-!
# The steps of a run by position, and the last write

`StepAt step s as n u a` says that the step number `n` of the run `as` takes the label
`a` in the state `u`; `stepAt_concat` decomposes it at the end of the run, where the
history rule adds a step.

A *register* is an observation `r : σ → Option γ` that every step either leaves alone
or sets to one value: `Sets u a v` says that the step with label `a` in state `u` sets
it to `v`.  `register_eq_some_iff` is the rule for registers: what one holds at the
end of a run is the value of the last step that set it.
-/

namespace Transition

universe u v w

variable {σ : Type u} {α : Type v} {γ : Type w}

/-- The step number `n` of a run takes the label `a` in the state `u`. -/
def StepAt (step : σ → α → Option σ) (s : σ) (as : List α) (n : ℕ) (u : σ) (a : α) : Prop :=
  ∃ before after, as = before ++ a :: after ∧ before.length = n ∧ run step s before = some u

section StepAt

variable {step : σ → α → Option σ} {s u : σ} {as : List α} {n : ℕ} {a : α}

theorem StepAt.lt_length (h : StepAt step s as n u a) : n < as.length := by
  obtain ⟨before, after, rfl, rfl, -⟩ := h
  simp

theorem not_stepAt_nil : ¬ StepAt step s [] n u a := fun h => absurd h.lt_length (Nat.not_lt_zero n)

/-- A step of a run extended by one is a step of the run, or the new one. -/
theorem stepAt_concat {t : σ} {b : α} (hrun : run step s as = some t) :
    StepAt step s (as ++ [b]) n u a ↔
      StepAt step s as n u a ∨ (n = as.length ∧ u = t ∧ a = b) := by
  constructor
  · rintro ⟨before, after, heq, rfl, hbefore⟩
    rcases List.eq_nil_or_concat after with rfl | ⟨after, b', rfl⟩
    · obtain ⟨rfl, hab⟩ := List.append_inj' heq rfl
      rw [hrun, Option.some_inj] at hbefore
      exact Or.inr ⟨rfl, hbefore.symm, (List.cons.inj hab).1.symm⟩
    · rw [List.concat_eq_append, ← List.cons_append, ← List.append_assoc] at heq
      obtain ⟨rfl, -⟩ := List.append_inj' heq rfl
      exact Or.inl ⟨before, after, rfl, rfl, hbefore⟩
  · rintro (⟨before, after, rfl, rfl, hbefore⟩ | ⟨rfl, rfl, rfl⟩)
    · exact ⟨before, after ++ [b], by simp, rfl, hbefore⟩
    · exact ⟨as, [], rfl, rfl, hrun⟩

end StepAt

/-- `v` is the value of the last step of the run that sets the register. -/
def LastSet (step : σ → α → Option σ) (s : σ) (Sets : σ → α → γ → Prop) (as : List α)
    (v : γ) : Prop :=
  ∃ n u a, StepAt step s as n u a ∧ Sets u a v ∧
    ∀ n' u' a' v', StepAt step s as n' u' a' → Sets u' a' v' → n' ≤ n

section LastSet

variable {step : σ → α → Option σ} {s t : σ} {Sets : σ → α → γ → Prop} {as : List α} {b : α}

/-- A step that leaves the register alone leaves the last set value alone. -/
theorem lastSet_concat_of_not_sets (hrun : run step s as = some t) (hno : ∀ v, ¬ Sets t b v)
    {v : γ} : LastSet step s Sets (as ++ [b]) v ↔ LastSet step s Sets as v := by
  have hsame : ∀ n u a v, StepAt step s (as ++ [b]) n u a → Sets u a v →
      StepAt step s as n u a := by
    intro n u a v hat hsets
    rcases (stepAt_concat hrun).mp hat with hold | ⟨-, rfl, rfl⟩
    · exact hold
    · exact absurd hsets (hno v)
  constructor
  · rintro ⟨n, u, a, hat, hsets, hlast⟩
    refine ⟨n, u, a, hsame n u a v hat hsets, hsets, fun n' u' a' v' hat' hsets' => ?_⟩
    exact hlast n' u' a' v' ((stepAt_concat hrun).mpr (Or.inl hat')) hsets'
  · rintro ⟨n, u, a, hat, hsets, hlast⟩
    refine ⟨n, u, a, (stepAt_concat hrun).mpr (Or.inl hat), hsets, fun n' u' a' v' hat' hsets' => ?_⟩
    exact hlast n' u' a' v' (hsame n' u' a' v' hat' hsets') hsets'

/-- The value of a step that sets the register is the last set one. -/
theorem lastSet_concat_of_sets (hrun : run step s as = some t) {v₀ : γ} (hsets : Sets t b v₀)
    (honly : ∀ v, Sets t b v → v = v₀) {v : γ} :
    LastSet step s Sets (as ++ [b]) v ↔ v = v₀ := by
  have hnew : StepAt step s (as ++ [b]) as.length t b :=
    (stepAt_concat hrun).mpr (Or.inr ⟨rfl, rfl, rfl⟩)
  constructor
  · rintro ⟨n, u, a, hat, hv, hlast⟩
    have hle : as.length ≤ n := hlast _ t b v₀ hnew hsets
    rcases (stepAt_concat hrun).mp hat with hold | ⟨-, rfl, rfl⟩
    · exact absurd hold.lt_length (by omega)
    · exact honly v hv
  · rintro rfl
    refine ⟨as.length, t, b, hnew, hsets, fun n' u' a' v' hat' _ => ?_⟩
    have hlt := hat'.lt_length
    simp only [List.length_append, List.length_singleton] at hlt
    omega

/-- **The rule for registers.**  If every step of a run either leaves a register alone or
sets it to its one value, the register holds the value of the last step that set it. -/
theorem register_eq_some_iff {r : σ → Option γ} (start : r s = none)
    (writes : ∀ as t a t', run step s as = some t → step t a = some t' →
      (r t' = r t ∧ ∀ v, ¬ Sets t a v) ∨
        ∃ v, r t' = some v ∧ Sets t a v ∧ ∀ v', Sets t a v' → v' = v)
    (hrun : run step s as = some t) (v : γ) :
    r t = some v ↔ LastSet step s Sets as v := by
  refine run_history (P := fun as t => ∀ v, r t = some v ↔ LastSet step s Sets as v) ?_ ?_ hrun v
  · intro v
    rw [start]
    constructor
    · intro hnone
      cases hnone
    · rintro ⟨n, u, a, hat, -⟩
      exact absurd hat not_stepAt_nil
  · intro as t a t' hrun ih hstep v
    rcases writes as t a t' hrun hstep with ⟨hsame, hno⟩ | ⟨v₀, hr, hsets, honly⟩
    · rw [hsame, ih v, lastSet_concat_of_not_sets hrun hno]
    · rw [hr, lastSet_concat_of_sets hrun hsets honly, Option.some_inj, eq_comm]

end LastSet

end Transition
