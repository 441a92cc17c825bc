import Mathlib.Data.List.Basic

/-!
# Calls of an object

An object is called again and again; a call gives an answer and the next state, or it
fails.  A `Specification` says which calls a caller may make of an abstract state, and
which answers and next states it has to expect; it may leave a choice.

An object `Meets` a specification when each of its states represents an abstract one and
every allowed call keeps to it.  Then every list of allowed calls does
(`Meets.performAll`): no call fails, and the answers are those to be expected.
-/

namespace CocoMap

namespace Calls

variable {σ π γ α : Type*}

/-- The answers to a list of calls, in order. -/
def performAll (perform : σ → γ → Option (α × σ)) (s : σ) : List γ → Option (List α × σ)
  | [] => some ([], s)
  | call :: calls =>
      (perform s call).bind fun r =>
        (performAll perform r.2 calls).map fun rest => (r.1 :: rest.1, rest.2)

/-- What every call preserves, every list of calls does. -/
theorem performAll_invariant {perform : σ → γ → Option (α × σ)} (I : σ → Prop)
    (hstep : ∀ {s call answer s'}, I s → perform s call = some (answer, s') → I s')
    {calls : List γ} {s s' : σ} {answers : List α} (hs : I s)
    (h : performAll perform s calls = some (answers, s')) : I s' := by
  induction calls generalizing s answers with
  | nil =>
      cases h
      exact hs
  | cons call calls ih =>
      rw [performAll, Option.bind_eq_some_iff] at h
      obtain ⟨⟨answer, s₁⟩, hcall, h⟩ := h
      obtain ⟨⟨rest, s₂⟩, hcalls, heq⟩ := Option.map_eq_some_iff.mp h
      cases heq
      exact ih (hstep hs hcall) hcalls

/-- The calls that may be made of an abstract state, and what is to be expected of them. -/
structure Specification (π γ α : Type*) where
  Allowed : π → γ → Prop
  Answers : π → γ → α → π → Prop

namespace Specification

variable (spec : Specification π γ α)

/-- Every call of a list may be made, whatever the answers before it were. -/
def AllAllowed (p : π) : List γ → Prop
  | [] => True
  | call :: calls => spec.Allowed p call ∧
      ∀ answer p', spec.Answers p call answer p' → AllAllowed p' calls

/-- The answers are to be expected, one after another. -/
def AllAnswers (p : π) : List γ → List α → π → Prop
  | [], answers, p' => answers = [] ∧ p' = p
  | call :: calls, answers, p' => ∃ answer p₁ rest,
      answers = answer :: rest ∧ spec.Answers p call answer p₁ ∧ AllAnswers p₁ calls rest p'

@[simp] theorem allAllowed_nil (p : π) : spec.AllAllowed p [] := trivial

/-- The object keeps to the specification, call by call. -/
def Meets (perform : σ → γ → Option (α × σ)) (Represents : σ → π → Prop) : Prop :=
  ∀ {s p call}, Represents s p → spec.Allowed p call →
    ∃ answer s' p', perform s call = some (answer, s') ∧ spec.Answers p call answer p' ∧
      Represents s' p'

variable {spec} {perform : σ → γ → Option (α × σ)} {Represents : σ → π → Prop}

/-- **The object keeps to the specification** through every list of calls. -/
theorem Meets.performAll (h : spec.Meets perform Represents) {calls : List γ} {s : σ} {p : π}
    (hs : Represents s p) (allowed : spec.AllAllowed p calls) :
    ∃ answers s' p', Calls.performAll perform s calls = some (answers, s') ∧
      spec.AllAnswers p calls answers p' ∧ Represents s' p' := by
  induction calls generalizing s p with
  | nil => exact ⟨[], s, p, rfl, ⟨rfl, rfl⟩, hs⟩
  | cons call calls ih =>
      obtain ⟨answer, s₁, p₁, hcall, hanswer, hs₁⟩ := h hs allowed.1
      obtain ⟨answers, s₂, p₂, hcalls, hanswers, hs₂⟩ := ih hs₁ (allowed.2 answer p₁ hanswer)
      exact ⟨answer :: answers, s₂, p₂,
        by rw [Calls.performAll, hcall, Option.bind_some, hcalls, Option.map_some],
        ⟨answer, p₁, answers, rfl, hanswer, hanswers⟩, hs₂⟩

end Specification

end Calls

end CocoMap
