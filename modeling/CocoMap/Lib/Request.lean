import Mathlib.Logic.Function.Basic
import CocoMap.Lib.Transition

/-!
# Programs of asynchronous requests over a shared store

A client of a remote store issues one atomic request after another: a *read*,
whose completion handler goes on with the reply, or a *write*, whose outcome the
client ignores.  `Program` is that tree of requests.  It ends in `done`, possibly
with a result for the client's own screen, or in `raised` when the client stops
on an exception.

* `Program.run` executes a program against a `Store` without interruption.
* `System` puts a family of programs, one per call, over one store; `advance`
  lets one of them perform its next request, so a schedule `List ι` is an
  interleaving that keeps each call's own order.
* `Program.Remains` relates a program to what can be left of it, and
  `Program.Writes Φ` says that every write it may ever issue meets `Φ`.

`run_advance_run` connects the two levels: the uninterrupted execution of a call
is one of the interleavings.
-/

namespace Request

universe u v w z x y

variable {ρ : Type u} {β : Type v} {ω : Type w} {R : Type z} {S : Type x} {ι : Type y}

/-- A client: what it asks of the store, and how it goes on with the reply. -/
inductive Program (ρ : Type u) (β : Type v) (ω : Type w) (R : Type z) :
    Type (max u v w z)
  | done (result : R)
  | raised
  | read (ref : ρ) (completion : β → Program ρ β ω R)
  | write (request : ω) (next : Program ρ β ω R)

/-- A store answers a read and applies a write. -/
structure Store (ρ : Type u) (β : Type v) (ω : Type w) (S : Type x) where
  get : S → ρ → β
  perform : S → ω → S

namespace Program

/-- Whether the program has no request left. -/
def Finished : Program ρ β ω R → Prop
  | .done _ => True
  | .raised => True
  | .read _ _ => False
  | .write _ _ => False

/-- The next atomic request of a program, performed on the store. -/
def next (store : Store ρ β ω S) : Program ρ β ω R → S → Option (S × Program ρ β ω R)
  | .done _, _ => none
  | .raised, _ => none
  | .read ref completion, s => some (s, completion (store.get s ref))
  | .write request rest, s => some (store.perform s request, rest)

/-- The whole program, performed without interruption. -/
def run (store : Store ρ β ω S) : Program ρ β ω R → S → S
  | .done _, s => s
  | .raised, s => s
  | .read ref completion, s => (completion (store.get s ref)).run store s
  | .write request rest, s => rest.run store (store.perform s request)

/-- The writes a program issues when it is performed without interruption. -/
def written (store : Store ρ β ω S) : Program ρ β ω R → S → List ω
  | .done _, _ => []
  | .raised, _ => []
  | .read ref completion, s => (completion (store.get s ref)).written store s
  | .write request rest, s => request :: rest.written store (store.perform s request)

section Run

variable (store : Store ρ β ω S) (s : S)

@[simp] theorem run_done (r : R) :
    (Program.done r : Program ρ β ω R).run store s = s := rfl

@[simp] theorem run_raised : (Program.raised : Program ρ β ω R).run store s = s := rfl

@[simp] theorem run_read (ref : ρ) (completion : β → Program ρ β ω R) :
    (Program.read ref completion).run store s =
      (completion (store.get s ref)).run store s := rfl

@[simp] theorem run_write (request : ω) (rest : Program ρ β ω R) :
    (Program.write request rest).run store s =
      rest.run store (store.perform s request) := rfl

@[simp] theorem written_done (r : R) :
    (Program.done r : Program ρ β ω R).written store s = [] := rfl

@[simp] theorem written_read (ref : ρ) (completion : β → Program ρ β ω R) :
    (Program.read ref completion).written store s =
      (completion (store.get s ref)).written store s := rfl

end Run

theorem next_eq_some {store : Store ρ β ω S} {p q : Program ρ β ω R} {s t : S} :
    p.next store s = some (t, q) ↔
      (∃ ref completion, p = .read ref completion ∧ t = s ∧
          q = completion (store.get s ref)) ∨
      (∃ request, p = .write request q ∧ t = store.perform s request) := by
  cases p with
  | done r => simp [next]
  | raised => simp [next]
  | read ref completion =>
      simp only [next, Option.some.injEq, Prod.mk.injEq, Program.read.injEq, reduceCtorEq,
        false_and, exists_false, or_false]
      constructor
      · rintro ⟨rfl, rfl⟩; exact ⟨ref, completion, ⟨rfl, rfl⟩, rfl, rfl⟩
      · rintro ⟨_, _, ⟨rfl, rfl⟩, rfl, rfl⟩; exact ⟨rfl, rfl⟩
  | write request rest =>
      simp only [next, Option.some.injEq, Prod.mk.injEq, Program.write.injEq, reduceCtorEq,
        false_and, exists_false, false_or]
      constructor
      · rintro ⟨rfl, rfl⟩; exact ⟨request, ⟨rfl, rfl⟩, rfl⟩
      · rintro ⟨_, ⟨rfl, rfl⟩, rfl⟩; exact ⟨rfl, rfl⟩

/-! ## What is left of a program -/

/-- `Remains p q`: after some of its requests, whatever the replies, `q` is what
is left of `p`. -/
inductive Remains : Program ρ β ω R → Program ρ β ω R → Prop
  | refl (p : Program ρ β ω R) : Remains p p
  | read (ref : ρ) {completion : β → Program ρ β ω R} (reply : β)
      {q : Program ρ β ω R} (rest : Remains (completion reply) q) :
      Remains (.read ref completion) q
  | write (request : ω) {p q : Program ρ β ω R} (rest : Remains p q) :
      Remains (.write request p) q

theorem Remains.trans {p q r : Program ρ β ω R} (h₁ : Remains p q) (h₂ : Remains q r) :
    Remains p r := by
  induction h₁ with
  | refl p => exact h₂
  | read ref reply _ ih => exact .read ref reply (ih h₂)
  | write request _ ih => exact .write request (ih h₂)

/-- Performing a request leaves something of the program. -/
theorem remains_of_next {store : Store ρ β ω S} {p q : Program ρ β ω R} {s t : S}
    (h : p.next store s = some (t, q)) : Remains p q := by
  rcases next_eq_some.mp h with ⟨ref, completion, rfl, -, rfl⟩ | ⟨request, rfl, -⟩
  · exact .read ref _ (.refl _)
  · exact .write request (.refl _)

@[simp] theorem remains_done {r : R} {q : Program ρ β ω R} :
    Remains (.done r) q ↔ q = .done r := by
  constructor
  · rintro ⟨⟩; rfl
  · rintro rfl; exact .refl _

@[simp] theorem remains_raised {q : Program ρ β ω R} :
    Remains .raised q ↔ q = .raised := by
  constructor
  · rintro ⟨⟩; rfl
  · rintro rfl; exact .refl _

theorem remains_read {ref : ρ} {completion : β → Program ρ β ω R}
    {q : Program ρ β ω R} :
    Remains (.read ref completion) q ↔
      q = .read ref completion ∨ ∃ reply, Remains (completion reply) q := by
  constructor
  · rintro (_ | ⟨_, reply, rest⟩)
    · exact Or.inl rfl
    · exact Or.inr ⟨reply, rest⟩
  · rintro (rfl | ⟨reply, rest⟩)
    · exact .refl _
    · exact .read ref reply rest

theorem remains_write {request : ω} {p q : Program ρ β ω R} :
    Remains (.write request p) q ↔ q = .write request p ∨ Remains p q := by
  constructor
  · rintro (_ | _ | ⟨_, rest⟩)
    · exact Or.inl rfl
    · exact Or.inr rest
  · rintro (rfl | rest)
    · exact .refl _
    · exact .write request rest

/-! ## The writes a program may issue -/

/-- Every write the program may issue, whatever the replies, meets `Φ`. -/
def Writes (Φ : ω → Prop) : Program ρ β ω R → Prop
  | .done _ => True
  | .raised => True
  | .read _ completion => ∀ reply, (completion reply).Writes Φ
  | .write request rest => Φ request ∧ rest.Writes Φ

theorem Writes.of_remains {Φ : ω → Prop} {p q : Program ρ β ω R} (h : p.Writes Φ)
    (hq : Remains p q) : q.Writes Φ := by
  induction hq with
  | refl p => exact h
  | read ref reply _ ih => exact ih (h reply)
  | write request _ ih => exact ih h.2

theorem Writes.mono {Φ Φ' : ω → Prop} (weaker : ∀ request, Φ request → Φ' request)
    {p : Program ρ β ω R} (h : p.Writes Φ) : p.Writes Φ' := by
  induction p with
  | done r => trivial
  | raised => trivial
  | read ref completion ih => exact fun reply => ih reply (h reply)
  | write request rest ih => exact ⟨weaker request h.1, ih h.2⟩

end Program

/-! ## Interleaving -/

/-- One store and the calls over it, each with what is left of its program. -/
structure System (ι : Type y) (ρ : Type u) (β : Type v) (ω : Type w) (R : Type z)
    (S : Type x) where
  store : S
  calls : ι → Program ρ β ω R

variable [DecidableEq ι]

/-- The call `i` performs its next request; a finished call is not enabled. -/
def advance (store : Store ρ β ω S) (sys : System ι ρ β ω R S) (i : ι) :
    Option (System ι ρ β ω R S) :=
  ((sys.calls i).next store sys.store).map fun r =>
    { store := r.1, calls := Function.update sys.calls i r.2 }

theorem advance_eq_some {store : Store ρ β ω S} {sys sys' : System ι ρ β ω R S} {i : ι} :
    advance store sys i = some sys' ↔
      ∃ q, (sys.calls i).next store sys.store = some (sys'.store, q) ∧
        sys'.calls = Function.update sys.calls i q := by
  rw [advance, Option.map_eq_some_iff]
  constructor
  · rintro ⟨⟨t, q⟩, hnext, rfl⟩; exact ⟨q, hnext, rfl⟩
  · rintro ⟨q, hnext, hcalls⟩
    refine ⟨(sys'.store, q), hnext, ?_⟩
    cases sys'
    simp_all

/-- **What one step does**: a read that leaves the store alone, or a write. -/
theorem advance_cases {store : Store ρ β ω S} {sys sys' : System ι ρ β ω R S} {i : ι}
    (h : advance store sys i = some sys') :
    (∃ ref completion, sys.calls i = .read ref completion ∧ sys'.store = sys.store ∧
        sys'.calls = Function.update sys.calls i (completion (store.get sys.store ref))) ∨
    (∃ request rest, sys.calls i = .write request rest ∧
        sys'.store = store.perform sys.store request ∧
        sys'.calls = Function.update sys.calls i rest) := by
  obtain ⟨q, hnext, hcalls⟩ := advance_eq_some.mp h
  rcases Program.next_eq_some.mp hnext with
    ⟨ref, completion, hp, ht, rfl⟩ | ⟨request, hp, ht⟩
  · exact Or.inl ⟨ref, completion, hp, ht, hcalls⟩
  · exact Or.inr ⟨request, q, hp, ht, hcalls⟩

/-- A step leaves a remainder of every call. -/
theorem advance_remains {store : Store ρ β ω S} {sys sys' : System ι ρ β ω R S} {i : ι}
    (h : advance store sys i = some sys') (j : ι) :
    Program.Remains (sys.calls j) (sys'.calls j) := by
  obtain ⟨q, hnext, hcalls⟩ := advance_eq_some.mp h
  rw [hcalls]
  rcases eq_or_ne j i with rfl | hji
  · rw [Function.update_self]
    exact Program.remains_of_next hnext
  · rw [Function.update_of_ne hji]
    exact .refl _

/-- **Store invariants.**  A property of the store that every write of every call
keeps holds throughout any interleaving. -/
theorem everywhere_store {store : Store ρ β ω S} {sys : System ι ρ β ω R S} {I : S → Prop}
    (writes : ∀ i, (sys.calls i).Writes fun request => ∀ s, I s → I (store.perform s request))
    (start : I sys.store) (schedule : List ι) :
    Transition.Everywhere (advance store) (fun sys => I sys.store) sys schedule := by
  intro pre sys' _ hrun
  -- with it, what is left of each call still keeps the property
  refine (Transition.run_invariant (I := fun s : System ι ρ β ω R S => I s.store ∧
    ∀ i, (s.calls i).Writes fun request => ∀ s, I s → I (store.perform s request))
    (fun s i _ s' hI hstep => ?_) ⟨start, writes⟩ hrun).1
  refine ⟨?_, fun j => (hI.2 j).of_remains (advance_remains hstep j)⟩
  rcases advance_cases hstep with ⟨_, _, -, hstore, -⟩ | ⟨request, rest, hcall, hstore, -⟩
  · rw [hstore]
    exact hI.1
  · have hwrites := hI.2 i
    rw [hcall] at hwrites
    rw [hstore]
    exact hwrites.1 s.store hI.1

/-- **Running a call to its end is an interleaving.**  From any system there is a
schedule of one call alone after which that call is finished, the others are as
before, and the store is what the uninterrupted program makes of it. -/
theorem run_advance_run (store : Store ρ β ω S) (sys : System ι ρ β ω R S) (i : ι) :
    ∃ n sys', Transition.run (advance store) sys (List.replicate n i) = some sys' ∧
      sys'.store = (sys.calls i).run store sys.store ∧ (sys'.calls i).Finished ∧
      ∀ j, j ≠ i → sys'.calls j = sys.calls j := by
  generalize hp : sys.calls i = p
  induction p generalizing sys with
  | done r => exact ⟨0, sys, rfl, rfl, by rw [hp]; trivial, fun _ _ => rfl⟩
  | raised => exact ⟨0, sys, rfl, rfl, by rw [hp]; trivial, fun _ _ => rfl⟩
  | read ref completion ih =>
      obtain ⟨n, sys', hrun, hstore, hfin, hother⟩ :=
        ih (store.get sys.store ref)
          { store := sys.store
            calls := Function.update sys.calls i (completion (store.get sys.store ref)) }
          (Function.update_self ..)
      refine ⟨n + 1, sys', ?_, hstore, hfin, fun j hj => ?_⟩
      · rw [List.replicate_succ, Transition.run_cons]
        simpa [advance, hp, Program.next] using hrun
      · rw [hother j hj]
        exact Function.update_of_ne hj ..
  | write request rest ih =>
      obtain ⟨n, sys', hrun, hstore, hfin, hother⟩ :=
        ih { store := store.perform sys.store request
             calls := Function.update sys.calls i rest }
          (Function.update_self ..)
      refine ⟨n + 1, sys', ?_, hstore, hfin, fun j hj => ?_⟩
      · rw [List.replicate_succ, Transition.run_cons]
        simpa [advance, hp, Program.next] using hrun
      · rw [hother j hj]
        exact Function.update_of_ne hj ..

end Request
