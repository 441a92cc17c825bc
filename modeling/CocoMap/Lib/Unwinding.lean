import CocoMap.Lib.Request

/-!
# Unwinding: calls that do not interfere

Fix an equivalence `E` on the states of a store: two states are equivalent when
an observer sees no difference between them.

* A program is `Silent` when the observer sees none of its writes.
* A program `Respects E` when it acts alike on equivalent states: its reads
  continue with the same program, its writes lead to equivalent states.

`unwinding` is the two-run statement: over a family of calls, the visible ones
respecting `E` and the others silent, deleting the steps of the silent calls from
a schedule changes nothing the observer sees.  `unwinding_of_filter_eq` compares
two interleavings with the same steps of visible calls.
-/

namespace Request

universe u v w z x y

variable {ρ : Type u} {β : Type v} {ω : Type w} {R : Type z} {S : Type x} {ι : Type y}

namespace Program

/-- The observer sees no write of the program. -/
abbrev Silent (store : Store ρ β ω S) (E : S → S → Prop) (p : Program ρ β ω R) : Prop :=
  p.Writes fun request => ∀ s, E (store.perform s request) s

/-- The program acts alike on states the observer cannot tell apart. -/
def Respects (store : Store ρ β ω S) (E : S → S → Prop) : Program ρ β ω R → Prop
  | .done _ => True
  | .raised => True
  | .read ref completion =>
      (∀ s t, E s t → completion (store.get s ref) = completion (store.get t ref)) ∧
        ∀ reply, (completion reply).Respects store E
  | .write request rest =>
      (∀ s t, E s t → E (store.perform s request) (store.perform t request)) ∧
        rest.Respects store E

variable {store : Store ρ β ω S} {E : S → S → Prop}

/-- A silent request leads to an equivalent state, and to a silent program. -/
theorem Silent.next {p q : Program ρ β ω R} {s t : S} (refl : ∀ s, E s s)
    (h : p.Silent store E) (hnext : p.next store s = some (t, q)) :
    E t s ∧ q.Silent store E := by
  refine ⟨?_, h.of_remains (remains_of_next hnext)⟩
  rcases next_eq_some.mp hnext with ⟨ref, completion, -, rfl, -⟩ | ⟨request, rfl, rfl⟩
  · exact refl t
  · exact h.1 s

/-- A visible request can be performed on an equivalent state, where it leads to
an equivalent state and to the same program. -/
theorem Respects.next {p q : Program ρ β ω R} {s t s' : S} (h : p.Respects store E)
    (hE : E s s') (hnext : p.next store s = some (t, q)) :
    (∃ t', p.next store s' = some (t', q) ∧ E t t') ∧ q.Respects store E := by
  rcases next_eq_some.mp hnext with ⟨ref, completion, rfl, rfl, rfl⟩ | ⟨request, rfl, rfl⟩
  · obtain ⟨hcompletion, hrest⟩ := h
    refine ⟨⟨s', ?_, hE⟩, hrest _⟩
    rw [hcompletion t s' hE]
    rfl
  · exact ⟨⟨_, rfl, h.1 s s' hE⟩, h.2⟩

end Program

variable [DecidableEq ι] {store : Store ρ β ω S} {E : S → S → Prop}

/-- **Unwinding.**  Deleting the steps of the silent calls from a schedule leaves a
schedule of a system with the same visible calls over an equivalent store, and
both end in equivalent stores. -/
theorem unwinding (hE : Equivalence E) (visible : ι → Bool) {schedule : List ι}
    {sys t u : System ι ρ β ω R S}
    (hrun : Transition.run (advance store) sys schedule = some t)
    (hstore : E sys.store u.store)
    (same : ∀ i ∈ schedule, visible i → sys.calls i = u.calls i)
    (respects : ∀ i ∈ schedule, visible i → (sys.calls i).Respects store E)
    (silent : ∀ i ∈ schedule, ¬ visible i → (sys.calls i).Silent store E) :
    ∃ u', Transition.run (advance store) u (schedule.filter visible) = some u' ∧
      E t.store u'.store := by
  induction schedule generalizing sys u with
  | nil => cases hrun; exact ⟨u, rfl, hstore⟩
  | cons i schedule ih =>
      obtain ⟨sys', hstep, hrest⟩ := Transition.run_cons_eq_some.mp hrun
      obtain ⟨q, hnext, hcalls⟩ := advance_eq_some.mp hstep
      have tail : ∀ j ∈ schedule, j ∈ i :: schedule := fun j => List.mem_cons_of_mem i
      by_cases hi : visible i
      · -- a visible step is taken on both sides
        obtain ⟨⟨t', hnext', hstore'⟩, hq⟩ :=
          (respects i List.mem_cons_self hi).next hstore hnext
        rw [same i List.mem_cons_self hi] at hnext'
        have hstep' : advance store u i =
            some ⟨t', Function.update u.calls i q⟩ := advance_eq_some.mpr ⟨q, hnext', rfl⟩
        obtain ⟨u', hu', hend⟩ := ih (u := ⟨t', Function.update u.calls i q⟩) hrest hstore'
          (fun j hj hv => by
            show sys'.calls j = Function.update u.calls i q j
            rw [hcalls]
            by_cases hji : j = i
            · rw [hji, Function.update_self, Function.update_self]
            · rw [Function.update_of_ne hji, Function.update_of_ne hji]
              exact same j (tail j hj) hv)
          (fun j hj hv => by
            rw [hcalls]
            by_cases hji : j = i
            · rw [hji, Function.update_self]; exact hq
            · rw [Function.update_of_ne hji]; exact respects j (tail j hj) hv)
          (fun j hj hv => by
            have hji : j ≠ i := fun e => hv (e ▸ hi)
            rw [hcalls, Function.update_of_ne hji]
            exact silent j (tail j hj) hv)
        rw [List.filter_cons_of_pos hi]
        exact ⟨u', Transition.run_cons_eq_some.mpr ⟨_, hstep', hu'⟩, hend⟩
      · -- a silent step is dropped
        obtain ⟨hback, hq⟩ := (silent i List.mem_cons_self hi).next hE.refl hnext
        rw [List.filter_cons_of_neg hi]
        refine ih hrest (hE.trans hback hstore) (fun j hj hv => ?_) (fun j hj hv => ?_)
          (fun j hj hv => ?_)
        · have hji : j ≠ i := fun e => hi (e ▸ hv)
          rw [hcalls, Function.update_of_ne hji]
          exact same j (tail j hj) hv
        · have hji : j ≠ i := fun e => hi (e ▸ hv)
          rw [hcalls, Function.update_of_ne hji]
          exact respects j (tail j hj) hv
        · rw [hcalls]
          by_cases hji : j = i
          · rw [hji, Function.update_self]; exact hq
          · rw [Function.update_of_ne hji]; exact silent j (tail j hj) hv

/-- **Two interleavings with the same visible steps.**  The silent calls of the two
systems may differ in every respect. -/
theorem unwinding_of_filter_eq (hE : Equivalence E) {visible visible' : ι → Bool}
    {schedule schedule' : List ι} {sys sys' t t' : System ι ρ β ω R S}
    (hrun : Transition.run (advance store) sys schedule = some t)
    (hrun' : Transition.run (advance store) sys' schedule' = some t')
    (hstore : E sys'.store sys.store)
    (hfilter : schedule.filter visible = schedule'.filter visible')
    (same : ∀ i ∈ schedule', visible' i → sys'.calls i = sys.calls i)
    (respects : ∀ i, visible i → (sys.calls i).Respects store E)
    (respects' : ∀ i, visible' i → (sys'.calls i).Respects store E)
    (silent : ∀ i, ¬ visible i → (sys.calls i).Silent store E)
    (silent' : ∀ i, ¬ visible' i → (sys'.calls i).Silent store E) :
    E t.store t'.store := by
  obtain ⟨u, hu, hend⟩ := unwinding hE visible hrun (hE.refl _) (fun _ _ _ => rfl)
    (fun i _ => respects i) (fun i _ => silent i)
  obtain ⟨u', hu', hend'⟩ := unwinding hE visible' hrun' hstore same
    (fun i _ => respects' i) (fun i _ => silent' i)
  rw [← hfilter, hu, Option.some_inj] at hu'
  rw [← hu'] at hend'
  exact hE.trans hend (hE.symm hend')

end Request
