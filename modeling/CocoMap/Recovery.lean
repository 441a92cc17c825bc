import Mathlib.Data.Fintype.Basic
import Mathlib.Tactic.FinCases
import CocoMap.FieldIndependence
import CocoMap.Readable
import CocoMap.WellFormed

/-!
# Dissolving recovers from every pairing state

The pairing left by earlier operations can be any directed graph: one-sided pairs,
chains, rings, users who name themselves, partners without a document.  When every
user with a document runs `handlePartnerRemove`, in any interleaving, nobody has a
partner in the end.

While only these calls run, nobody gets a partner, so a field that is empty stays
empty.  `Recovering` says of each call where it is, and that its own document names
nobody once it is over; a call that reads an empty field has nothing left to do, and
one that reads a partner ends with the delete of its own field.
-/

namespace CocoMap

open Request Transition

universe u v

variable {ι : Type u} {κ : Type v}

/-- Where a `handlePartnerRemove` of `uid` is while only such calls run. -/
def Recovered (users : Collection) (uid : Uid) (task : Task) : Prop :=
  task = .read uid.string (partnerRemoveCompletion uid.string) ∨
    (∃ ref, task =
      .write (deletePartner ref) (.write (deletePartner uid.string) (.done none))) ∨
    task = .write (deletePartner uid.string) (.done none) ∨
    task = .done none ∧ ∀ p, ¬ Names users uid.string p

/-- The stored partners are paths, and every call is on its way to clear its own field. -/
structure Recovering (caller : κ → Uid) (sys : Calls κ) : Prop where
  readable : Readable sys.store
  calls : ∀ j, Recovered sys.store (caller j) (sys.calls j)

theorem recovering_concurrently {users : Collection} (h : Readable users) (caller : κ → Uid) :
    Recovering caller (concurrently users fun j => .partnerRemove (caller j)) where
  readable := h
  calls j := Or.inl (handlePartnerRemove_some (caller j))

/-- Nobody gets a partner by a delete. -/
theorem names_of_deletePartner {users : Collection} {ref a p : String}
    (h : Names ((deletePartner ref).perform users) a p) : Names users a p ∧ a ≠ ref := by
  obtain ⟨hp, hne⟩ := h
  rw [partnerOf_deletePartner] at hp
  split at hp
  · obtain ⟨_, -, rfl⟩ := Option.map_eq_some_iff.mp hp
    exact absurd rfl hne
  · rename_i ha
    exact ⟨⟨hp, hne⟩, ha⟩

theorem Recovered.deletePartner {users : Collection} {uid : Uid} {task : Task}
    (h : Recovered users uid task) (ref : String) :
    Recovered ((deletePartner ref).perform users) uid task := by
  rcases h with hread | hwrites | hwrite | ⟨hdone, hno⟩
  · exact Or.inl hread
  · exact Or.inr (Or.inl hwrites)
  · exact Or.inr (Or.inr (Or.inl hwrite))
  · exact Or.inr (Or.inr (Or.inr ⟨hdone, fun p hp => hno p (names_of_deletePartner hp).1⟩))

/-- The reply with the own document is followed by two deletes, or by nothing when
the document names nobody. -/
theorem recovered_reply {users : Collection} (h : Readable users) (uid : Uid) :
    Recovered users uid (partnerRemoveCompletion uid.string (some ⟨users uid.string⟩)) := by
  rw [partnerRemoveCompletion_eq]
  rcases names_cases users uid.string with hno | ⟨p, hnames, hdoc⟩ | ⟨p, ref, hnames, hdoc⟩
  · rw [followPartner_of_not_names hno]
    exact Or.inr (Or.inr (Or.inr ⟨rfl, hno⟩))
  · exact absurd hdoc (h _ p hnames)
  · rw [followPartner_of_names hnames hdoc]
    exact Or.inr (Or.inl ⟨ref, rfl⟩)

theorem Recovered.of_read {users : Collection} {uid : Uid} {ref : String}
    {completion : Option DocumentSnapshot → Task} (h : Recovered users uid (.read ref completion)) :
    ref = uid.string ∧ completion = partnerRemoveCompletion uid.string := by
  rcases h with hread | ⟨_, hwrite⟩ | hwrite | ⟨hdone, -⟩
  · cases hread
    exact ⟨rfl, rfl⟩
  · cases hwrite
  · cases hwrite
  · cases hdone

/-- A write deletes somebody's partner field, and the last one the caller's own. -/
theorem Recovered.of_write {users : Collection} {uid : Uid} {request : Write} {rest : Task}
    (h : Recovered users uid (.write request rest)) :
    ∃ ref, request = CocoMap.deletePartner ref ∧ Recovered (request.perform users) uid rest := by
  rcases h with hread | ⟨ref, hwrite⟩ | hwrite | ⟨hdone, -⟩
  · cases hread
  · cases hwrite
    exact ⟨ref, rfl, Or.inr (Or.inr (Or.inl rfl))⟩
  · cases hwrite
    exact ⟨uid.string, rfl,
      Or.inr (Or.inr (Or.inr ⟨rfl, fun p hp => (names_of_deletePartner hp).2 rfl⟩))⟩
  · cases hdone

/-- **The step lemma.** -/
theorem Recovering.step [DecidableEq κ] {caller : κ → Uid} {sys sys' : Calls κ} {j : κ}
    (h : Recovering caller sys) (hstep : serve sys j = some sys') : Recovering caller sys' := by
  rcases advance_cases hstep with
    ⟨ref, completion, hcall, hstore, hcalls⟩ | ⟨request, rest, hcall, hstore, hcalls⟩
  · -- a read: the call goes on with its own document
    obtain ⟨rfl, rfl⟩ := (hcall ▸ h.calls j).of_read
    refine ⟨hstore ▸ h.readable, ?_⟩
    rw [hstore, hcalls]
    refine (Function.forall_update_iff _ fun k task => Recovered sys.store (caller k) task).mpr ?_
    exact ⟨recovered_reply h.readable (caller j), fun k _ => h.calls k⟩
  · obtain ⟨ref, rfl, hrest⟩ := (hcall ▸ h.calls j).of_write
    rw [firestore_perform] at hstore
    refine ⟨hstore ▸ h.readable.deletePartner ref, ?_⟩
    rw [hstore, hcalls]
    refine (Function.forall_update_iff _ fun k task => Recovered
      ((deletePartner ref).perform sys.store) (caller k) task).mpr ?_
    exact ⟨hrest, fun k _ => (h.calls k).deletePartner ref⟩

/-- A call that is over has not raised, and its document names nobody. -/
theorem Recovered.of_finished {users : Collection} {uid : Uid} {task : Task}
    (h : Recovered users uid task) (finished : task.Finished) :
    task = .done none ∧ ∀ p, ¬ Names users uid.string p := by
  rcases h with rfl | ⟨_, rfl⟩ | rfl | hdone
  · exact finished.elim
  · exact finished.elim
  · exact finished.elim
  · exact hdone

/-- What the calls do not touch: the documents and all their other fields. -/
theorem agreeOn_partnerRemoves [DecidableEq κ] {users : Collection} {caller : κ → Uid}
    {schedule : List κ} {sys : Calls κ} {fields : List Field} (hpartner : Field.partner ∉ fields)
    (hrun : run serve (concurrently users fun j => .partnerRemove (caller j)) schedule = some sys) :
    AgreeOn fields users sys.store := by
  have hE := agreeOn_equivalence fields
  refine (everywhere_store (I := fun s => AgreeOn fields users s) (fun j => ?_) (hE.refl users)
    schedule).last hrun
  refine (partnerRemove_silent hpartner (caller j)).mono fun request hsilent s hs => ?_
  exact hE.trans hs (hE.symm (hsilent s))

/-- **Dissolving always recovers.**  From every collection a run of the app leaves, let
everybody with a document run `handlePartnerRemove`, interleaved in any order.  In the
end no call has raised, no document has a partner, nothing else has changed, and a
further `handlePartnerRemove` writes nothing. -/
theorem partnerRemove_recovers [DecidableEq ι] [DecidableEq κ] {ops : ι → Operation}
    {schedule : List ι} {start : Calls ι}
    (hstart : run serve (concurrently (fun _ => none) ops) schedule = some start)
    {caller : κ → Uid} (covers : ∀ ref, start.store ref ≠ none → ∃ j, (caller j).string = ref)
    {schedule' : List κ} {sys : Calls κ}
    (hrun : run serve (concurrently start.store fun j => .partnerRemove (caller j)) schedule' =
      some sys)
    (finished : ∀ j, (sys.calls j).Finished) :
    (∀ j, sys.calls j = .done none) ∧ (∀ ref p, partnerOf sys.store ref = some p → p = "") ∧
      AgreeOn [.email, .uid, .name, .lat, .lon] start.store sys.store ∧
      ∀ uid, (handlePartnerRemove (some uid)).written firestore sys.store = [] := by
  have hreadable : Readable start.store := (everywhere_readable ops schedule).last hstart
  have hend : Recovering caller sys :=
    run_invariant (fun _ _ _ _ h hstep => h.step hstep) (recovering_concurrently hreadable caller)
      hrun
  have hagree : AgreeOn [.email, .uid, .name, .lat, .lon] start.store sys.store :=
    agreeOn_partnerRemoves (by decide) hrun
  have hover : ∀ j, sys.calls j = .done none ∧ ∀ p, ¬ Names sys.store (caller j).string p :=
    fun j => (hend.calls j).of_finished (finished j)
  have hnobody : ∀ ref p, ¬ Names sys.store ref p := by
    intro ref p hnames
    have hdoc : sys.store ref ≠ none := by
      intro hnone
      rw [Names, partnerOf, userOf, hnone] at hnames
      cases hnames.1
    obtain ⟨j, rfl⟩ := covers ref fun hnone => hdoc ((agreeOn_iff.mp hagree ref).1.mp hnone)
    exact (hover j).2 p hnames
  refine ⟨fun j => (hover j).1, fun ref p hp => ?_, hagree, fun uid => ?_⟩
  · by_contra hne
    exact hnobody ref p ⟨hp, hne⟩
  · rw [handlePartnerRemove_some, Program.written_read, firestore_get, partnerRemoveCompletion_eq,
      followPartner_of_not_names (hnobody uid.string), Program.written_done]

/-- Alice enters Bob's code, then Carol does. -/
def twoSuitors : Fin 5 → Operation
  | 0 => .signUp (testForm "a@x" "Alice") (some alice)
  | 1 => .signUp (testForm "b@x" "Bob") (some bob)
  | 2 => .signUp (testForm "c@x" "Carol") (some carol)
  | 3 => .code alice (.ofScalars "bobby-7")
  | 4 => .code carol (.ofScalars "bobby-7")

/-- Everybody who signed up for it. -/
def members : Fin 3 → Uid
  | 0 => alice
  | 1 => bob
  | 2 => carol

/-- Alice, whose partner has another one, and the other two dissolve at the same time. -/
theorem partnerRemove_recovers_twoSuitors :
    ∃ (start : Calls (Fin 5)) (sys : Calls (Fin 3)),
      run serve (concurrently (fun _ => none) twoSuitors) [0, 1, 2, 3, 3, 4, 4] = some start ∧
        partnerOf start.store "alice-7" = some "bobby-7" ∧
        partnerOf start.store "bobby-7" = some "carol-7" ∧
      run serve (concurrently start.store fun j => .partnerRemove (members j))
          [0, 1, 2, 0, 2, 1, 1, 0, 2] = some sys ∧
        (∀ j, sys.calls j = .done none) ∧
        (∀ ref p, partnerOf sys.store ref = some p → p = "") ∧
        AgreeOn [.email, .uid, .name, .lat, .lon] start.store sys.store ∧
        ∀ uid, (handlePartnerRemove (some uid)).written firestore sys.store = [] := by
  obtain ⟨start, hstart, sys, hrun, ha, hb, hcalls⟩ : ∃ start,
      run serve (concurrently (fun _ => none) twoSuitors) [0, 1, 2, 3, 3, 4, 4] = some start ∧
      ∃ sys, run serve (concurrently start.store fun j => .partnerRemove (members j))
          [0, 1, 2, 0, 2, 1, 1, 0, 2] = some sys ∧
        partnerOf start.store "alice-7" = some "bobby-7" ∧
        partnerOf start.store "bobby-7" = some "carol-7" ∧ ∀ j, sys.calls j = .done none := by
    refine ⟨_, rfl, _, rfl, rfl, rfl, fun j => ?_⟩
    fin_cases j <;> rfl
  have covers : ∀ ref, start.store ref ≠ none → ∃ j, (members j).string = ref := by
    intro ref hdoc
    obtain ⟨i, uid, hcreated, rfl⟩ := exists_created_of_run hstart hdoc
    fin_cases i
    · cases hcreated; exact ⟨0, rfl⟩
    · cases hcreated; exact ⟨1, rfl⟩
    · cases hcreated; exact ⟨2, rfl⟩
    · cases hcreated
    · cases hcreated
  exact ⟨start, sys, hstart, ha, hb, hrun,
    partnerRemove_recovers hstart covers hrun fun j => by rw [hcalls]; trivial⟩

end CocoMap
