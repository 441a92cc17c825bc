import CocoMap.Interleaved

/-!
# Whose partnership is dissolved

`handlePartnerRemove` reads the caller's document and then clears the partner
field of the document named there, whatever that field holds by then.

* `Harmless` — whichever dissolving call is served next, the field it clears in
  somebody else's document holds the caller or nobody;
* `Considerate` — what it takes: a dissolving call reads the caller's document only
  while the pairing there is not one-sided, and no `handleCode` stores another
  partner in a document that a dissolving call is about to clear.

`everywhere_harmless_iff` shows that the two are the same along every run.
-/

namespace CocoMap

open Request Transition

universe u

variable {ι : Type u}

/-- A partner field whose loss is the user's own affair. -/
def OwnOrNone (uid : Uid) (p : String) : Prop := p = uid.string ∨ p = ""

/-- Whichever call is served next, a `handlePartnerRemove` of `uid` that deletes the
partner field of another existing document finds `uid` or nothing in it. -/
def Harmless (ops : ι → Operation) (sys : Calls ι) : Prop :=
  ∀ i uid ref rest p, ops i = .partnerRemove uid → sys.calls i = .write (deletePartner ref) rest →
    ref ≠ uid.string → partnerOf sys.store ref = some p → OwnOrNone uid p

/-- What a request must not do, in the state before it is served: the read of a
`handlePartnerRemove`, return a one-sided pairing with somebody else; a write of a
`handleCode`, store another partner in an existing document that a
`handlePartnerRemove` of somebody else is about to clear. -/
def Considerate (ops : ι → Operation) (sys : Calls ι) (i : ι) : Prop :=
  (∀ uid p ref q, ops i = .partnerRemove uid →
    sys.calls i = .read uid.string (partnerRemoveCompletion uid.string) →
    Names sys.store uid.string p → document p = some ref → ref ≠ uid.string →
    partnerOf sys.store ref = some q → OwnOrNone uid q) ∧
  ∀ ref partner rest, sys.calls i = .write (setPartner ref partner) rest →
    ∀ j uid rest', ops j = .partnerRemove uid → sys.calls j = .write (deletePartner ref) rest' →
      ref ≠ uid.string → partnerOf sys.store ref ≠ none → OwnOrNone uid partner

/-- The reply to a `handlePartnerRemove` makes it clear the document named there. -/
theorem partnerRemoveCompletion_eq_write {users : Collection} {a ref : String} {rest : Task} :
    partnerRemoveCompletion a (some ⟨users a⟩) = .write (deletePartner ref) rest ↔
      rest = .write (deletePartner a) (.done none) ∧
        ∃ p, Names users a p ∧ document p = some ref := by
  rw [partnerRemoveCompletion_eq, followPartner_eq_iff (by simp) (by simp)]
  constructor
  · rintro ⟨p, ref', hnames, hdoc, hwrite⟩
    rw [Program.write.injEq, deletePartner, deletePartner, Write.updateData.injEq] at hwrite
    obtain ⟨⟨rfl, -⟩, rfl⟩ := hwrite
    exact ⟨rfl, p, hnames, hdoc⟩
  · rintro ⟨rfl, p, hnames, hdoc⟩
    exact ⟨p, ref, hnames, hdoc, rfl⟩

theorem harmless_concurrently (users : Collection) (ops : ι → Operation) :
    Harmless ops (concurrently users ops) := by
  intro i uid ref rest p hop hcall
  have htask : (ops i).task = .write (deletePartner ref) rest := hcall
  rw [hop, Operation.task, handlePartnerRemove_some] at htask
  cases htask

section Step

variable [DecidableEq ι] {ops : ι → Operation} {sys sys' : Calls ι} {i : ι}

theorem harmless_read_iff (hstart : Started ops sys) (hharmless : Harmless ops sys)
    {ref : String} {completion : Option DocumentSnapshot → Task}
    (hcall : sys.calls i = .read ref completion) (hstore : sys'.store = sys.store)
    (hcalls : sys'.calls =
      Function.update sys.calls i (completion (firestore.get sys.store ref))) :
    Harmless ops sys' ↔ Considerate ops sys i := by
  constructor
  · intro hh
    refine ⟨fun uid p ref' q hop hread hnames hdoc hne hq => ?_, fun _ _ _ hwrite => ?_⟩
    · rw [hcall, Program.read.injEq] at hread
      obtain ⟨rfl, rfl⟩ := hread
      have hnext : sys'.calls i =
          .write (deletePartner ref') (.write (deletePartner uid.string) (.done none)) := by
        rw [hcalls, Function.update_self, firestore_get]
        exact partnerRemoveCompletion_eq_write.mpr ⟨rfl, p, hnames, hdoc⟩
      exact hh i uid ref' _ q hop hnext hne (hstore ▸ hq)
    · rw [hcall] at hwrite
      cases hwrite
  · rintro ⟨hmutual, -⟩ j uid ref' rest q hop hnext hne hq
    rw [hstore] at hq
    rcases eq_or_ne j i with rfl | hji
    · rw [hcalls, Function.update_self, firestore_get] at hnext
      have hleft := hstart j
      rw [hop, Operation.task, hcall] at hleft
      rcases remains_partnerRemove hleft with hread | hread | hread | ⟨_, hread⟩ | hread
      · cases hread
        obtain ⟨-, p, hnames, hdoc⟩ := partnerRemoveCompletion_eq_write.mp hnext
        exact hmutual uid p ref' q hop hcall hnames hdoc hne hq
      · cases hread
      · cases hread
      · cases hread
      · cases hread
    · rw [hcalls, Function.update_of_ne hji] at hnext
      exact hharmless j uid ref' rest q hop hnext hne hq

theorem harmless_write_iff (hstart : Started ops sys) (hharmless : Harmless ops sys)
    {request : Write} {rest : Task} (hcall : sys.calls i = .write request rest)
    (hstore : sys'.store = request.perform sys.store)
    (hcalls : sys'.calls = Function.update sys.calls i rest) :
    Harmless ops sys' ↔ Considerate ops sys i := by
  constructor
  · intro hh
    refine ⟨fun uid p ref' q hop hread => ?_, ?_⟩
    · rw [hcall] at hread
      cases hread
    · intro ref partner rest₁ hwrite j uid rest₂ hop hnext hne hexists
      rw [hcall, Program.write.injEq] at hwrite
      obtain ⟨rfl, rfl⟩ := hwrite
      have hji : j ≠ i := by
        rintro rfl
        rw [hcall, Program.write.injEq, setPartner, deletePartner] at hnext
        simp at hnext
      refine hh j uid ref rest₂ partner hop ?_ hne ?_
      · rw [hcalls, Function.update_of_ne hji, hnext]
      · obtain ⟨old, hold⟩ := Option.ne_none_iff_exists'.mp hexists
        rw [hstore, partnerOf_setPartner, if_pos rfl, hold, Option.map_some]
  · rintro ⟨-, hkept⟩ j uid ref rest' p hop hnext hne hp
    rw [hstore] at hp
    rcases eq_or_ne j i with rfl | hji
    · -- after the first delete only the caller's own document is left to clear
      rw [hcalls, Function.update_self] at hnext
      have hleft := hstart j
      rw [hop, Operation.task, hcall] at hleft
      rcases remains_partnerRemove hleft with hw | hw | hw | ⟨_, hw⟩ | hw
      · cases hw
      · cases hw
      · cases hw
      · cases hw
        rw [Program.write.injEq, deletePartner, deletePartner, Write.updateData.injEq] at hnext
        exact absurd hnext.1.1.symm hne
      · cases hw
        cases hnext
    · rw [hcalls, Function.update_of_ne hji] at hnext
      have hold := hharmless j uid ref rest' p hop hnext hne
      -- of the app's writes only that of a partner can put somebody into the field
      cases hstart.ofApp hcall with
      | signUp r email username uid' =>
          rw [partnerOf_signUp] at hp
          split at hp
          · exact Or.inr (Option.some.inj hp).symm
          · exact hold hp
      | setPartner r partner =>
          rw [partnerOf_setPartner] at hp
          split at hp
          · rename_i href
            subst href
            obtain ⟨old, hexists, rfl⟩ := Option.map_eq_some_iff.mp hp
            exact hkept ref partner rest hcall j uid rest' hop hnext hne (by simp [hexists])
          · exact hold hp
      | deletePartner r =>
          rw [partnerOf_deletePartner] at hp
          split at hp
          · obtain ⟨_, -, rfl⟩ := Option.map_eq_some_iff.mp hp
            exact Or.inr rfl
          · exact hold hp
      | delete r =>
          rw [partnerOf_delete] at hp
          split at hp
          · cases hp
          · exact hold hp
      | setLocation r lat lon =>
          rw [partnerOf_setLocation] at hp
          exact hold hp

/-- A step from a harmless state leads to a harmless state exactly when it is
considerate. -/
theorem harmless_step_iff (hstart : Started ops sys) (hharmless : Harmless ops sys)
    (hstep : serve sys i = some sys') : Harmless ops sys' ↔ Considerate ops sys i := by
  rcases advance_cases hstep with
    ⟨ref, completion, hcall, hstore, hcalls⟩ | ⟨request, rest, hcall, hstore, hcalls⟩
  · exact harmless_read_iff hstart hharmless hcall hstore hcalls
  · exact harmless_write_iff hstart hharmless hcall hstore hcalls

end Step

/-- **Dissolving a partnership never dissolves somebody else's exactly along the
runs whose steps are all considerate.** -/
theorem everywhere_harmless_iff [DecidableEq ι] (users : Collection) (ops : ι → Operation)
    (schedule : List ι) :
    Everywhere serve (Harmless ops) (concurrently users ops) schedule ↔
      EachStep serve (Considerate ops) (concurrently users ops) schedule :=
  everywhere_iff_eachStep_of_invariant (J := Started ops) (fun _ _ _ h hstep => h.serve hstep)
    (fun _ _ _ hstart hharmless hstep => harmless_step_iff hstart hharmless hstep)
    (started_concurrently users ops) (harmless_concurrently users ops)

/-- Alice pairs with Bob, Carol enters Bob's code, and Alice dissolves. -/
def removeAfterRePairing : Fin 6 → Operation
  | 0 => .signUp (testForm "a@x" "Alice") (some alice)
  | 1 => .signUp (testForm "b@x" "Bob") (some bob)
  | 2 => .signUp (testForm "c@x" "Carol") (some carol)
  | 3 => .code alice (.ofScalars "bobby-7")
  | 4 => .code carol (.ofScalars "bobby-7")
  | 5 => .partnerRemove alice

/-- One operation after the other, and Alice is about to clear the partner field of
Bob, who is Carol's partner. -/
theorem not_everywhere_harmless :
    ¬ Everywhere serve (Harmless removeAfterRePairing)
      (concurrently (fun _ => none) removeAfterRePairing) [0, 1, 2, 3, 3, 4, 4, 5] := by
  intro h
  obtain ⟨sys, hrun, rest, hcall, hpartner⟩ : ∃ sys,
      run serve (concurrently (fun _ => none) removeAfterRePairing) [0, 1, 2, 3, 3, 4, 4, 5] =
        some sys ∧ ∃ rest, sys.calls 5 = .write (deletePartner "bobby-7") rest ∧
        partnerOf sys.store "bobby-7" = some "carol-7" := ⟨_, rfl, _, rfl, rfl⟩
  have hcleared := h.last hrun 5 alice "bobby-7" rest "carol-7" rfl hcall
    (by decide) hpartner
  rcases hcleared with h | h
  · exact absurd h (by decide)
  · exact absurd h (by decide)

end CocoMap
