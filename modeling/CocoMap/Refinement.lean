import CocoMap.Lib.Pairing
import CocoMap.Matching

/-!
# Properly used, the collection is a registry of users and disjoint couples

A `Registry` is what the app is for: the registered users with their name, email
and location, and a set of disjoint couples, each with a registered member.
`Registry.Step` says what each operation is meant to do to it.

A run is *proper* when every `handleCode` is called by a user with a document and
no partner, with the uid of another such user.  Along proper runs the collection
represents a registry (`Couples`, `World.registry`): each couple is stored in the
documents of its members, in both or in the one that is left, and "no partner" is
stored in two ways, as `""` and as an absent field.  `registry_refines` is the
simulation.
-/

namespace CocoMap

open Request Transition

/-! ## The abstract model -/

/-- Registered users, and disjoint couples with at least one registered member. -/
structure Registry where
  registered : String → Option Profile
  couples : Pairing String
  inhabited : ∀ a b, s(a, b) ∈ couples.pairs → registered a ≠ none ∨ registered b ≠ none

namespace Registry

/-- Nobody is registered. -/
def init : Registry where
  registered := fun _ => none
  couples := .empty
  inhabited _ _ h := absurd h (Set.notMem_empty _)

theorem ext {r r' : Registry} (registered : r'.registered = r.registered)
    (pairs : r'.couples.pairs = r.couples.pairs) : r' = r := by
  obtain ⟨reg, c, i⟩ := r
  obtain ⟨reg', c', i'⟩ := r'
  cases registered
  cases Pairing.ext pairs
  rfl

/-- What each operation is meant to do. -/
def Step (r : Registry) (op : Operation) (r' : Registry) : Prop :=
  match op with
  | .signUp form createUser =>
      match form.submitted, createUser with
      | some (email, username, _), some uid =>
          -- one more user, in no couple
          r.registered uid.string = none ∧ r.couples.Free uid.string ∧
            r'.registered = Function.update r.registered uid.string
              (some ⟨username, email, tokyoLatitude, tokyoLongitude⟩) ∧
            r'.couples = r.couples
      | _, _ => r' = r
  | .code uid text =>
      -- exactly one more couple
      ∃ (hne : uid.string ≠ text.string) (ha : r.couples.Free uid.string)
        (hb : r.couples.Free text.string), r'.registered = r.registered ∧
          r'.couples = r.couples.couple uid.string text.string hne ha hb
  | .partnerRemove uid =>
      -- the caller's couple goes, if the caller is registered
      r'.registered = r.registered ∧
        (r.registered uid.string ≠ none → r'.couples = r.couples.separate uid.string) ∧
        (r.registered uid.string = none → r'.couples = r.couples)
  | .withdraw uid =>
      -- the caller goes, and a couple with it once nobody in it is left
      r'.registered = Function.update r.registered uid.string none ∧
        r'.couples = r.couples.keep fun p => ∃ a ∈ p, r'.registered a ≠ none
  | .updateLocations uid locations =>
      -- the caller moves to one of the locations delivered
      r'.couples = r.couples ∧
        (locations = [] ∧ r'.registered = r.registered ∨
          ∃ location ∈ locations, r'.registered = Function.update r.registered uid.string
            ((r.registered uid.string).map fun profile =>
              { profile with latitude := location.latitude, longitude := location.longitude }))
  | .poll _ => r' = r

end Registry

/-! ## The representation -/

/-- The collection stores couples: the halves mirror each other, nobody is named
twice, and every document belongs to an account. -/
structure Couples (w : World) : Prop where
  matched : PartnersMatched w
  injective : ∀ a b p, Names w.users a p → Names w.users b p → a = b
  owned : ∀ ref, partnerOf w.users ref ≠ none → w.SignedUp ref

theorem World.SignedUp.ne_empty {w : World} {s : String} (h : w.SignedUp s) : s ≠ "" := by
  obtain ⟨uid, -, rfl⟩ := h
  exact uid.ne_empty

namespace Couples

variable {w : World}

theorem mirror (h : Couples w) (a b c : String) (hab : Names w.users a b)
    (hbc : Names w.users b c) : c = a :=
  (h.matched a b hab).2.2 c hbc.1

/-- A partner with a document names back. -/
theorem names_back (h : Couples w) {a b : String} (hab : Names w.users a b)
    (hb : partnerOf w.users b ≠ none) : Names w.users b a := by
  obtain ⟨q, hq⟩ := Option.ne_none_iff_exists'.mp hb
  have hqa : q = a := (h.matched a b hab).2.2 q hq
  have ha : a ≠ "" := (h.owned a (by rw [hab.1]; simp)).ne_empty
  exact ⟨hqa ▸ hq, ha⟩

/-- Nobody names a user whose document has no partner. -/
theorem not_names_of_unpaired (h : Couples w) {a b : String}
    (hb : partnerOf w.users b = some "") : ¬ Names w.users a b := by
  intro hab
  have hback := h.names_back hab (by rw [hb]; simp)
  rw [Names, hb] at hback
  exact hback.2 (Option.some.inj hback.1).symm

end Couples

theorem couples_init : Couples World.init where
  matched := partnersMatched_init
  injective a b p ha := absurd ha.1 (by simp [World.init])
  owned ref h := absurd h (by simp [World.init])

/-- The registry a collection stores. -/
def World.registry (w : World) (h : Couples w) : Registry where
  registered := profileOf w.users
  couples := .ofNames (fun a p hap => (h.matched a p hap).1)
    (fun _ _ _ => Names.functional) (fun a b p => h.injective a b p) h.mirror
  inhabited a b hab := by
    rw [ne_eq, ne_eq, profileOf_eq_none, profileOf_eq_none]
    rcases Pairing.mem_namedPairs.mp hab with h | h
    · exact Or.inl (by rw [h.1]; simp)
    · exact Or.inr (by rw [h.1]; simp)

@[simp] theorem World.registered_registry (w : World) (h : Couples w) :
    (w.registry h).registered = profileOf w.users := rfl

@[simp] theorem World.pairs_registry (w : World) (h : Couples w) :
    (w.registry h).couples.pairs = Pairing.namedPairs (Names w.users) := rfl

theorem free_registry {w : World} (h : Couples w) {a : String}
    (named : ∀ b, ¬ Names w.users b a) (names : ∀ b, ¬ Names w.users a b) :
    (w.registry h).couples.Free a := by
  intro b hb
  rcases Pairing.mem_namedPairs.mp hb with hab | hba
  · exact names b hab
  · exact named b hba

/-- The calls of `handleCode` the app is made for: a user with a document and no
partner types the uid of another one. -/
def Proper (w : World) : Operation → Prop
  | .code uid text =>
      partnerOf w.users uid.string = some "" ∧ text.string ≠ uid.string ∧
        partnerOf w.users text.string = some ""
  | _ => True

instance (w : World) (op : Operation) : Decidable (Proper w op) := by
  cases op with
  | code uid text => exact inferInstanceAs (Decidable (_ ∧ _ ∧ _))
  | _ => exact instDecidableTrue

/-- Proper calls are careful. -/
theorem Proper.careful {w : World} (h : Couples w) {op : Operation} (hproper : Proper w op) :
    Careful w op := by
  cases op with
  | code uid text =>
      obtain ⟨hu, hne, ht⟩ := hproper
      have hsigned : w.SignedUp text.string := h.owned _ (by rw [ht]; simp)
      intro codeRef hdoc
      have hsame : text.string = codeRef :=
        Option.some.inj (hsigned.document_eq.symm.trans hdoc)
      subst hsame
      exact ⟨fun _ => ⟨hne, hsigned⟩, fun a _ _ =>
        ⟨fun hn => absurd hn (h.not_names_of_unpaired hu),
          fun hn => absurd hn (h.not_names_of_unpaired ht)⟩⟩
  | _ => trivial

/-! ## Who names whom after a step -/

/-- If nobody starts to name anybody and no document appears without an account,
the collection still stores couples. -/
theorem Couples.of_subset {w w' : World} (h : Couples w) (matched : PartnersMatched w')
    (subset : ∀ a p, Names w'.users a p → Names w.users a p)
    (owned : ∀ ref, partnerOf w'.users ref ≠ none → w'.SignedUp ref) : Couples w' where
  matched := matched
  injective a b p ha hb := h.injective a b p (subset a p ha) (subset b p hb)
  owned := owned

section Steps

variable {w w' : World}

theorem names_of_signUp (h : Couples w) {form : SignUpForm} {createUser : Option Uid}
    {email username : String} {uid : Uid}
    (hstep : w.step (.signUp form createUser) = some w')
    (hcreated : (Operation.signUp form createUser).created = some uid)
    (htask : handleSignUp form createUser =
      .write (.setData uid.string (signUpDocument email username uid.string)) (.done none)) :
    partnerOf w.users uid.string = none ∧
      w'.users = (Write.setData uid.string
        (signUpDocument email username uid.string)).perform w.users ∧
      ∀ a p, Names w'.users a p ↔ Names w.users a p := by
  have husers := World.users_of_step hstep
  rw [Operation.task, htask, Program.run_write, Program.run_done, firestore_perform] at husers
  have hnone : partnerOf w.users uid.string = none := by
    by_contra hsome
    exact World.not_signedUp_of_created hstep hcreated (h.owned _ hsome)
  refine ⟨hnone, husers, fun a p => ?_⟩
  rw [Names, Names, husers, partnerOf_signUp]
  by_cases ha : a = uid.string
  · rw [if_pos ha, ha, hnone]
    simp
  · rw [if_neg ha]

theorem names_of_code (h : Couples w) {uid : Uid} {text : FieldText}
    (hproper : Proper w (.code uid text)) (hstep : w.step (.code uid text) = some w')
    (a p : String) :
    Names w'.users a p ↔ Names w.users a p ∨ (a = uid.string ∧ p = text.string) ∨
      (a = text.string ∧ p = uid.string) := by
  obtain ⟨hu, hne, ht⟩ := hproper
  have hsigned : w.SignedUp text.string := h.owned _ (by rw [ht]; simp)
  rw [Names, Names, partnerOf_step_code hsigned.document_eq hstep]
  by_cases hau : a = uid.string
  · -- the caller, who had no partner
    have htext := hsigned.ne_empty
    rw [if_pos hau, hau, hu]
    simp only [Option.map_some, Option.some_inj]
    grind
  · rw [if_neg hau]
    by_cases hat : a = text.string
    · -- the user whose code was typed, who had none either
      have huid := uid.ne_empty
      rw [if_pos hat, hat, ht]
      simp only [Option.map_some, Option.some_inj]
      grind
    · rw [if_neg hat]
      grind

theorem names_of_partnerRemove (h : Couples w) {uid : Uid} {p : String}
    (hown : Names w.users uid.string p) (hstep : w.step (.partnerRemove uid) = some w')
    (a q : String) :
    Names w'.users a q ↔ Names w.users a q ∧ a ≠ uid.string ∧ a ≠ p := by
  have hdoc : document p = some p := (h.matched _ _ hown).2.1.document_eq
  rw [Names, Names, partnerOf_step_partnerRemove hown hdoc hstep]
  by_cases ha : a = uid.string ∨ a = p
  · rw [if_pos ha, Option.map_eq_some_iff]
    grind
  · rw [if_neg ha]
    grind

theorem names_of_withdraw {uid : Uid} (hstep : w.step (.withdraw uid) = some w')
    (a q : String) : Names w'.users a q ↔ Names w.users a q ∧ a ≠ uid.string := by
  rw [Names, Names, partnerOf_step_withdraw hstep]
  by_cases ha : a = uid.string
  · simp [ha]
  · simp [ha]

/-- An operation that leaves every decoded partner alone leaves the couples alone. -/
theorem Couples.of_partnerOf_eq (h : Couples w) (matched : PartnersMatched w') {op : Operation}
    (hstep : w.step op = some w')
    (same : ∀ ref, partnerOf w'.users ref = partnerOf w.users ref) : Couples w' :=
  h.of_subset matched (fun a p hn => by rwa [Names, same] at hn)
    fun ref href => (h.owned ref (by rwa [same] at href)).of_step hstep

/-! ## Every proper step is simulated -/

/-- A step that changes no document is simulated by the abstract step that changes
nothing. -/
theorem registry_eq_of_users_eq (h : Couples w) (h' : Couples w') (same : w'.users = w.users) :
    w'.registry h' = w.registry h := by
  refine Registry.ext ?_ ?_
  · rw [World.registered_registry, World.registered_registry, same]
  · rw [World.pairs_registry, World.pairs_registry, same]

theorem simulates_signUp (h : Couples w) (matched : PartnersMatched w') {form : SignUpForm}
    {createUser : Option Uid} (hstep : w.step (.signUp form createUser) = some w') :
    ∃ h', (w.registry h).Step (.signUp form createUser) (w'.registry h') := by
  rcases signUp_cases form createUser with
    ⟨hcreated, htask⟩ | ⟨email, username, password, uid, hform, hcreated, htask⟩
  · have husers := World.users_of_step hstep
    rw [Operation.task, htask, Program.run_done] at husers
    have h' := h.of_partnerOf_eq matched hstep fun ref => by rw [husers]
    refine ⟨h', ?_⟩
    have hsame := registry_eq_of_users_eq h h' husers
    unfold Registry.Step
    cases hform : form.submitted with
    | none => simpa only [hform] using hsame
    | some texts =>
        have hcreate : createUser = none := by simpa [Operation.created, hform] using hcreated
        simpa only [hform, hcreate] using hsame
  · obtain ⟨hnone, husers, hnames⟩ := names_of_signUp h hstep hcreated htask
    have huid : createUser = some uid := by
      simpa [Operation.created, hform] using hcreated
    have h' : Couples w' := by
      refine h.of_subset matched (fun a p => (hnames a p).mp) fun ref href => ?_
      rw [husers, partnerOf_signUp] at href
      by_cases hr : ref = uid.string
      · obtain ⟨-, -, haccounts⟩ := World.step_eq_some.mp hstep
        exact ⟨uid, by rw [haccounts, hcreated]; simp, hr.symm⟩
      · rw [if_neg hr] at href
        exact (h.owned ref href).of_step hstep
    refine ⟨h', ?_⟩
    have hfree : (w.registry h).couples.Free uid.string := by
      refine free_registry h (fun b hb => ?_) fun b hb => ?_
      · exact World.not_signedUp_of_created hstep hcreated (h.matched b _ hb).2.1
      · rw [Names, hnone] at hb
        exact absurd hb.1 (by simp)
    unfold Registry.Step
    simp only [hform, huid]
    refine ⟨profileOf_eq_none.mpr hnone, hfree, ?_, ?_⟩
    · funext ref
      rw [World.registered_registry, husers, profileOf_signUp, World.registered_registry,
        Function.update_apply]
    · refine Pairing.ext (Set.ext fun pair => ?_)
      rw [World.pairs_registry, World.pairs_registry]
      simp only [Pairing.namedPairs, Set.mem_ofPred_eq, hnames]

theorem simulates_code (h : Couples w) (matched : PartnersMatched w') {uid : Uid}
    {text : FieldText} (hproper : Proper w (.code uid text))
    (hstep : w.step (.code uid text) = some w') :
    ∃ h', (w.registry h).Step (.code uid text) (w'.registry h') := by
  have hnames := names_of_code h hproper hstep
  obtain ⟨hu, hne, ht⟩ := hproper
  have hsigned : w.SignedUp text.string := h.owned _ (by rw [ht]; simp)
  have husers := World.users_of_step hstep
  rw [Operation.task, handleCode_eq hsigned.document_eq, Program.run_write, Program.run_write,
    Program.run_done, firestore_perform, firestore_perform] at husers
  have hnobody : ∀ b, partnerOf w.users b = some "" → ∀ c, ¬ Names w.users b c := by
    intro b hb c hn
    rw [Names, hb] at hn
    exact hn.2 (Option.some.inj hn.1).symm
  have h' : Couples w' := by
    refine ⟨matched, fun a b p ha hb => ?_, fun ref href => ?_⟩
    · -- nobody named one of the two before, so the new halves meet no old one
      have hoff : ∀ c, ¬ (Names w.users c uid.string ∨ Names w.users c text.string) := by
        rintro c (hc | hc)
        · exact h.not_names_of_unpaired hu hc
        · exact h.not_names_of_unpaired ht hc
      rw [hnames] at ha hb
      have hinj := h.injective a b p
      have hoffa := hoff a
      have hoffb := hoff b
      grind
    · have hold : partnerOf w.users ref ≠ none := by
        rw [← profileOf_ne_none, husers, profileOf_setPartner, profileOf_setPartner,
          profileOf_ne_none] at href
        exact href
      exact (h.owned ref hold).of_step hstep
  refine ⟨h', fun e => hne e.symm, ?_, ?_, ?_, ?_⟩
  · exact free_registry h (fun b => h.not_names_of_unpaired hu) (hnobody _ hu)
  · exact free_registry h (fun b => h.not_names_of_unpaired ht) (hnobody _ ht)
  · funext ref
    rw [World.registered_registry, husers, profileOf_setPartner, profileOf_setPartner,
      World.registered_registry]
  · refine Pairing.ext (Set.ext fun pair => ?_)
    rw [World.pairs_registry, Pairing.pairs_couple, Set.mem_insert_iff, World.pairs_registry]
    induction pair with
    | h a b =>
        rw [Pairing.mem_namedPairs, Pairing.mem_namedPairs, hnames, hnames, Sym2.eq_iff]
        grind

theorem simulates_partnerRemove (h : Couples w) (matched : PartnersMatched w') {uid : Uid}
    (hstep : w.step (.partnerRemove uid) = some w') :
    ∃ h', (w.registry h).Step (.partnerRemove uid) (w'.registry h') := by
  by_cases hpair : ∃ p, Names w.users uid.string p
  · obtain ⟨p, hown⟩ := hpair
    have hnames := names_of_partnerRemove h hown hstep
    have hdoc : document p = some p := (h.matched _ _ hown).2.1.document_eq
    have husers := World.users_of_step hstep
    rw [Operation.task, run_partnerRemove_of_names hown hdoc] at husers
    have hprofile : profileOf w'.users = profileOf w.users := by
      funext ref
      rw [husers, profileOf_deletePartner, profileOf_deletePartner]
    have h' : Couples w' := by
      refine h.of_subset matched (fun a q hn => ((hnames a q).mp hn).1) fun ref href => ?_
      rw [← profileOf_ne_none, hprofile, profileOf_ne_none] at href
      exact (h.owned ref href).of_step hstep
    refine ⟨h', by rw [World.registered_registry, World.registered_registry, hprofile],
      fun _ => ?_, fun hreg => ?_⟩
    · refine Pairing.ext (Set.ext fun pair => ?_)
      rw [World.pairs_registry, Pairing.separate, Pairing.pairs_keep, World.pairs_registry]
      induction pair with
      | h a b =>
          rw [Set.mem_ofPred_eq, Pairing.mem_namedPairs, Pairing.mem_namedPairs, hnames, hnames,
            Sym2.mem_iff]
          -- who names the caller is its partner, and who its partner names is the caller
          have hmirror := h.mirror
          have hfun : ∀ q, Names w.users uid.string q → q = p := fun q hq => hq.functional hown
          grind
    · rw [World.registered_registry, profileOf_eq_none, hown.1] at hreg
      exact absurd hreg (by simp)
  · -- no document, or no partner in it: nothing is written
    have hno : ∀ p, ¬ Names w.users uid.string p := fun p hp => hpair ⟨p, hp⟩
    have husers := users_step_partnerRemove hno hstep
    have h' := h.of_partnerOf_eq matched hstep fun ref => by rw [husers]
    have hsame := registry_eq_of_users_eq h h' husers
    refine ⟨h', by rw [hsame], fun hreg => ?_, fun _ => by rw [hsame]⟩
    have hempty : partnerOf w.users uid.string = some "" := by
      obtain ⟨p, hp⟩ := Option.ne_none_iff_exists'.mp (profileOf_ne_none.mp hreg)
      by_cases hne : p = ""
      · rw [hp, hne]
      · exact absurd ⟨hp, hne⟩ (hno p)
    rw [hsame, Pairing.separate_of_free]
    exact free_registry h (fun b => h.not_names_of_unpaired hempty) hno

theorem simulates_withdraw (h : Couples w) (matched : PartnersMatched w') {uid : Uid}
    (hstep : w.step (.withdraw uid) = some w') :
    ∃ h', (w.registry h).Step (.withdraw uid) (w'.registry h') := by
  have hnames := names_of_withdraw hstep
  have husers := World.users_of_step hstep
  rw [Operation.task, handleWithdraw_some, Program.run_write, Program.run_done,
    firestore_perform] at husers
  have h' : Couples w' := by
    refine h.of_subset matched (fun a q hn => ((hnames a q).mp hn).1) fun ref href => ?_
    rw [husers, partnerOf_delete] at href
    by_cases hr : ref = uid.string
    · rw [if_pos hr] at href
      exact absurd rfl href
    · rw [if_neg hr] at href
      exact (h.owned ref href).of_step hstep
  have hregistered : ∀ ref, (w'.registry h').registered ref ≠ none ↔
      ref ≠ uid.string ∧ partnerOf w.users ref ≠ none := by
    intro ref
    rw [World.registered_registry, husers, profileOf_delete]
    by_cases hr : ref = uid.string
    · simp [hr]
    · rw [if_neg hr, ne_eq, profileOf_eq_none]
      simp [hr]
  refine ⟨h', ?_, ?_⟩
  · funext ref
    rw [World.registered_registry, husers, profileOf_delete, World.registered_registry,
      Function.update_apply]
  · refine Pairing.ext (Set.ext fun pair => ?_)
    rw [World.pairs_registry, Pairing.pairs_keep, World.pairs_registry]
    induction pair with
    | h a b =>
        rw [Set.mem_ofPred_eq, Pairing.mem_namedPairs, Pairing.mem_namedPairs, hnames, hnames]
        simp only [Sym2.mem_iff, hregistered]
        constructor
        · rintro (⟨hab, ha⟩ | ⟨hba, hb⟩)
          · exact ⟨Or.inl hab, a, Or.inl rfl, ha, by rw [hab.1]; simp⟩
          · exact ⟨Or.inr hba, b, Or.inr rfl, hb, by rw [hba.1]; simp⟩
        · -- whoever is left of the couple names the other one
          rintro ⟨hpair, c, rfl | rfl, hc, hdoc⟩
          · rcases hpair with hcb | hbc
            · exact Or.inl ⟨hcb, hc⟩
            · exact Or.inl ⟨h.names_back hbc hdoc, hc⟩
          · rcases hpair with hac | hca
            · exact Or.inr ⟨h.names_back hac hdoc, hc⟩
            · exact Or.inr ⟨hca, hc⟩

theorem simulates_updateLocations (h : Couples w) (matched : PartnersMatched w') {uid : Uid}
    {locations : List CLLocationCoordinate2D}
    (hstep : w.step (.updateLocations uid locations) = some w') :
    ∃ h', (w.registry h).Step (.updateLocations uid locations) (w'.registry h') := by
  have husers := World.users_of_step hstep
  have hpartner := partnerOf_step_updateLocations hstep
  have h' := h.of_partnerOf_eq matched hstep hpartner
  refine ⟨h', ?_, ?_⟩
  · refine Pairing.ext (Set.ext fun pair => ?_)
    rw [World.pairs_registry, World.pairs_registry]
    simp only [Pairing.namedPairs, Names, hpartner]
  · cases locations with
    | nil => exact Or.inl ⟨rfl, by rw [World.registered_registry, husers]; rfl⟩
    | cons location older =>
        refine Or.inr ⟨location, List.mem_cons_self, funext fun ref => ?_⟩
        rw [World.registered_registry, husers, Operation.task, didUpdateLocations_some,
          Program.run_write, Program.run_done, firestore_perform, profileOf_setLocation,
          World.registered_registry]
        by_cases hr : ref = uid.string
        · rw [if_pos hr, hr, Function.update_self]
        · rw [if_neg hr, Function.update_of_ne hr]

theorem simulates_poll (h : Couples w) (matched : PartnersMatched w') {uid : Uid}
    (hstep : w.step (.poll uid) = some w') :
    ∃ h', (w.registry h).Step (.poll uid) (w'.registry h') := by
  have husers := users_step_poll hstep
  have h' := h.of_partnerOf_eq matched hstep fun ref => by rw [husers]
  exact ⟨h', registry_eq_of_users_eq h h' husers⟩

/-- **The step lemma of the refinement.** -/
theorem registry_step (h : Couples w) {op : Operation} (hproper : Proper w op)
    (hstep : w.step op = some w') :
    ∃ h', (w.registry h).Step op (w'.registry h') := by
  have matched : PartnersMatched w' :=
    (partnersMatched_step_iff h.matched hstep).mpr (hproper.careful h)
  cases op with
  | signUp form createUser => exact simulates_signUp h matched hstep
  | code uid text => exact simulates_code h matched hproper hstep
  | partnerRemove uid => exact simulates_partnerRemove h matched hstep
  | withdraw uid => exact simulates_withdraw h matched hstep
  | updateLocations uid locations => exact simulates_updateLocations h matched hstep
  | poll uid => exact simulates_poll h matched hstep

end Steps

theorem registry_init : World.init.registry couples_init = Registry.init := by
  refine Registry.ext rfl (Set.ext fun pair => ?_)
  rw [World.pairs_registry]
  induction pair with
  | h a b =>
      rw [Pairing.mem_namedPairs]
      simp [Names, World.init, Registry.init]

/-- **The refinement.**  After a proper run the collection stores a registry, the
abstract model reaches that registry by the same operations, and every further
proper operation does to it what it is meant to do. -/
theorem registry_refines {ops : List Operation} {w : World}
    (hproper : EachStep World.step Proper World.init ops)
    (hrun : run World.step World.init ops = some w) :
    ∃ h : Couples w, Steps Registry.Step Registry.init ops (w.registry h) ∧
      ∀ op w', Proper w op → w.step op = some w' →
        ∃ h', (w.registry h).Step op (w'.registry h') := by
  obtain ⟨r, hsteps, h, rfl⟩ := run_simulation Registry.Step id
    (fun (w : World) (r : Registry) => ∃ h : Couples w, w.registry h = r)
    (fun w op w' r ⟨h, hr⟩ hop hstep => by
      obtain ⟨h', habs⟩ := registry_step h hop hstep
      exact ⟨w'.registry h', hr ▸ habs, h', rfl⟩)
    ⟨couples_init, registry_init⟩ hproper hrun
  rw [List.map_id] at hsteps
  exact ⟨h, hsteps, fun op w' hop hstep => registry_step h hop hstep⟩

/-- Alice and Bob sign up, pair, Bob withdraws, and Alice dissolves the couple. -/
def properRun : List Operation :=
  [.signUp (testForm "a@x" "Alice") (some alice),
    .signUp (testForm "b@x" "Bob") (some bob),
    .code alice (.ofScalars "bobby-7"), .withdraw bob,
    .partnerRemove alice]

theorem registry_refines_properRun :
    ∃ w, run World.step World.init properRun = some w ∧
      ∃ h : Couples w, Steps Registry.Step Registry.init properRun (w.registry h) ∧
        ∀ op w', Proper w op → w.step op = some w' →
          ∃ h', (w.registry h).Step op (w'.registry h') := by
  obtain ⟨w, hw⟩ : ∃ w, run World.step World.init properRun = some w := ⟨_, rfl⟩
  exact ⟨w, hw, registry_refines (by decide) hw⟩

end CocoMap
