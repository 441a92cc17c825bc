import CocoMap.World

/-!
# When the partner relation is a matching

A pairing is stored twice, once in each document of the pair.  `PartnersMatched`
says that the two halves mirror each other: a partner is somebody else who signed
up, and a partner whose document still exists names its owner back.

`handleCode` writes both halves without a look at what it overwrites, so it can
break the mirror: by the caller's own code, by a code nobody signed up under, and
by pairing somebody whose old partner keeps the other half.  `Careful` excludes
just these calls, as a condition on the state before the call; every other
operation keeps the mirror as it is.  `everywhere_partnersMatched_iff` is the
resulting characterization of the runs along which the relation is a matching.
-/

namespace CocoMap

open Request Transition

/-- The partner relation is a matching, as far as the documents still exist. -/
def PartnersMatched (w : World) : Prop :=
  ∀ a p, Names w.users a p →
    p ≠ a ∧ w.SignedUp p ∧ ∀ q, partnerOf w.users p = some q → q = a

/-- What `handleCode` does not check, in the state before the call: a caller with
a document types the uid of somebody else who signed up, and nobody outside the
new pair has a partner in it, unless that partner's document is gone. -/
def Careful (w : World) : Operation → Prop
  | .code uid text =>
      ∀ codeRef, document text.string = some codeRef →
        (partnerOf w.users uid.string ≠ none →
          text.string ≠ uid.string ∧ w.SignedUp text.string) ∧
        (∀ a, a ≠ uid.string → a ≠ codeRef →
          (Names w.users a uid.string → partnerOf w.users uid.string = none) ∧
          (Names w.users a codeRef → partnerOf w.users codeRef = none))
  | _ => True

theorem partnersMatched_init : PartnersMatched World.init := by
  rintro a p ⟨hp, -⟩
  simp [World.init] at hp

/-- Only the decoded partners and the accounts matter. -/
theorem PartnersMatched.congr {w w' : World} (hinv : PartnersMatched w)
    (same : ∀ ref, partnerOf w'.users ref = partnerOf w.users ref)
    (accounts : ∀ s, w.SignedUp s → w'.SignedUp s) : PartnersMatched w' := by
  rintro a p ⟨hp, hne⟩
  rw [same] at hp
  obtain ⟨hpa, hsigned, hback⟩ := hinv a p ⟨hp, hne⟩
  refine ⟨hpa, accounts p hsigned, fun q hq => ?_⟩
  rw [same] at hq
  exact hback q hq

/-- Clearing both ends of a pair, or removing one document, keeps a matching. -/
theorem PartnersMatched.erase {w w' : World} (hinv : PartnersMatched w)
    (accounts : ∀ s, w.SignedUp s → w'.SignedUp s) (cleared : String → Prop)
    (kept : ∀ ref, ¬ cleared ref → partnerOf w'.users ref = partnerOf w.users ref)
    (gone : ∀ ref p, cleared ref → ¬ Names w'.users ref p)
    (both : ∀ a p q, Names w.users a p → ¬ cleared a → cleared p →
      partnerOf w'.users p ≠ some q) : PartnersMatched w' := by
  rintro a p ⟨hp, hne⟩
  have ha : ¬ cleared a := fun h => gone a p h ⟨hp, hne⟩
  have hold : Names w.users a p := ⟨by rw [← kept a ha]; exact hp, hne⟩
  obtain ⟨hpa, hsigned, hback⟩ := hinv a p hold
  refine ⟨hpa, accounts p hsigned, fun q hq => ?_⟩
  by_cases hcp : cleared p
  · exact absurd hq (both a p q hold ha hcp)
  · rw [kept p hcp] at hq
    exact hback q hq

/-! ## The operations that always keep the matching -/

section Steps

variable {w w' : World} (hinv : PartnersMatched w)
include hinv

theorem partnersMatched_signUp {form : SignUpForm} {createUser : Option Uid}
    (hstep : w.step (.signUp form createUser) = some w') : PartnersMatched w' := by
  have haccounts : ∀ s, w.SignedUp s → w'.SignedUp s := fun s h => h.of_step hstep
  have husers := World.users_of_step hstep
  rcases signUp_cases form createUser with
    ⟨-, htask⟩ | ⟨email, username, password, uid, -, hcreated, htask⟩
  · refine hinv.congr (fun ref => ?_) haccounts
    rw [husers, Operation.task, htask, Program.run_done]
  · have hpartner : ∀ ref, partnerOf w'.users ref =
        if ref = uid.string then some "" else partnerOf w.users ref := by
      intro ref
      rw [husers, Operation.task, htask, Program.run_write, Program.run_done,
        firestore_perform, partnerOf_signUp]
    refine hinv.erase haccounts (fun ref => ref = uid.string)
      (fun ref h => ?_) (fun ref p h hn => ?_) (fun a p q hn _ hp => ?_)
    · rw [hpartner, if_neg h]
    · rw [Names, hpartner, if_pos h] at hn
      exact hn.2 (Option.some.inj hn.1).symm
    · -- nobody names a uid that was not handed out before
      have hsigned : w.SignedUp p := (hinv a p hn).2.1
      exact absurd (hp ▸ hsigned) (World.not_signedUp_of_created hstep hcreated)

theorem partnersMatched_partnerRemove {uid : Uid}
    (hstep : w.step (.partnerRemove uid) = some w') : PartnersMatched w' := by
  have haccounts : ∀ s, w.SignedUp s → w'.SignedUp s := fun s h => h.of_step hstep
  by_cases hown : ∃ p, Names w.users uid.string p
  · obtain ⟨p, hp⟩ := hown
    obtain ⟨hpu, ⟨v, -, rfl⟩, hback⟩ := hinv uid.string p hp
    have hpartner := partnerOf_step_partnerRemove hp (document_uid v) hstep
    refine hinv.erase haccounts
      (fun ref => ref = uid.string ∨ ref = v.string)
      (fun ref h => ?_) (fun ref q h hn => ?_) (fun a b q hn ha hb hq => ?_)
    · rw [hpartner, if_neg h]
    · rw [Names, hpartner, if_pos h, Option.map_eq_some_iff] at hn
      obtain ⟨⟨_, _, hq⟩, hne'⟩ := hn
      exact hne' hq.symm
    · -- a third user named one of the two, which names the other
      rw [hpartner, if_pos hb, Option.map_eq_some_iff] at hq
      obtain ⟨r, hr, -⟩ := hq
      have hra : r = a := (hinv a b hn).2.2 r hr
      rcases hb with rfl | rfl
      · rw [hp.1] at hr
        exact ha (Or.inr (by rw [← hra, ← Option.some.inj hr]))
      · exact ha (Or.inl (by rw [← hra, hback r hr]))
  · refine hinv.congr (fun ref => ?_) haccounts
    rw [users_step_partnerRemove (fun p hp => hown ⟨p, hp⟩) hstep]

theorem partnersMatched_withdraw {uid : Uid}
    (hstep : w.step (.withdraw uid) = some w') : PartnersMatched w' := by
  have hpartner := partnerOf_step_withdraw hstep
  refine hinv.erase (fun s h => h.of_step hstep) (fun ref => ref = uid.string)
    (fun ref h => ?_) (fun ref p h hn => ?_) (fun a p q _ _ hp hq => ?_)
  · rw [hpartner, if_neg h]
  · rw [Names, hpartner, if_pos h] at hn
    exact absurd hn.1 (by simp)
  · rw [hpartner, if_pos hp] at hq
    exact absurd hq (by simp)

theorem partnersMatched_updateLocations {uid : Uid} {locations : List CLLocationCoordinate2D}
    (hstep : w.step (.updateLocations uid locations) = some w') : PartnersMatched w' :=
  hinv.congr (partnerOf_step_updateLocations hstep) fun _ h => h.of_step hstep

theorem partnersMatched_poll {uid : Uid} (hstep : w.step (.poll uid) = some w') :
    PartnersMatched w' := by
  refine hinv.congr (fun ref => ?_) fun s h => h.of_step hstep
  rw [users_step_poll hstep]

/-! ## `handleCode` -/

theorem partnersMatched_code_of_careful {uid : Uid} {text : FieldText}
    (hstep : w.step (.code uid text) = some w') (hcareful : Careful w (.code uid text)) :
    PartnersMatched w' := by
  have haccounts : ∀ s, w.SignedUp s → w'.SignedUp s := fun s h => h.of_step hstep
  have hcaller : w'.SignedUp uid.string :=
    haccounts _ ⟨uid, (World.step_eq_some.mp hstep).1.2.1 uid rfl, rfl⟩
  cases hdoc : document text.string with
  | none =>
      refine hinv.congr (fun ref => ?_) haccounts
      rw [World.users_of_step hstep, Operation.task, handleCode_of_raises hdoc,
        Program.run_raised]
  | some codeRef =>
      obtain ⟨hcode, hothers⟩ := hcareful codeRef hdoc
      have hpartner := partnerOf_step_code hdoc hstep
      rintro a p ⟨hp, hne⟩
      rw [hpartner] at hp
      by_cases hau : a = uid.string
      · -- the caller's own half
        rw [if_pos hau, Option.map_eq_some_iff] at hp
        obtain ⟨old, hold, rfl⟩ := hp
        obtain ⟨htu, hsigned⟩ := hcode (by rw [← hau, hold]; simp)
        have hsame : codeRef = text.string := by
          obtain ⟨v, -, hv⟩ := hsigned
          rw [← hv, document_uid, Option.some_inj] at hdoc
          rw [← hdoc, hv]
        refine ⟨by rw [hau]; exact htu, haccounts _ hsigned, fun q hq => ?_⟩
        rw [hpartner, if_neg htu, if_pos hsame.symm, Option.map_eq_some_iff] at hq
        obtain ⟨_, -, rfl⟩ := hq
        exact hau.symm
      · rw [if_neg hau] at hp
        by_cases hac : a = codeRef
        · -- the half in the code's document
          rw [if_pos hac, Option.map_eq_some_iff] at hp
          obtain ⟨old, hold, rfl⟩ := hp
          refine ⟨fun h => hau h.symm, hcaller, fun q hq => ?_⟩
          rw [hpartner, if_pos rfl, Option.map_eq_some_iff] at hq
          obtain ⟨own, hown, rfl⟩ := hq
          obtain ⟨v, -, hv⟩ := (hcode (by rw [hown]; simp)).2
          rw [← hv, document_uid, Option.some_inj] at hdoc
          rw [hac, ← hdoc, hv]
        · -- a third user, whose partner is not touched
          rw [if_neg hac] at hp
          obtain ⟨hpa, hsigned, hback⟩ := hinv a p ⟨hp, hne⟩
          refine ⟨hpa, haccounts _ hsigned, fun q hq => ?_⟩
          rw [hpartner] at hq
          by_cases hpu : p = uid.string
          · have hgone := (hothers a hau hac).1 ⟨hpu ▸ hp, uid.ne_empty⟩
            rw [if_pos hpu, hpu, hgone] at hq
            exact absurd hq (by simp)
          · rw [if_neg hpu] at hq
            by_cases hpc : p = codeRef
            · have hgone := (hothers a hau hac).2 ⟨hpc ▸ hp, hpc ▸ hne⟩
              rw [if_pos hpc, hpc, hgone] at hq
              exact absurd hq (by simp)
            · rw [if_neg hpc] at hq
              exact hback q hq

end Steps

/-- A text that names a document is not empty. -/
theorem ne_empty_of_document {text ref : String} (h : document text = some ref) : text ≠ "" := by
  rintro rfl
  have hraises : document "" = none := by decide
  rw [hraises] at h
  exact absurd h (by simp)

/-- A code that somebody signed up under is the path of its own document. -/
theorem World.SignedUp.document_eq {w : World} {s : String} (h : w.SignedUp s) :
    document s = some s := by
  obtain ⟨uid, -, rfl⟩ := h
  exact document_uid uid

theorem careful_of_partnersMatched {w w' : World} {uid : Uid} {text : FieldText}
    (hstep : w.step (.code uid text) = some w') (hinv : PartnersMatched w') :
    Careful w (.code uid text) := by
  intro codeRef hdoc
  have hpartner := partnerOf_step_code hdoc hstep
  have hown : ∀ old, partnerOf w.users uid.string = some old →
      partnerOf w'.users uid.string = some text.string := by
    intro old hold
    rw [hpartner, if_pos rfl, hold, Option.map_some]
  have hcode : partnerOf w.users uid.string ≠ none →
      text.string ≠ uid.string ∧ w.SignedUp text.string := by
    intro hsome
    obtain ⟨old, hold⟩ := Option.ne_none_iff_exists'.mp hsome
    obtain ⟨htu, hsigned, -⟩ := hinv _ _ ⟨hown old hold, ne_empty_of_document hdoc⟩
    exact ⟨htu, (World.signedUp_iff_of_not_created hstep rfl).mp hsigned⟩
  refine ⟨hcode, fun a hau hac => ⟨fun hn => ?_, fun hn => ?_⟩⟩
  · by_contra hsome
    obtain ⟨old, hold⟩ := Option.ne_none_iff_exists'.mp hsome
    have hn' : Names w'.users a uid.string :=
      ⟨by rw [hpartner, if_neg hau, if_neg hac]; exact hn.1, hn.2⟩
    have hta : text.string = a := (hinv _ _ hn').2.2 _ (hown old hold)
    have hsame : text.string = codeRef :=
      Option.some.inj ((hcode hsome).2.document_eq.symm.trans hdoc)
    exact hac (hta.symm.trans hsame)
  · by_contra hsome
    obtain ⟨old, hold⟩ := Option.ne_none_iff_exists'.mp hsome
    have hn' : Names w'.users a codeRef :=
      ⟨by rw [hpartner, if_neg hau, if_neg hac]; exact hn.1, hn.2⟩
    by_cases hcu : codeRef = uid.string
    · obtain ⟨htu, hsigned⟩ := hcode (hcu ▸ hsome)
      have hsame : text.string = codeRef :=
        Option.some.inj (hsigned.document_eq.symm.trans hdoc)
      exact htu (hsame.trans hcu)
    · refine hau ((hinv _ _ hn').2.2 uid.string ?_).symm
      rw [hpartner, if_neg hcu, if_pos rfl, hold, Option.map_some]

/-! ## Runs -/

/-- From a matching, a step leads to a matching exactly when it is careful. -/
theorem partnersMatched_step_iff {w w' : World} {op : Operation} (hinv : PartnersMatched w)
    (hstep : w.step op = some w') : PartnersMatched w' ↔ Careful w op := by
  cases op with
  | signUp form createUser =>
      exact ⟨fun _ => trivial, fun _ => partnersMatched_signUp hinv hstep⟩
  | code uid text =>
      exact ⟨careful_of_partnersMatched hstep, partnersMatched_code_of_careful hinv hstep⟩
  | partnerRemove uid =>
      exact ⟨fun _ => trivial, fun _ => partnersMatched_partnerRemove hinv hstep⟩
  | withdraw uid => exact ⟨fun _ => trivial, fun _ => partnersMatched_withdraw hinv hstep⟩
  | updateLocations uid locations =>
      exact ⟨fun _ => trivial, fun _ => partnersMatched_updateLocations hinv hstep⟩
  | poll uid => exact ⟨fun _ => trivial, fun _ => partnersMatched_poll hinv hstep⟩

/-- **The partner relation is a matching in every state of a run exactly when
every `handleCode` of the run is careful.** -/
theorem everywhere_partnersMatched_iff (ops : List Operation) :
    Everywhere World.step PartnersMatched World.init ops ↔
      EachStep World.step Careful World.init ops :=
  everywhere_iff_eachStep (fun _ _ _ hinv hstep => partnersMatched_step_iff hinv hstep)
    partnersMatched_init

/-! ### A re-pairing -/

/-- Alice pairs with Bob, then Carol enters Bob's code. -/
def rePairing : List Operation :=
  [.signUp (testForm "a@x" "Alice") (some alice),
    .signUp (testForm "b@x" "Bob") (some bob),
    .signUp (testForm "c@x" "Carol") (some carol),
    .code alice (.ofScalars "bobby-7"),
    .code carol (.ofScalars "bobby-7")]

/-- After the re-pairing Alice's document still names Bob, and Bob's names Carol. -/
theorem not_everywhere_partnersMatched :
    ¬ ∀ ops : List Operation,
      (∀ uid text, Operation.code uid text ∈ ops → '/' ∉ text.string.toList) →
        Everywhere World.step PartnersMatched World.init ops := by
  intro h
  have hslash : ∀ uid text, Operation.code uid text ∈ rePairing →
      '/' ∉ text.string.toList := by
    intro uid text hmem
    simp only [rePairing, List.mem_cons, Operation.code.injEq, reduceCtorEq, false_or,
      List.not_mem_nil, or_false] at hmem
    rcases hmem with ⟨-, rfl⟩ | ⟨-, rfl⟩ <;> decide
  obtain ⟨w, hw⟩ : ∃ w, run World.step World.init rePairing = some w := ⟨_, rfl⟩
  have hinv := (h rePairing hslash).last hw
  have halice : partnerOf w.users "alice-7" = some "bobby-7" := by cases hw; decide
  have hbob : partnerOf w.users "bobby-7" = some "carol-7" := by cases hw; decide
  exact absurd ((hinv "alice-7" "bobby-7" ⟨halice, by decide⟩).2.2 "carol-7" hbob) (by decide)

end CocoMap
