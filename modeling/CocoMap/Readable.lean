import CocoMap.Interleaved

/-!
# A stored partner can be read

The partner field holds raw text of a user, written by `handleCode` and parsed as a
path by `updatePin` and `handlePartnerRemove`, on any device and at any later time.
A text on which the parser raises would stop every reader of the document.

No such text is ever stored: `handleCode` first parses the code as the path of the
document it updates, and an exception there ends the call before its second update,
the only one that stores the text.
-/

namespace CocoMap

open Request Transition

universe u

variable {ι : Type u}

/-- Every stored partner is the path of a document. -/
def Readable (users : Collection) : Prop := ∀ a p, Names users a p → document p ≠ none

/-! ## What each write keeps -/

section Writes

variable {users : Collection} (h : Readable users)
include h

theorem Readable.setPartner (ref : String) {partner : String} (hdoc : document partner ≠ none) :
    Readable ((setPartner ref partner).perform users) := by
  rintro a p ⟨hp, hne⟩
  rw [partnerOf_setPartner] at hp
  split at hp
  · obtain ⟨_, -, rfl⟩ := Option.map_eq_some_iff.mp hp
    exact hdoc
  · exact h a p ⟨hp, hne⟩

theorem Readable.deletePartner (ref : String) :
    Readable ((deletePartner ref).perform users) := by
  rintro a p ⟨hp, hne⟩
  rw [partnerOf_deletePartner] at hp
  split at hp
  · obtain ⟨_, -, rfl⟩ := Option.map_eq_some_iff.mp hp
    exact absurd rfl hne
  · exact h a p ⟨hp, hne⟩

theorem Readable.signUp (ref email username uid : String) :
    Readable ((Write.setData ref (signUpDocument email username uid)).perform users) := by
  rintro a p ⟨hp, hne⟩
  rw [partnerOf_signUp] at hp
  split at hp
  · exact absurd (Option.some.inj hp).symm hne
  · exact h a p ⟨hp, hne⟩

theorem Readable.delete (ref : String) : Readable ((Write.delete ref).perform users) := by
  rintro a p ⟨hp, hne⟩
  rw [partnerOf_delete] at hp
  split at hp
  · cases hp
  · exact h a p ⟨hp, hne⟩

theorem Readable.setLocation (ref : String) (lat lon : CLLocationDegrees) :
    Readable ((setLocation ref lat lon).perform users) := by
  rintro a p ⟨hp, hne⟩
  rw [partnerOf_setLocation] at hp
  exact h a p ⟨hp, hne⟩

/-- A readable partner does not stop its reader. -/
theorem Readable.followPartner_ne_raised (a : String) {k : String → Task}
    (hk : ∀ ref, k ref ≠ .raised) : followPartner (some ⟨users a⟩) k ≠ .raised := by
  rcases names_cases users a with hno | ⟨p, hnames, hdoc⟩ | ⟨p, ref, hnames, hdoc⟩
  · rw [followPartner_of_not_names hno]
    simp
  · exact absurd hdoc (h a p hnames)
  · rw [followPartner_of_names hnames hdoc]
    exact hk ref

end Writes

/-! ## Runs -/

/-- Every write of every call keeps the stored partners readable. -/
theorem task_keeps_readable (op : Operation) :
    op.task.Writes fun request => ∀ users, Readable users → Readable (request.perform users) := by
  refine op.task_issues.mono fun request hissues users h => ?_
  cases hissues with
  | signUp hform hcreated => exact h.signUp _ _ _ _
  | codePartner hdoc => exact h.setPartner _ (by simp)
  | codeOwn hdoc =>
      -- the text is stored only after it has been parsed
      exact h.setPartner _ (by simp [hdoc])
  | partnerRemove uid ref => exact h.deletePartner ref
  | withdraw uid => exact h.delete uid.string
  | updateLocations uid location older => exact h.setLocation _ _ _

theorem everywhere_readable [DecidableEq ι] (ops : ι → Operation) (schedule : List ι) :
    Everywhere serve (fun sys => Readable sys.store) (concurrently (fun _ => none) ops)
      schedule := by
  refine everywhere_store (fun i => task_keeps_readable (ops i)) ?_ schedule
  rintro a p ⟨hp, -⟩
  cases hp

/-- **A stored partner never crashes a reader**: in every state of every interleaving
it is the path of a document, and neither of the handlers that read it raises. -/
theorem everywhere_partner_readable [DecidableEq ι] (ops : ι → Operation) (schedule : List ι) :
    Everywhere serve
      (fun sys => (∀ a p, partnerOf sys.store a = some p → p ≠ "" → document p ≠ none) ∧
        ∀ a, userCompletion (some ⟨sys.store a⟩) ≠ .raised ∧
          partnerRemoveCompletion a (some ⟨sys.store a⟩) ≠ .raised)
      (concurrently (fun _ => none) ops) schedule := by
  refine (everywhere_readable ops schedule).mono fun sys h => ⟨fun a p hp hne => ?_, fun a => ?_⟩
  · exact h a p ⟨hp, hne⟩
  · rw [userCompletion_eq, partnerRemoveCompletion_eq]
    exact ⟨h.followPartner_ne_raised a (by simp), h.followPartner_ne_raised a (by simp)⟩

end CocoMap
