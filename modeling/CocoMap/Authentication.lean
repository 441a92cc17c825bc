import CocoMap.CodeForm

/-!
# Authenticating a code is two updates and one message

`handleCode` issues two updates, of the document the code leads to and of the caller's
own, and each is answered on its own: it is accepted, it fails because its document is
missing, or the server rejects it.  The completion handlers only print, and the success
message stands outside of them, so it appears whatever the answers will be.

`AllOrNothing` is what the message promises, and `allOrNothing_iff` says on which
inputs and answers the promise is kept.
-/

namespace CocoMap

open Request

/-- What becomes of the documents when the server accepts or rejects a write. -/
def Write.answered (users : Collection) (request : Write) (accepted : Bool) : Collection :=
  if accepted then request.perform users else users

/-- Firestore, with its answers to the next writes. -/
def answering : Store String (Option DocumentSnapshot) Write (Collection × List Bool) where
  get s ref := some ⟨s.1 ref⟩
  perform s request :=
    match s.2 with
    | [] => s
    | accepted :: answers => (request.answered s.1 accepted, answers)

/-- The collection when both updates of `handleCode` have been answered. -/
def afterCode (users : Collection) (uid : Uid) (c : UserProfileController)
    (accepted accepted' : Bool) : Collection :=
  ((handleCode (some uid) c.codeTextField).run answering (users, [accepted, accepted'])).1

/-- The screen tells the user of a success. -/
def UserProfileController.Reports (c : UserProfileController) (uid : Uid) : Prop :=
  ∃ c', c.handleCode (some uid) = some c' ∧ c'.successes = codeSucceeded :: c.successes

/-- Either both documents carry the new pairing and success is reported, or nothing has
changed and it is not. -/
def AllOrNothing (users : Collection) (uid : Uid) (c : UserProfileController) (codeRef : String)
    (accepted accepted' : Bool) : Prop :=
  (partnerOf (afterCode users uid c accepted accepted') codeRef = some uid.string ∧
      partnerOf (afterCode users uid c accepted accepted') uid.string = some c.code ∧
      c.Reports uid) ∨
    (afterCode users uid c accepted accepted' = users ∧ ¬ c.Reports uid)

/-- The document `ref` names `p` after an update to this effect: the document exists and
the update is accepted, or it named `p` before. -/
def EndsWith (users : Collection) (ref p : String) (accepted : Bool) : Prop :=
  (users ref ≠ none ∧ accepted = true) ∨ partnerOf users ref = some p

/-- Both halves of the pairing succeed.  A code that leads to the caller's own document
must be the uid as it is, for the second update overwrites the first. -/
def BothSucceed (users : Collection) (uid : Uid) (code codeRef : String)
    (accepted accepted' : Bool) : Prop :=
  (codeRef ≠ uid.string ∧ EndsWith users codeRef uid.string accepted ∧
      EndsWith users uid.string code accepted') ∨
    (codeRef = uid.string ∧ code = uid.string ∧
      EndsWith users uid.string code (accepted || accepted'))

section Answers

variable {users : Collection}

theorem answered_of_ne {request : Write} {ref : String} (h : ref ≠ request.ref)
    (accepted : Bool) : request.answered users accepted ref = users ref := by
  rw [Write.answered]
  split
  · exact Write.perform_of_ne users request h
  · rfl

theorem partnerOf_answered {ref p : String} {accepted : Bool} :
    partnerOf ((setPartner ref p).answered users accepted) ref = some p ↔
      EndsWith users ref p accepted := by
  rw [Write.answered, EndsWith, ne_eq, ← partnerOf_eq_none]
  cases accepted with
  | false => simp
  | true =>
      rw [if_pos rfl, partnerOf_setPartner, if_pos rfl]
      cases partnerOf users ref with
      | none => simp
      | some q => simp

theorem endsWith_congr {users' : Collection} {ref p : String} {accepted : Bool}
    (h : users' ref = users ref) : EndsWith users' ref p accepted ↔ EndsWith users ref p accepted := by
  rw [EndsWith, EndsWith, partnerOf_congr h, h]

/-- The same update, issued twice, succeeds if one of the two is accepted. -/
theorem endsWith_answered {ref p : String} {accepted accepted' : Bool} :
    EndsWith ((setPartner ref p).answered users accepted) ref p accepted' ↔
      EndsWith users ref p (accepted || accepted') := by
  rw [EndsWith, partnerOf_answered, EndsWith, EndsWith]
  have hexists : (setPartner ref p).answered users accepted ref ≠ none ↔ users ref ≠ none := by
    rw [Write.answered]
    split
    · simp [setPartner, Write.perform_eq]
    · rfl
  rw [hexists, Bool.or_eq_true]
  tauto

end Answers

variable {users : Collection} {uid : Uid} {c : UserProfileController} {codeRef : String}
  {accepted accepted' : Bool}

theorem afterCode_eq (hdoc : document c.code = some codeRef) :
    afterCode users uid c accepted accepted' =
      (setPartner uid.string c.code).answered
        ((setPartner codeRef uid.string).answered users accepted) accepted' := by
  have htask : handleCode (some uid) c.codeTextField =
      .write (setPartner codeRef uid.string) (.write (setPartner uid.string c.code) (.done none)) := by
    have hdoc' : document ((c.codeTextField.map FieldText.string).getD "") = some codeRef := hdoc
    rw [handleCode, withDocument_of_eq hdoc', withDocument_uid, UserProfileController.code]
  rw [afterCode, htask]
  rfl

/-- Success is reported before there is an answer. -/
theorem reports_of_document (hdoc : document c.code = some codeRef) : c.Reports uid := by
  have hreturns : raises (handleCode (some uid) c.codeTextField) = false := by
    rw [ProfileScreen.raises_handleCode_eq_false, hdoc]
    simp
  rw [UserProfileController.Reports, UserProfileController.handleCode, hreturns]
  exact ⟨_, rfl, rfl⟩

/-- **Authenticating a code is all or nothing exactly if both updates succeed.** -/
theorem allOrNothing_iff (hdoc : document c.code = some codeRef) :
    AllOrNothing users uid c codeRef accepted accepted' ↔
      BothSucceed users uid c.code codeRef accepted accepted' := by
  have hreports : c.Reports uid := reports_of_document hdoc
  have hpaired : AllOrNothing users uid c codeRef accepted accepted' ↔
      partnerOf (afterCode users uid c accepted accepted') codeRef = some uid.string ∧
        partnerOf (afterCode users uid c accepted accepted') uid.string = some c.code := by
    simp [AllOrNothing, hreports]
  rw [hpaired, afterCode_eq hdoc, partnerOf_answered, BothSucceed]
  rcases eq_or_ne codeRef uid.string with rfl | hne
  · -- both updates go to the caller's own document, which keeps the second text
    constructor
    · rintro ⟨hfirst, hsecond⟩
      have hcode : uid.string = c.code :=
        Option.some.inj (hfirst.symm.trans (partnerOf_answered.mpr hsecond))
      rw [← hcode] at hsecond ⊢
      exact Or.inr ⟨rfl, rfl, endsWith_answered.mp hsecond⟩
    · rintro (⟨hne, -⟩ | ⟨-, hcode, hends⟩)
      · exact absurd rfl hne
      · rw [hcode] at hends ⊢
        have hends' := endsWith_answered.mpr hends
        exact ⟨partnerOf_answered.mpr hends', hends'⟩
  · have hcode : partnerOf ((setPartner uid.string c.code).answered
        ((setPartner codeRef uid.string).answered users accepted) accepted') codeRef =
        some uid.string ↔ EndsWith users codeRef uid.string accepted := by
      rw [partnerOf_congr (answered_of_ne hne accepted'), partnerOf_answered]
    have hown : EndsWith ((setPartner codeRef uid.string).answered users accepted) uid.string
        c.code accepted' ↔ EndsWith users uid.string c.code accepted' :=
      endsWith_congr (answered_of_ne hne.symm accepted)
    rw [hcode, hown]
    simp [hne]

/-- The form with a code typed into it. -/
def typed (text : String) : UserProfileController where
  codeTextField := some (.ofScalars text)
  codeButton := isFormValid (some (.ofScalars text))
  successes := []

theorem allOrNothing_iff_pairedUsers :
    AllOrNothing pairedUsers alice (typed "bobby-7") "bobby-7" true true ↔
      BothSucceed pairedUsers alice (typed "bobby-7").code "bobby-7" true true :=
  allOrNothing_iff (by decide)

/-- Alice mistypes Bob's code.  Her document loses Bob and names nobody who exists, and she
reads that all went well. -/
theorem not_allOrNothing_mistyped :
    document (typed "bobby-8").code = some "bobby-8" ∧
      ¬ AllOrNothing pairedUsers alice (typed "bobby-8") "bobby-8" false true := by
  have hdoc : document (typed "bobby-8").code = some "bobby-8" := by decide
  refine ⟨hdoc, ?_⟩
  rintro (⟨hcode, -⟩ | ⟨-, hsilent⟩)
  · cases hcode
  · exact hsilent (reports_of_document hdoc)

end CocoMap
