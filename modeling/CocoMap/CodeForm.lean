import CocoMap.Handlers

/-!
# The code form of the profile screen

The code button of `UserProfileController` calls `handleCode`, which hands the text of
the field to Firestore as a path.  The button is enabled by `handleTextInputChange`,
which counts the characters of the text; but the path parser has a grammar of its own,
and raises on a text with `//` or with an even number of segments.  The invitation
message of the app contains such a text, the URL of its site.

`everywhere_running_iff` says which sequences of edits and taps the app survives.  The
empty text never reaches the parser: in every state the button is enabled exactly for
the text that is in the field (`everywhere_checked`).
-/

namespace CocoMap

open Transition

/-- The status shown at the end of `handleCode`. -/
def codeSucceeded : String := "認証が完了しました"

/-- Whether an exception stops a handler before it returns.  The completion handlers
of its requests run later. -/
def raises : Task → Bool
  | .done _ => false
  | .raised => true
  | .read _ _ => false
  | .write _ next => raises next

/-- The form for codes. -/
structure UserProfileController where
  codeTextField : Option FieldText
  /-- `codeButton.isEnabled` -/
  codeButton : Bool
  /-- What `SVProgressHUD` has reported as a success, the latest first. -/
  successes : List String

namespace UserProfileController

/-- The form of a new controller. -/
def init : UserProfileController where
  codeTextField := some (.ofScalars "")
  codeButton := false
  successes := []

def handleTextInputChange (c : UserProfileController) : UserProfileController :=
  { c with codeButton := isFormValid c.codeTextField }

/-- The text the field holds, as `handleCode` reads it. -/
def code (c : UserProfileController) : String := (c.codeTextField.map FieldText.string).getD ""

/-- `handleCode` on the screen; `none` is an exception.  Success is reported as soon as
the updates have been issued, and also to somebody who is not signed in. -/
def handleCode (c : UserProfileController) (currentUser : Option Uid) :
    Option UserProfileController :=
  if raises (CocoMap.handleCode currentUser c.codeTextField) then none
  else some
    { codeTextField := some (.ofScalars "")
      codeButton := false
      successes := codeSucceeded :: c.successes }

end UserProfileController

/-- What the user does with the form. -/
inductive FormEvent
  | edit (text : FieldText)
  | tap (currentUser : Option Uid)

/-- The app on the profile screen. -/
inductive ProfileScreen
  | running (c : UserProfileController)
  | crashed

namespace ProfileScreen

def step : ProfileScreen → FormEvent → Option ProfileScreen
  | .crashed, _ => none
  | .running c, .edit text =>
      some (.running { c with codeTextField := some text }.handleTextInputChange)
  | .running c, .tap currentUser =>
      if c.codeButton then
        match c.handleCode currentUser with
        | none => some .crashed
        | some c' => some (.running c')
      else none

/-- The app has not crashed. -/
def Running (p : ProfileScreen) : Prop := p ≠ .crashed

/-- When a signed-in user taps the button, the text in the field has no `//` and an odd
number of segments. -/
def Parses : ProfileScreen → FormEvent → Prop
  | .running c, .tap (some _) => ¬ ['/', '/'] <:+: c.code.toList ∧ (segments c.code).length % 2 = 1
  | _, _ => True

@[simp] theorem running_running (c : UserProfileController) : Running (.running c) := by
  simp [Running]

@[simp] theorem not_running_crashed : ¬ Running .crashed := fun h => h rfl

/-- `handleCode` returns exactly if the parser does not raise on the code. -/
theorem raises_handleCode_eq_false (uid : Uid) (c : UserProfileController) :
    raises (handleCode (some uid) c.codeTextField) = false ↔ document c.code ≠ none := by
  rw [handleCode, UserProfileController.code]
  cases hdoc : document ((c.codeTextField.map FieldText.string).getD "") with
  | none => simp [withDocument_of_none hdoc, raises]
  | some codeRef => simp [withDocument_of_eq hdoc, raises]

theorem step_tap {p' : ProfileScreen} {c : UserProfileController} {currentUser : Option Uid}
    (h : step (.running c) (.tap currentUser) = some p') :
    c.codeButton = true ∧
      if raises (handleCode currentUser c.codeTextField) then p' = .crashed
      else p' = .running ⟨some (.ofScalars ""), false, codeSucceeded :: c.successes⟩ := by
  rw [step, UserProfileController.handleCode] at h
  split at h
  · rename_i hbutton
    refine ⟨hbutton, ?_⟩
    by_cases hraises : raises (handleCode currentUser c.codeTextField) = true
    · rw [if_pos hraises] at h ⊢
      exact (Option.some.inj h).symm
    · rw [if_neg hraises] at h ⊢
      exact (Option.some.inj h).symm
  · cases h

/-- **The step lemma.** -/
theorem running_step_iff {p p' : ProfileScreen} {e : FormEvent} (hstep : p.step e = some p') :
    p'.Running ↔ Parses p e := by
  cases p with
  | crashed => cases hstep
  | running c =>
      cases e with
      | edit text =>
          cases hstep
          exact ⟨fun _ => trivial, fun _ => running_running _⟩
      | tap currentUser =>
          obtain ⟨-, hp'⟩ := step_tap hstep
          cases currentUser with
          | none =>
              -- nobody is signed in, and no document is named
              obtain rfl := hp'
              exact ⟨fun _ => trivial, fun _ => running_running _⟩
          | some uid =>
              rw [Parses, ← document_ne_none_iff, ← raises_handleCode_eq_false uid c]
              split at hp'
              · rename_i hraises
                simp [hp', hraises]
              · rename_i hraises
                simp [hp', hraises]

/-- A new form. -/
def init : ProfileScreen := .running UserProfileController.init

/-- **The app survives exactly the sequences of edits and taps in which every code is a
path.** -/
theorem everywhere_running_iff (events : List FormEvent) :
    Everywhere step Running init events ↔ EachStep step Parses init events :=
  everywhere_iff_eachStep (fun _ _ _ _ hstep => running_step_iff hstep) (by simp [Running, init])

/-- A user pastes the URL from the invitation message. -/
theorem not_everywhere_running :
    ¬ Everywhere step Running init
      [.edit (.ofScalars "https://co-co.site"), .tap (some alice)] := by
  intro h
  have hcrashed : run step init [.edit (.ofScalars "https://co-co.site"), .tap (some alice)] =
      some .crashed := rfl
  exact not_running_crashed (h.last hcrashed)

/-! ## Texts without a slash -/

/-- The button is enabled exactly for the text in the field. -/
def Checked (p : ProfileScreen) : Prop :=
  ∀ c, p = .running c → c.codeButton = isFormValid c.codeTextField

theorem Checked.step {p p' : ProfileScreen} {e : FormEvent} (hstep : p.step e = some p') :
    p'.Checked := by
  rintro c' rfl
  cases p with
  | crashed => cases hstep
  | running c =>
      cases e with
      | edit text =>
          cases hstep
          rfl
      | tap currentUser =>
          obtain ⟨-, hp'⟩ := step_tap hstep
          split at hp'
          · cases hp'
          · -- the reset disables the button for the empty text
            cases hp'
            rfl

theorem everywhere_checked (events : List FormEvent) : Everywhere step Checked init events := by
  intro pre p _ hrun
  refine run_invariant (I := Checked) (fun _ _ _ _ _ hstep => Checked.step hstep) ?_ hrun
  rintro c hc
  cases hc
  rfl

/-- An enabled button has a code to hand over. -/
theorem code_ne_empty {c : UserProfileController} (hchecked : Checked (.running c))
    (hbutton : c.codeButton = true) : c.code ≠ "" := by
  rw [hchecked c rfl] at hbutton
  intro hempty
  cases hfield : c.codeTextField with
  | none => simp [isFormValid, hfield] at hbutton
  | some text =>
      have hcount : text.count > 6 := by simpa [isFormValid, hfield] using hbutton
      have hstring : text.string = "" := by simpa [UserProfileController.code, hfield] using hempty
      exact FieldText.ne_empty_of_count (by omega) hstring

/-- The app is running, and no `/` has been typed into the field. -/
def Slashless (p : ProfileScreen) : Prop :=
  ∃ c, p = .running c ∧ p.Checked ∧ '/' ∉ c.code.toList

theorem Slashless.step {p p' : ProfileScreen} {e : FormEvent} (h : p.Slashless)
    (htyped : ∀ text, e = .edit text → '/' ∉ text.string.toList) (hstep : p.step e = some p') :
    p'.Slashless := by
  have hchecked' : p'.Checked := Checked.step hstep
  obtain ⟨c, rfl, hchecked, hslash⟩ := h
  cases e with
  | edit text =>
      cases hstep
      exact ⟨_, rfl, hchecked', htyped text rfl⟩
  | tap currentUser =>
      obtain ⟨hbutton, hp'⟩ := step_tap hstep
      have hreturns : raises (handleCode currentUser c.codeTextField) = false := by
        cases currentUser with
        | none => rfl
        | some uid =>
            have hid : IsDocumentID c.code := ⟨code_ne_empty hchecked hbutton, hslash⟩
            rw [raises_handleCode_eq_false, document_of_isDocumentID hid]
            simp
      rw [hreturns] at hp'
      obtain rfl := hp'
      exact ⟨_, rfl, hchecked', List.not_mem_nil⟩

/-- **A code without `/`, a uid in particular, never crashes the app.** -/
theorem everywhere_running_of_slashless {events : List FormEvent}
    (htyped : ∀ text, .edit text ∈ events → '/' ∉ text.string.toList) :
    Everywhere step Running init events := by
  intro pre p hpre hrun
  have hstart : init.Slashless := ⟨_, rfl, by rintro c ⟨⟩; rfl, List.not_mem_nil⟩
  obtain ⟨c, rfl, -⟩ := run_invariant (I := Slashless) (fun p e he p' h hstep =>
    h.step (fun text htext => htyped text (hpre.subset (htext ▸ he))) hstep) hstart hrun
  exact running_running c

end ProfileScreen

end CocoMap
