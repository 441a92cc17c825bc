import CocoMap.UserData

/-!
# The handlers that use Firestore

Every handler of the app that reads or writes user documents, as a program of
Firestore requests.  A handler runs for the user signed in on its device,
`Auth.auth().currentUser`, and does nothing when there is none.  The completion
handlers of writes only print, so a write is a request whose outcome the program
ignores; the completion handler of `getDocument` is the rest of the program.

A program ends in `done pin`, where `pin` is what its last callback puts on the
map (only `updatePin` puts anything there), or in `raised` when an exception
stops the app.
-/

namespace CocoMap

/-- A uid handed out by Firebase Auth. -/
structure Uid where
  string : String
  isDocumentID : IsDocumentID string
deriving DecidableEq

/-- The text of a `UITextField`, with what Swift's `count` says of it.  Swift
counts extended grapheme clusters: several scalars may make up one character,
but a character has at least one scalar. -/
structure FieldText where
  string : String
  count : ℕ
  count_le : count ≤ string.length
  count_pos : string ≠ "" → 0 < count

/-- A text of which every scalar is a character, as any ASCII text without line
breaks is. -/
def FieldText.ofScalars (s : String) : FieldText where
  string := s
  count := s.length
  count_le := le_rfl
  count_pos h := by
    have hne : s.toList ≠ [] := by simpa using h
    simpa [← String.length_toList] using List.length_pos_iff.mpr hne

/-- A text with a character is not empty. -/
theorem FieldText.ne_empty_of_count {text : FieldText} (h : text.count > 0) : text.string ≠ "" := by
  intro hempty
  have hle := text.count_le
  rw [hempty, String.length_empty] at hle
  omega

structure CLLocationCoordinate2D where
  latitude : CLLocationDegrees
  longitude : CLLocationDegrees
deriving DecidableEq

/-- The partner's annotation, as a callback of `updatePin` sets it. -/
structure Pin where
  coordinate : CLLocationCoordinate2D
  title : String
  subtitle : String
deriving DecidableEq

/-- A handler's requests, and the pin its last callback places. -/
abbrev Task := Request.Program String (Option DocumentSnapshot) Write (Option Pin)

/-- `db.collection("users").document(path)`, and what is done with it. -/
def withDocument (path : String) (k : String → Task) : Task :=
  match document path with
  | none => .raised
  | some ref => k ref

theorem withDocument_of_eq {path ref : String} (h : document path = some ref)
    (k : String → Task) : withDocument path k = k ref := by
  rw [withDocument, h]

theorem withDocument_of_none {path : String} (h : document path = none)
    (k : String → Task) : withDocument path k = .raised := by
  rw [withDocument, h]

@[simp] theorem document_uid (uid : Uid) : document uid.string = some uid.string :=
  document_of_isDocumentID uid.isDocumentID

@[simp] theorem withDocument_uid (uid : Uid) (k : String → Task) :
    withDocument uid.string k = k uid.string :=
  withDocument_of_eq (document_uid uid) k

theorem Uid.ne_empty (uid : Uid) : uid.string ≠ "" := uid.isDocumentID.1

theorem Uid.string_inj {a b : Uid} : a.string = b.string ↔ a = b := by
  constructor
  · intro h
    cases a
    cases b
    simp_all
  · rintro rfl
    rfl

/-! ## `SignUpController` -/

/-- The text fields of the sign-up screen. -/
structure SignUpForm where
  emailTextField : Option FieldText
  usernameTextField : Option FieldText
  passwordTextField : Option FieldText

/-- The three `guard`s of `handleSignUp`, and the texts they let through. -/
def SignUpForm.submitted (form : SignUpForm) : Option (String × String × String) := do
  let email ← form.emailTextField
  guard (email.count > 0)
  let username ← form.usernameTextField
  guard (username.count > 0)
  let password ← form.passwordTextField
  guard (password.count ≥ 6)
  return (email.string, username.string, password.string)

/-- `handleSignUp`; `createUser` is Auth's answer, the new uid or an error. -/
def handleSignUp (form : SignUpForm) (createUser : Option Uid) : Task :=
  match form.submitted with
  | none => .done none
  | some (email, username, _) =>
      match createUser with
      | none => .done none
      | some uid =>
          withDocument uid.string fun ref =>
            .write (.setData ref (signUpDocument email username uid.string)) (.done none)

/-! ## `UserProfileController` -/

/-- `handleTextInputChange`: whether the code button is enabled for this text. -/
def isFormValid (codeTextField : Option FieldText) : Bool :=
  (codeTextField.map FieldText.count).getD 0 > 6

/-- `handleCode`: the code's document first, then the caller's own. -/
def handleCode (currentUser : Option Uid) (codeTextField : Option FieldText) : Task :=
  match currentUser with
  | none => .done none
  | some uid =>
      let code := (codeTextField.map FieldText.string).getD ""
      -- neither document is read: an old partner is overwritten, and not told
      withDocument code fun codeRef =>
        .write (setPartner codeRef uid.string) <|
          withDocument uid.string fun ref =>
            .write (setPartner ref code) (.done none)

/-- The completion handler of the read in `handlePartnerRemove`. -/
def partnerRemoveCompletion (ref : String) (reply : Option DocumentSnapshot) : Task :=
  match existingUserData reply with
  | none => .done none
  | some userData =>
      let partner := userData.partner
      if partner ≠ "" then
        -- the partner's field is deleted whatever it holds by now
        withDocument partner fun partnerRef =>
          .write (deletePartner partnerRef) (.write (deletePartner ref) (.done none))
      else .done none

/-- The destructive action of `handlePartnerRemove`. -/
def handlePartnerRemove (currentUser : Option Uid) : Task :=
  match currentUser with
  | none => .done none
  | some uid =>
      withDocument uid.string fun ref => .read ref (partnerRemoveCompletion ref)

/-- The Firestore request of the destructive action of `handleWithdraw`. -/
def handleWithdraw (currentUser : Option Uid) : Task :=
  match currentUser with
  | none => .done none
  | some uid => withDocument uid.string fun ref => .write (.delete ref) (.done none)

/-! ## `MapController` -/

/-- `locationManager(_:didUpdateLocations:)`.  `locations[0]` traps on an empty
array.  The defaults after `??` are never used: both variables have just been
set. -/
def didUpdateLocations (currentUser : Option Uid) (locations : List CLLocationCoordinate2D) :
    Task :=
  match locations with
  | [] => .raised
  | userLocation :: _ =>
      let latitude : Option CLLocationDegrees := some userLocation.latitude
      let longitude : Option CLLocationDegrees := some userLocation.longitude
      match currentUser with
      | none => .done none
      | some uid =>
          withDocument uid.string fun ref =>
            .write (setLocation ref (latitude.getD tokyoLatitude) (longitude.getD tokyoLongitude))
              (.done none)

/-- The pin that shows a user's data. -/
def partnerPin (partnerData : UserData) : Pin where
  coordinate := ⟨partnerData.latitude, partnerData.longitude⟩
  title := partnerData.name
  subtitle := "ここにいるよ！"

/-- The inner completion handler of `updatePin`. -/
def partnerCompletion (reply : Option DocumentSnapshot) : Task :=
  .done ((existingUserData reply).map partnerPin)

/-- The outer completion handler of `updatePin`. -/
def userCompletion (reply : Option DocumentSnapshot) : Task :=
  match existingUserData reply with
  -- this branch and the last one only print: a pin that is on the map stays there
  | none => .done none
  | some userData =>
      let partner := userData.partner
      if partner ≠ "" then withDocument partner fun partnerRef => .read partnerRef partnerCompletion
      else .done none

/-- `updatePin`: one tick of the polling timer. -/
def updatePin (currentUser : Option Uid) : Task :=
  match currentUser with
  | none => .done none
  | some uid => withDocument uid.string fun ref => .read ref userCompletion

/-! ## The handlers of a signed-in user

The same programs with the guards that a signed-in user passes resolved. -/

theorem handleSignUp_eq {form : SignUpForm} {email username password : String} {uid : Uid}
    (h : form.submitted = some (email, username, password)) :
    handleSignUp form (some uid) =
      .write (.setData uid.string (signUpDocument email username uid.string)) (.done none) := by
  rw [handleSignUp, h]
  exact withDocument_uid uid _

theorem handleCode_eq {uid : Uid} {text : FieldText} {codeRef : String}
    (h : document text.string = some codeRef) :
    handleCode (some uid) (some text) =
      .write (setPartner codeRef uid.string)
        (.write (setPartner uid.string text.string) (.done none)) := by
  simp [handleCode, withDocument_of_eq h]

theorem handleCode_of_raises {uid : Uid} {text : FieldText}
    (h : document text.string = none) : handleCode (some uid) (some text) = .raised := by
  simp [handleCode, withDocument_of_none h]

@[simp] theorem handlePartnerRemove_some (uid : Uid) :
    handlePartnerRemove (some uid) =
      .read uid.string (partnerRemoveCompletion uid.string) := by
  rw [handlePartnerRemove, withDocument_uid]

@[simp] theorem handleWithdraw_some (uid : Uid) :
    handleWithdraw (some uid) = .write (.delete uid.string) (.done none) := by
  rw [handleWithdraw, withDocument_uid]

@[simp] theorem didUpdateLocations_some (uid : Uid) (location : CLLocationCoordinate2D)
    (older : List CLLocationCoordinate2D) :
    didUpdateLocations (some uid) (location :: older) =
      .write (setLocation uid.string location.latitude location.longitude) (.done none) := by
  simp [didUpdateLocations]

@[simp] theorem updatePin_some (uid : Uid) :
    updatePin (some uid) = .read uid.string userCompletion := by
  rw [updatePin, withDocument_uid]

/-! ### The reply about the own document

The completion handlers of `handlePartnerRemove` and of the first read of `updatePin`
begin alike: they go on with the document of the decoded partner, if there is one. -/

/-- Go on with the document of the partner that the reply names. -/
def followPartner (reply : Option DocumentSnapshot) (k : String → Task) : Task :=
  match existingUserData reply with
  | none => .done none
  | some userData =>
      if userData.partner ≠ "" then withDocument userData.partner k else .done none

theorem partnerRemoveCompletion_eq (ref : String) (reply : Option DocumentSnapshot) :
    partnerRemoveCompletion ref reply = followPartner reply fun partnerRef =>
      .write (deletePartner partnerRef) (.write (deletePartner ref) (.done none)) := rfl

theorem userCompletion_eq (reply : Option DocumentSnapshot) :
    userCompletion reply = followPartner reply fun partnerRef =>
      .read partnerRef partnerCompletion := rfl

theorem followPartner_cases (reply : Option DocumentSnapshot) (k : String → Task) :
    followPartner reply k = .done none ∨ followPartner reply k = .raised ∨
      ∃ ref, followPartner reply k = k ref := by
  unfold followPartner
  cases existingUserData reply with
  | none => exact Or.inl rfl
  | some userData =>
      dsimp only
      split
      · cases hdoc : document userData.partner with
        | none => exact Or.inr (Or.inl (withDocument_of_none hdoc k))
        | some ref => exact Or.inr (Or.inr ⟨ref, withDocument_of_eq hdoc k⟩)
      · exact Or.inl rfl

/-- What the three outcomes have in common. -/
theorem followPartner_rule {P : Task → Prop} {k : String → Task} (done : P (.done none))
    (raised : P .raised) (next : ∀ ref, P (k ref)) (reply : Option DocumentSnapshot) :
    P (followPartner reply k) := by
  rcases followPartner_cases reply k with h | h | ⟨ref, h⟩
  · exact h ▸ done
  · exact h ▸ raised
  · exact h ▸ next ref

section Current

variable {users : Collection} {a p ref : String}

/-- The reply with the present document `a` names the partner of `a`. -/
theorem followPartner_of_names (hnames : Names users a p) (hdoc : document p = some ref)
    (k : String → Task) : followPartner (some ⟨users a⟩) k = k ref := by
  obtain ⟨user, huser, rfl⟩ := partnerOf_eq_some.mp hnames.1
  have hsome : (users a).map UserData.init = some user := huser
  rw [followPartner, existingUserData_some, hsome]
  dsimp only
  rw [if_pos hnames.2, withDocument_of_eq hdoc]

theorem followPartner_of_raises (hnames : Names users a p) (hdoc : document p = none)
    (k : String → Task) : followPartner (some ⟨users a⟩) k = .raised := by
  obtain ⟨user, huser, rfl⟩ := partnerOf_eq_some.mp hnames.1
  have hsome : (users a).map UserData.init = some user := huser
  rw [followPartner, existingUserData_some, hsome]
  dsimp only
  rw [if_pos hnames.2, withDocument_of_none hdoc]

theorem followPartner_of_not_names (h : ∀ p, ¬ Names users a p) (k : String → Task) :
    followPartner (some ⟨users a⟩) k = .done none := by
  rw [followPartner, existingUserData_some]
  cases huser : (users a).map UserData.init with
  | none => rfl
  | some user =>
      have hempty : ¬ user.partner ≠ "" := fun hne => h _ ⟨partnerOf_of_userOf huser, hne⟩
      dsimp only
      rw [if_neg hempty]

variable (users a) in
/-- The document of `a` names nobody, somebody without a document path, or a document. -/
theorem names_cases : (∀ p, ¬ Names users a p) ∨ (∃ p, Names users a p ∧ document p = none) ∨
    ∃ p ref, Names users a p ∧ document p = some ref := by
  by_cases h : ∃ p, Names users a p
  · obtain ⟨p, hnames⟩ := h
    cases hdoc : document p with
    | none => exact Or.inr (Or.inl ⟨p, hnames, hdoc⟩)
    | some ref => exact Or.inr (Or.inr ⟨p, ref, hnames, hdoc⟩)
  · exact Or.inl fun p hnames => h ⟨p, hnames⟩

/-- The reply with the present document leads to a request exactly if the document
names another one, and `k` begins with that request there. -/
theorem followPartner_eq_iff {k : String → Task} {task : Task} (hdone : task ≠ .done none)
    (hraised : task ≠ .raised) :
    followPartner (some ⟨users a⟩) k = task ↔
      ∃ p ref, Names users a p ∧ document p = some ref ∧ k ref = task := by
  constructor
  · intro h
    rcases names_cases users a with hno | ⟨p, hnames, hdoc⟩ | ⟨p, ref, hnames, hdoc⟩
    · exact absurd ((followPartner_of_not_names hno k).symm.trans h).symm hdone
    · exact absurd ((followPartner_of_raises hnames hdoc k).symm.trans h).symm hraised
    · exact ⟨p, ref, hnames, hdoc, (followPartner_of_names hnames hdoc k).symm.trans h⟩
  · rintro ⟨p, ref, hnames, hdoc, rfl⟩
    exact followPartner_of_names hnames hdoc k

end Current

/-- Only the decoded partner matters. -/
theorem followPartner_congr {users users' : Collection} {a : String}
    (h : partnerOf users a = partnerOf users' a) (k : String → Task) :
    followPartner (some ⟨users a⟩) k = followPartner (some ⟨users' a⟩) k := by
  have hnames : ∀ p, Names users a p ↔ Names users' a p := fun p => by rw [Names, Names, h]
  rcases names_cases users a with hno | ⟨p, hp, hdoc⟩ | ⟨p, ref, hp, hdoc⟩
  · rw [followPartner_of_not_names hno,
      followPartner_of_not_names fun p hp => hno p ((hnames p).mpr hp)]
  · rw [followPartner_of_raises hp hdoc, followPartner_of_raises ((hnames p).mp hp) hdoc]
  · rw [followPartner_of_names hp hdoc, followPartner_of_names ((hnames p).mp hp) hdoc]

/-! ### The replies to a poll -/

/-- The first reply makes a poll read the document its reader's partner field names. -/
theorem userCompletion_eq_read {users : Collection} {a ref : String}
    {completion : Option DocumentSnapshot → Task} :
    userCompletion (some ⟨users a⟩) = .read ref completion ↔
      completion = partnerCompletion ∧ ∃ p, Names users a p ∧ document p = some ref := by
  rw [userCompletion_eq, followPartner_eq_iff (by simp) (by simp)]
  constructor
  · rintro ⟨p, ref', hnames, hdoc, hread⟩
    rw [Request.Program.read.injEq] at hread
    obtain ⟨rfl, rfl⟩ := hread
    exact ⟨rfl, p, hnames, hdoc⟩
  · rintro ⟨rfl, p, hnames, hdoc⟩
    exact ⟨p, ref, hnames, hdoc, rfl⟩

/-- What the first reply leads to: nothing more, an exception, or the second read. -/
theorem userCompletion_cases (reply : Option DocumentSnapshot) :
    userCompletion reply = .done none ∨ userCompletion reply = .raised ∨
      ∃ ref, userCompletion reply = .read ref partnerCompletion :=
  followPartner_cases reply _

/-- The first reply never places a pin. -/
theorem userCompletion_ne_pin (reply : Option DocumentSnapshot) (pin : Pin) :
    userCompletion reply ≠ .done (some pin) := by
  rcases userCompletion_cases reply with h | h | ⟨ref, h⟩
  · rw [h]; simp
  · rw [h]; simp
  · rw [h]; simp

/-- The two completion handlers of a poll are different. -/
theorem userCompletion_ne_partnerCompletion : userCompletion ≠ partnerCompletion := by
  intro h
  exact userCompletion_ne_pin (some ⟨some fallbackDictionary⟩) (partnerPin (.init fallbackDictionary))
    (congrFun h _)

/-- The second reply places the pin of the document it returns. -/
theorem partnerCompletion_eq_pin {users : Collection} {ref : String} {pin : Pin} :
    partnerCompletion (some ⟨users ref⟩) = .done (some pin) ↔
      ∃ partnerData, userOf users ref = some partnerData ∧ partnerPin partnerData = pin := by
  rw [partnerCompletion, existingUserData_some, Request.Program.done.injEq,
    Option.map_eq_some_iff]
  rfl

/-! ## Concrete users -/

/-- Alice's uid. -/
abbrev alice : Uid := ⟨"alice-7", by decide⟩

/-- Bob's uid. -/
abbrev bob : Uid := ⟨"bobby-7", by decide⟩

/-- Carol's uid. -/
abbrev carol : Uid := ⟨"carol-7", by decide⟩

/-- A filled-in sign-up form, for concrete runs. -/
def testForm (email username : String) : SignUpForm where
  emailTextField := some (.ofScalars email)
  usernameTextField := some (.ofScalars username)
  passwordTextField := some (.ofScalars "password")

/-- Alice and Bob, who are partners. -/
def pairedUsers : Collection := fun ref =>
  if ref = "alice-7" then
    some ((signUpDocument "a@x" "Alice" "alice-7").merge [(.partner, .value (.string "bobby-7"))])
  else if ref = "bobby-7" then
    some ((signUpDocument "b@x" "Bob" "bobby-7").merge [(.partner, .value (.string "alice-7"))])
  else none

end CocoMap
