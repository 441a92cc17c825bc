import Mathlib.Data.Option.Basic
import CocoMap.Interleaved

/-!
# Documents are well formed, and their owner's

Documents are untyped maps, and four handlers write them, two of them into the
document of somebody else, under a key typed by hand.  Still every document stays
what its owner made it:

* `OwnedBy` — the document `k` has the uid `k`, the email and name typed at a sign-up
  that created `k`, coordinates from one place, and a string for a partner, if any;
* `Decodes` — the decoder returns what is stored, and none of its defaults.

Only a sign-up creates a document, and it writes all six fields.  Every other write
is an update of the partner field alone, or of both coordinates of the caller's own
document, so it keeps `OwnedBy` wherever it lands.
-/

namespace CocoMap

open Request Transition

universe u

variable {ι : Type u}

/-- The document `k` is what the owner of the account `k` made it. -/
structure OwnedBy (ops : ι → Operation) (k : String) (doc : Document) : Prop where
  /-- The uid is the key, and email and name are the texts typed at the sign-up. -/
  account : ∃ i form createUser uid emailText usernameText,
    ops i = .signUp form createUser ∧ (ops i).created = some uid ∧ uid.string = k ∧
      form.emailTextField = some emailText ∧ form.usernameTextField = some usernameText ∧
      emailText.string ≠ "" ∧ usernameText.string ≠ "" ∧ doc .uid = some (.string k) ∧
      doc .email = some (.string emailText.string) ∧
      doc .name = some (.string usernameText.string)
  /-- Both coordinates are the ones of the sign-up, or of one call of `k`'s device. -/
  location : (doc .lat = some (.double tokyoLatitude) ∧ doc .lon = some (.double tokyoLongitude)) ∨
    ∃ i uid location newer, ops i = .updateLocations uid (location :: newer) ∧ uid.string = k ∧
      doc .lat = some (.double location.latitude) ∧ doc .lon = some (.double location.longitude)
  partner : doc .partner = none ∨ ∃ s, doc .partner = some (.string s)

/-- The decoder returns the stored email, uid, name and coordinates. -/
def Decodes (doc : Document) : Prop :=
  doc .email = some (.string (UserData.init doc).email) ∧
    doc .uid = some (.string (UserData.init doc).uid) ∧
    doc .name = some (.string (UserData.init doc).name) ∧
    doc .lat = some (.double (UserData.init doc).latitude) ∧
    doc .lon = some (.double (UserData.init doc).longitude)

/-- Every document is its owner's. -/
def AllOwned (ops : ι → Operation) (users : Collection) : Prop :=
  ∀ k doc, users k = some doc → OwnedBy ops k doc

variable {ops : ι → Operation} {users : Collection}

theorem OwnedBy.decodes {k : String} {doc : Document} (h : OwnedBy ops k doc) : Decodes doc := by
  obtain ⟨_, _, _, _, emailText, usernameText, -, -, -, -, -, -, -, huid, hemail, hname⟩ := h.account
  obtain ⟨lat, lon, hlat, hlon⟩ : ∃ lat lon, doc .lat = some (.double lat) ∧
      doc .lon = some (.double lon) := by
    rcases h.location with ⟨hlat, hlon⟩ | ⟨_, _, location, _, -, -, hlat, hlon⟩
    · exact ⟨_, _, hlat, hlon⟩
    · exact ⟨_, _, hlat, hlon⟩
  simp [Decodes, UserData.init, huid, hemail, hname, hlat, hlon]

/-! ## What each write keeps -/

/-- The guards of the sign-up let only texts through that are not empty. -/
theorem submitted_eq_some {form : SignUpForm} {email username password : String}
    (h : form.submitted = some (email, username, password)) :
    ∃ emailText usernameText : FieldText, form.emailTextField = some emailText ∧
      form.usernameTextField = some usernameText ∧ emailText.string = email ∧
      usernameText.string = username ∧ email ≠ "" ∧ username ≠ "" := by
  unfold SignUpForm.submitted at h
  simp only [Option.bind_eq_bind, Option.bind_eq_some_iff, Option.guard_eq_some'] at h
  obtain ⟨emailText, hemail, _, hguard, usernameText, husername, _, hguard', _, _, _, _, h⟩ := h
  cases h
  exact ⟨emailText, usernameText, hemail, husername, rfl, rfl,
    FieldText.ne_empty_of_count hguard, FieldText.ne_empty_of_count hguard'⟩

/-- What a sign-up writes belongs to its account. -/
theorem ownedBy_signUp {i : ι} {form : SignUpForm} {createUser : Option Uid}
    {email username password : String} {uid : Uid} (hop : ops i = .signUp form createUser)
    (hcreated : (Operation.signUp form createUser).created = some uid)
    (hform : form.submitted = some (email, username, password)) :
    OwnedBy ops uid.string (signUpDocument email username uid.string) where
  account := by
    obtain ⟨emailText, usernameText, hemail, husername, rfl, rfl, hne, hne'⟩ :=
      submitted_eq_some hform
    exact ⟨i, form, createUser, uid, emailText, usernameText, hop, hop ▸ hcreated, rfl, hemail,
      husername, hne, hne', rfl, rfl, rfl⟩
  location := Or.inl ⟨rfl, rfl⟩
  partner := Or.inr ⟨"", rfl⟩

/-- An update of the partner field leaves everything else to the owner. -/
theorem OwnedBy.updatePartner {k : String} {doc : Document} (h : OwnedBy ops k doc)
    {value : FieldValue} (hvalue : value = .delete ∨ ∃ s, value = .value (.string s)) :
    OwnedBy ops k (doc.merge [(.partner, value)]) where
  account := h.account
  location := h.location
  partner := by
    rcases hvalue with rfl | ⟨s, rfl⟩
    · exact Or.inl rfl
    · exact Or.inr ⟨s, rfl⟩

/-- The owner's device stores both coordinates of one location. -/
theorem OwnedBy.updateLocation {uid : Uid} {doc : Document} (h : OwnedBy ops uid.string doc) {i : ι}
    {location : CLLocationCoordinate2D} {newer : List CLLocationCoordinate2D}
    (hop : ops i = .updateLocations uid (location :: newer)) :
    OwnedBy ops uid.string (doc.merge [(.lat, .value (.double location.latitude)),
      (.lon, .value (.double location.longitude))]) where
  account := h.account
  location := Or.inr ⟨i, uid, location, newer, hop, rfl, rfl, rfl⟩
  partner := h.partner

/-- An update keeps all documents their owners', if it keeps the one it is addressed to. -/
theorem AllOwned.updateData (h : AllOwned ops users) {ref : String}
    {fields : List (Field × FieldValue)}
    (keeps : ∀ doc, OwnedBy ops ref doc → OwnedBy ops ref (doc.merge fields)) :
    AllOwned ops ((Write.updateData ref fields).perform users) := by
  intro k doc hdoc
  rw [Write.perform_eq] at hdoc
  split at hdoc
  · rename_i hk
    subst hk
    obtain ⟨old, hold, rfl⟩ := Option.map_eq_some_iff.mp hdoc
    exact keeps old (h _ old hold)
  · exact h k doc hdoc

theorem AllOwned.setPartner (h : AllOwned ops users) (ref partner : String) :
    AllOwned ops ((setPartner ref partner).perform users) :=
  h.updateData fun _ hdoc => hdoc.updatePartner (Or.inr ⟨partner, rfl⟩)

theorem AllOwned.deletePartner (h : AllOwned ops users) (ref : String) :
    AllOwned ops ((deletePartner ref).perform users) :=
  h.updateData fun _ hdoc => hdoc.updatePartner (Or.inl rfl)

theorem AllOwned.delete (h : AllOwned ops users) (ref : String) :
    AllOwned ops ((Write.delete ref).perform users) := by
  intro k doc hdoc
  rw [Write.perform_eq] at hdoc
  split at hdoc
  · cases hdoc
  · exact h k doc hdoc

theorem AllOwned.setData (h : AllOwned ops users) {ref : String} {data : Document}
    (hdata : OwnedBy ops ref data) : AllOwned ops ((Write.setData ref data).perform users) := by
  intro k doc hdoc
  rw [Write.perform_eq] at hdoc
  split at hdoc
  · rename_i hk
    subst hk
    cases hdoc
    exact hdata
  · exact h k doc hdoc

/-! ## Runs -/

/-- Every write of every call keeps the documents their owners'. -/
theorem task_keeps_allOwned (ops : ι → Operation) (i : ι) :
    (ops i).task.Writes fun request => ∀ users, AllOwned ops users →
      AllOwned ops (request.perform users) := by
  refine (ops i).task_issues.mono fun request hissues users h => ?_
  generalize hop : ops i = op at hissues
  cases hissues with
  | signUp hform hcreated => exact h.setData (ownedBy_signUp hop hcreated hform)
  -- whatever document the text leads to, only its partner field is written
  | codePartner hdoc => exact h.setPartner _ _
  | codeOwn hdoc => exact h.setPartner _ _
  | partnerRemove uid ref => exact h.deletePartner ref
  | withdraw uid => exact h.delete uid.string
  | updateLocations uid location older =>
      exact h.updateData fun _ hdoc => hdoc.updateLocation hop

theorem everywhere_allOwned [DecidableEq ι] (ops : ι → Operation) (schedule : List ι) :
    Everywhere serve (fun sys => AllOwned ops sys.store) (concurrently (fun _ => none) ops)
      schedule := by
  refine everywhere_store (task_keeps_allOwned ops) ?_ schedule
  rintro k doc ⟨⟩

/-- Only an account has a document. -/
theorem exists_created_of_run [DecidableEq ι] {schedule : List ι} {sys : Calls ι}
    (hrun : run serve (concurrently (fun _ => none) ops) schedule = some sys) {k : String}
    (hdoc : sys.store k ≠ none) : ∃ i uid, (ops i).created = some uid ∧ uid.string = k := by
  obtain ⟨doc, hdoc⟩ := Option.ne_none_iff_exists'.mp hdoc
  obtain ⟨i, _, _, uid, _, _, -, hcreated, hk, -⟩ :=
    ((everywhere_allOwned ops schedule).last hrun k doc hdoc).account
  exact ⟨i, uid, hcreated, hk⟩

/-- **In every state of every interleaving the documents are well formed and their
owners'**, so the decoder returns what is stored in them. -/
theorem everywhere_ownedBy [DecidableEq ι] (ops : ι → Operation) (schedule : List ι) :
    Everywhere serve
      (fun sys => ∀ k doc, sys.store k = some doc → OwnedBy ops k doc ∧ Decodes doc)
      (concurrently (fun _ => none) ops) schedule := by
  refine (everywhere_allOwned ops schedule).mono fun sys h k doc hdoc => ?_
  exact ⟨h k doc hdoc, (h k doc hdoc).decodes⟩

end CocoMap
