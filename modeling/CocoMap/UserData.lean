import CocoMap.Firestore

/-!
# Decoding user documents

`UserData.init` is `UserData.init(dictionary:)`: each field is cast to its type,
and a field that is absent or of another type silently becomes a default.  In
particular an absent partner and the partner `""` decode alike.

`userOf users ref` is the decoded document at `ref`, if there is one.  The app's
writes are the ones of the section *The app's updates*; what each does to the
decoded collection is a `userOf_…` lemma, and every later module reasons about
documents through these.
-/

namespace CocoMap

namespace Value

/-- `as? String` -/
def asString : Value → Option String
  | .string s => some s
  | .double _ => none

/-- `as? CLLocationDegrees` -/
def asDegrees : Value → Option CLLocationDegrees
  | .string _ => none
  | .double d => some d

@[simp] theorem asString_string (s : String) : (string s).asString = some s := rfl

@[simp] theorem asDegrees_double (d : CLLocationDegrees) :
    (double d).asDegrees = some d := rfl

end Value

structure UserData where
  email : String
  uid : String
  name : String
  latitude : CLLocationDegrees
  longitude : CLLocationDegrees
  partner : String
deriving DecidableEq

/-- `UserData.init(dictionary:)` -/
def UserData.init (dictionary : Document) : UserData where
  latitude := ((dictionary .lat).bind Value.asDegrees).getD tokyoLatitude
  longitude := ((dictionary .lon).bind Value.asDegrees).getD tokyoLongitude
  email := ((dictionary .email).bind Value.asString).getD ""
  uid := ((dictionary .uid).bind Value.asString).getD ""
  name := ((dictionary .name).bind Value.asString).getD ""
  partner := ((dictionary .partner).bind Value.asString).getD ""

/-- The dictionary a handler falls back to when `document.data()` is `nil`. -/
def fallbackDictionary : Document :=
  .ofPairs [(.partner, .string ""), (.email, .string ""), (.lat, .string ""),
    (.uid, .string ""), (.name, .string ""), (.lon, .string "")]

/-- `if let document = document, document.exists`, then the decoded `data()`. -/
def existingUserData : Option DocumentSnapshot → Option UserData
  | none => none
  | some snapshot =>
      if snapshot.doesExist then
        some (UserData.init (snapshot.data.getD fallbackDictionary))
      else none

/-- The fallback dictionary is never reached: a document that exists has data. -/
@[simp] theorem existingUserData_some (doc : Option Document) :
    existingUserData (some ⟨doc⟩) = doc.map UserData.init := by
  cases doc <;> rfl

/-- The decoded document at `ref`. -/
def userOf (users : Collection) (ref : String) : Option UserData :=
  (users ref).map UserData.init

/-- The decoded partner of the document at `ref`. -/
def partnerOf (users : Collection) (ref : String) : Option String :=
  (userOf users ref).map UserData.partner

theorem userOf_eq_none {users : Collection} {ref : String} :
    userOf users ref = none ↔ users ref = none :=
  Option.map_eq_none_iff

theorem partnerOf_eq_some {users : Collection} {ref p : String} :
    partnerOf users ref = some p ↔ ∃ user, userOf users ref = some user ∧ user.partner = p :=
  Option.map_eq_some_iff

theorem partnerOf_of_userOf {users : Collection} {ref : String} {user : UserData}
    (h : userOf users ref = some user) : partnerOf users ref = some user.partner := by
  rw [partnerOf, h, Option.map_some]

theorem partnerOf_eq_none {users : Collection} {ref : String} :
    partnerOf users ref = none ↔ users ref = none :=
  Option.map_eq_none_iff.trans userOf_eq_none

theorem partnerOf_congr {users users' : Collection} {ref : String} (h : users' ref = users ref) :
    partnerOf users' ref = partnerOf users ref := by
  rw [partnerOf, partnerOf, userOf, userOf, h]

/-- The document `a` has the non-empty decoded partner `p`. -/
def Names (users : Collection) (a p : String) : Prop := partnerOf users a = some p ∧ p ≠ ""

theorem Names.functional {users : Collection} {a p q : String} (hp : Names users a p)
    (hq : Names users a q) : p = q :=
  Option.some.inj (hp.1.symm.trans hq.1)

@[simp] theorem partnerOf_empty (ref : String) : partnerOf (fun _ => none) ref = none := rfl

/-! ## The app's updates -/

/-- `updateData(["partner": partner])` -/
def setPartner (ref partner : String) : Write :=
  .updateData ref [(.partner, .value (.string partner))]

/-- `updateData(["partner": FieldValue.delete()])` -/
def deletePartner (ref : String) : Write :=
  .updateData ref [(.partner, .delete)]

/-- `updateData(["lat": latitude, "lon": longitude])` -/
def setLocation (ref : String) (latitude longitude : CLLocationDegrees) : Write :=
  .updateData ref [(.lat, .value (.double latitude)), (.lon, .value (.double longitude))]

/-- The document written at sign-up. -/
def signUpDocument (email username uid : String) : Document :=
  .ofPairs [(.email, .string email), (.name, .string username), (.uid, .string uid),
    (.lat, .double tokyoLatitude), (.lon, .double tokyoLongitude), (.partner, .string "")]

@[simp] theorem ref_setPartner (ref partner : String) : (setPartner ref partner).ref = ref := rfl

@[simp] theorem ref_deletePartner (ref : String) : (deletePartner ref).ref = ref := rfl

@[simp] theorem ref_setLocation (ref : String) (lat lon : CLLocationDegrees) :
    (setLocation ref lat lon).ref = ref := rfl

/-- The decoded effect of a write on the document it is addressed to. -/
theorem userOf_perform (users : Collection) (request : Write) (ref : String) :
    userOf (request.perform users) ref =
      if ref = request.ref then (request.effect (users ref)).map UserData.init
      else userOf users ref := by
  rw [userOf, Write.perform_eq]
  by_cases h : ref = request.ref
  · rw [if_pos h, if_pos h]
  · rw [if_neg h, if_neg h, userOf]

@[simp] theorem userOf_setPartner (users : Collection) (ref partner ref' : String) :
    userOf ((setPartner ref partner).perform users) ref' =
      if ref' = ref then (userOf users ref').map fun user => { user with partner := partner }
      else userOf users ref' := by
  rw [userOf_perform]
  simp only [setPartner, Write.effect_updateData, userOf, Option.map_map]
  rfl

@[simp] theorem userOf_deletePartner (users : Collection) (ref ref' : String) :
    userOf ((deletePartner ref).perform users) ref' =
      if ref' = ref then (userOf users ref').map fun user => { user with partner := "" }
      else userOf users ref' := by
  rw [userOf_perform]
  simp only [deletePartner, Write.effect_updateData, userOf, Option.map_map]
  rfl

@[simp] theorem userOf_setLocation (users : Collection) (ref : String) (lat lon : CLLocationDegrees)
    (ref' : String) :
    userOf ((setLocation ref lat lon).perform users) ref' =
      if ref' = ref then
        (userOf users ref').map fun user => { user with latitude := lat, longitude := lon }
      else userOf users ref' := by
  rw [userOf_perform]
  simp only [setLocation, Write.effect_updateData, userOf, Option.map_map]
  rfl

@[simp] theorem userOf_setData (users : Collection) (ref : String) (data : Document) (ref' : String) :
    userOf ((Write.setData ref data).perform users) ref' =
      if ref' = ref then some (UserData.init data) else userOf users ref' := by
  rw [userOf_perform]
  rfl

@[simp] theorem userOf_delete (users : Collection) (ref ref' : String) :
    userOf ((Write.delete ref).perform users) ref' =
      if ref' = ref then none else userOf users ref' := by
  rw [userOf_perform]
  rfl

/-! ### The partner field alone -/

@[simp] theorem partnerOf_setPartner (users : Collection) (ref partner ref' : String) :
    partnerOf ((setPartner ref partner).perform users) ref' =
      if ref' = ref then (partnerOf users ref').map fun _ => partner
      else partnerOf users ref' := by
  rw [partnerOf, userOf_setPartner, partnerOf]
  split
  · rw [Option.map_map, Option.map_map]; rfl
  · rfl

@[simp] theorem partnerOf_deletePartner (users : Collection) (ref ref' : String) :
    partnerOf ((deletePartner ref).perform users) ref' =
      if ref' = ref then (partnerOf users ref').map fun _ => "" else partnerOf users ref' := by
  rw [partnerOf, userOf_deletePartner, partnerOf]
  split
  · rw [Option.map_map, Option.map_map]; rfl
  · rfl

@[simp] theorem partnerOf_setLocation (users : Collection) (ref : String)
    (lat lon : CLLocationDegrees) (ref' : String) :
    partnerOf ((setLocation ref lat lon).perform users) ref' = partnerOf users ref' := by
  rw [partnerOf, userOf_setLocation, partnerOf]
  split
  · rw [Option.map_map]; rfl
  · rfl

@[simp] theorem partnerOf_signUp (users : Collection) (ref email username uid ref' : String) :
    partnerOf ((Write.setData ref (signUpDocument email username uid)).perform users) ref' =
      if ref' = ref then some "" else partnerOf users ref' := by
  rw [partnerOf, userOf_setData, partnerOf]
  split <;> rfl

@[simp] theorem partnerOf_delete (users : Collection) (ref ref' : String) :
    partnerOf ((Write.delete ref).perform users) ref' =
      if ref' = ref then none else partnerOf users ref' := by
  rw [partnerOf, userOf_delete, partnerOf]
  split <;> rfl

/-! ### Everything but the partner field -/

/-- What a document says of its user alone. -/
structure Profile where
  name : String
  email : String
  latitude : CLLocationDegrees
  longitude : CLLocationDegrees
deriving DecidableEq

def UserData.profile (user : UserData) : Profile where
  name := user.name
  email := user.email
  latitude := user.latitude
  longitude := user.longitude

/-- The decoded name, email and location of the document at `ref`. -/
def profileOf (users : Collection) (ref : String) : Option Profile :=
  (userOf users ref).map UserData.profile

theorem profileOf_eq_none {users : Collection} {ref : String} :
    profileOf users ref = none ↔ partnerOf users ref = none := by
  rw [profileOf, Option.map_eq_none_iff, partnerOf, Option.map_eq_none_iff]

theorem profileOf_ne_none {users : Collection} {ref : String} :
    profileOf users ref ≠ none ↔ partnerOf users ref ≠ none :=
  profileOf_eq_none.not

@[simp] theorem profileOf_setPartner (users : Collection) (ref partner ref' : String) :
    profileOf ((setPartner ref partner).perform users) ref' = profileOf users ref' := by
  rw [profileOf, userOf_setPartner, profileOf]
  split
  · rw [Option.map_map]; rfl
  · rfl

@[simp] theorem profileOf_deletePartner (users : Collection) (ref ref' : String) :
    profileOf ((deletePartner ref).perform users) ref' = profileOf users ref' := by
  rw [profileOf, userOf_deletePartner, profileOf]
  split
  · rw [Option.map_map]; rfl
  · rfl

@[simp] theorem profileOf_setLocation (users : Collection) (ref : String)
    (lat lon : CLLocationDegrees) (ref' : String) :
    profileOf ((setLocation ref lat lon).perform users) ref' =
      if ref' = ref then
        (profileOf users ref').map fun p => { p with latitude := lat, longitude := lon }
      else profileOf users ref' := by
  rw [profileOf, userOf_setLocation, profileOf]
  split
  · rw [Option.map_map, Option.map_map]; rfl
  · rfl

@[simp] theorem profileOf_signUp (users : Collection) (ref email username uid ref' : String) :
    profileOf ((Write.setData ref (signUpDocument email username uid)).perform users) ref' =
      if ref' = ref then some ⟨username, email, tokyoLatitude, tokyoLongitude⟩
      else profileOf users ref' := by
  rw [profileOf, userOf_setData, profileOf]
  split <;> rfl

@[simp] theorem profileOf_delete (users : Collection) (ref ref' : String) :
    profileOf ((Write.delete ref).perform users) ref' =
      if ref' = ref then none else profileOf users ref' := by
  rw [profileOf, userOf_delete, profileOf]
  split <;> rfl

end CocoMap
