import Mathlib.Data.List.Infix
import Mathlib.Logic.Function.Basic
import CocoMap.Lib.Request

/-!
# The `users` collection

What the app uses of Firestore.  A document is an untyped map from field names
to values; the collection maps the path of a document, relative to `users`, to
the document if there is one.  Three writes act on it:

* `setData` replaces the whole document, whether or not it exists;
* `updateData` merges the named fields and fails without effect when the document
  is missing (its precondition is `Exists(true)`);
* `delete` removes the document, and succeeds when there is none.

`document` is `CollectionReference.document(_:)`: it parses the path it is given
and raises on a path with `//` or with an even number of segments.
-/

namespace CocoMap

/-- `CLLocationDegrees` is a `Double`.  The app only stores, copies and shows
degrees, so a value is its IEEE 754 bit pattern. -/
abbrev CLLocationDegrees := BitVec 64

/-- The literal `35.6804`, the latitude of Tokyo. -/
def tokyoLatitude : CLLocationDegrees := 0x4041d71758e21965#64

/-- The literal `139.7690`, the longitude of Tokyo. -/
def tokyoLongitude : CLLocationDegrees := 0x4061789ba5e353f8#64

/-- A field value, as far as the app writes any. -/
inductive Value
  | string (s : String)
  | double (d : CLLocationDegrees)
deriving DecidableEq

/-- The field names the app writes. -/
inductive Field
  | email | name | uid | lat | lon | partner
deriving DecidableEq

/-- A document's data, `[String: Any]`. -/
abbrev Document := Field → Option Value

/-- What an update does to a field: store a value, or `FieldValue.delete()`. -/
inductive FieldValue
  | value (v : Value)
  | delete
deriving DecidableEq

namespace Document

/-- A dictionary literal. -/
def ofPairs (pairs : List (Field × Value)) : Document := fun field => pairs.lookup field

/-- The document after an update of the named fields only. -/
def merge (doc : Document) (fields : List (Field × FieldValue)) : Document := fun field =>
  match fields.lookup field with
  | none => doc field
  | some (.value v) => some v
  | some .delete => none

end Document

/-- The documents at the paths relative to `users`. -/
abbrev Collection := String → Option Document

/-- A write request. -/
inductive Write
  | setData (ref : String) (data : Document)
  | updateData (ref : String) (fields : List (Field × FieldValue))
  | delete (ref : String)

namespace Write

/-- The document a write is addressed to. -/
def ref : Write → String
  | .setData ref _ => ref
  | .updateData ref _ => ref
  | .delete ref => ref

/-- What a write makes of the document it is addressed to. -/
def effect : Write → Option Document → Option Document
  | .setData _ data, _ => some data
  | .updateData _ fields, doc => doc.map fun d => d.merge fields
  | .delete _, _ => none

/-- An accepted write.  An update of a missing document has no effect. -/
def perform (users : Collection) (request : Write) : Collection :=
  Function.update users request.ref (request.effect (users request.ref))

@[simp] theorem ref_setData (r : String) (data : Document) : (setData r data).ref = r := rfl

@[simp] theorem ref_updateData (r : String) (fields : List (Field × FieldValue)) :
    (updateData r fields).ref = r := rfl

@[simp] theorem ref_delete (r : String) : (delete r).ref = r := rfl

@[simp] theorem effect_setData (r : String) (data : Document) (doc : Option Document) :
    (setData r data).effect doc = some data := rfl

@[simp] theorem effect_updateData (r : String) (fields : List (Field × FieldValue))
    (doc : Option Document) :
    (updateData r fields).effect doc = doc.map fun d => d.merge fields := rfl

@[simp] theorem effect_delete (r : String) (doc : Option Document) :
    (delete r).effect doc = none := rfl

theorem perform_self (users : Collection) (request : Write) :
    perform users request request.ref = request.effect (users request.ref) :=
  Function.update_self ..

/-- **The frame of a write**: every other document is as before. -/
theorem perform_of_ne (users : Collection) (request : Write) {ref : String}
    (h : ref ≠ request.ref) : perform users request ref = users ref :=
  Function.update_of_ne h ..

theorem perform_eq (users : Collection) (request : Write) (ref : String) :
    perform users request ref =
      if ref = request.ref then request.effect (users ref) else users ref := by
  by_cases h : ref = request.ref
  · rw [if_pos h, h, perform_self]
  · rw [if_neg h, perform_of_ne users request h]

/-- Only a delete takes a document away. -/
theorem perform_ne_none {users : Collection} {request : Write} {ref : String}
    (hdoc : users ref ≠ none) (h : request ≠ delete ref) : perform users request ref ≠ none := by
  rcases eq_or_ne ref request.ref with rfl | hne
  · rw [perform_self]
    cases request with
    | setData r data => exact Option.some_ne_none data
    | updateData r fields => simpa using hdoc
    | delete r => exact absurd rfl h
  · rwa [perform_of_ne users request hne]

/-- Only `setData` creates a document. -/
theorem perform_eq_none {users : Collection} {request : Write} {ref : String}
    (hdoc : users ref = none) (h : ∀ data, request ≠ setData ref data) :
    perform users request ref = none := by
  rcases eq_or_ne ref request.ref with rfl | hne
  · rw [perform_self]
    cases request with
    | setData r data => exact absurd rfl (h data)
    | updateData r fields => simpa using hdoc
    | delete r => rfl
  · rwa [perform_of_ne users request hne]

end Write

/-! ## Paths -/

/-- The non-empty `/`-separated segments of a path. -/
def segments (path : String) : List String :=
  ((path.toList.splitOn '/').filter fun segment => segment ≠ []).map String.ofList

/-- `ResourcePath::FromString`: the segments, empty ones skipped; `none` is the
exception on `//`. -/
def resourcePath (path : String) : Option (List String) :=
  if ['/', '/'] <:+: path.toList then none else some (segments path)

/-- `db.collection("users").document(path)`, given as the canonical path relative
to `users`; `none` is an exception.  A reference must have an even number of
segments, that of the collection included. -/
def document (path : String) : Option String :=
  match resourcePath path with
  | none => none
  | some relative =>
      if (1 + relative.length) % 2 = 0 then some ("/".intercalate relative) else none

/-- A text that names the document with that very id: not empty and without `/`. -/
def IsDocumentID (s : String) : Prop := s ≠ "" ∧ '/' ∉ s.toList

instance (s : String) : Decidable (IsDocumentID s) :=
  inferInstanceAs (Decidable (_ ∧ _))

theorem segments_of_isDocumentID {s : String} (h : IsDocumentID s) : segments s = [s] := by
  have hne : s.toList ≠ [] := by simpa using h.1
  rw [segments, List.splitOn_eq_singleton h.2]
  simp [hne]

/-- **A document id names its own document.** -/
@[simp] theorem document_of_isDocumentID {s : String} (h : IsDocumentID s) :
    document s = some s := by
  have hslash : ¬ ['/', '/'] <:+: s.toList := fun hslashes =>
    h.2 (hslashes.subset List.mem_cons_self)
  have hpath : resourcePath s = some [s] := by
    rw [resourcePath, if_neg hslash, segments_of_isDocumentID h]
  rw [document, hpath]
  simp

/-- **The paths that do not raise**: those without `//` and with an odd number of segments. -/
theorem document_ne_none_iff {path : String} :
    document path ≠ none ↔ ¬ ['/', '/'] <:+: path.toList ∧ (segments path).length % 2 = 1 := by
  rw [document, resourcePath]
  by_cases hslashes : ['/', '/'] <:+: path.toList
  · simp [hslashes]
  · rw [if_neg hslashes]
    by_cases hodd : (segments path).length % 2 = 1
    · have heven : (1 + (segments path).length) % 2 = 0 := by omega
      simp [hslashes, hodd, heven]
    · have heven : ¬ (1 + (segments path).length) % 2 = 0 := by omega
      simp [hodd, heven]

/-- The parser on paths that alias a document, name none, or raise. -/
example : document "/alice-7/" = some "alice-7" ∧ document "alice-7/posts/x" =
    some "alice-7/posts/x" ∧ document "alice-7/posts" = none ∧ document "" = none ∧
    document "https://co-co.site" = none := by decide

/-! ## Requests -/

/-- What a completion handler of `getDocument` receives when there is no error:
the document's data, absent when the document does not exist. -/
structure DocumentSnapshot where
  data : Option Document

/-- `DocumentSnapshot.exists` -/
def DocumentSnapshot.doesExist (snapshot : DocumentSnapshot) : Bool := snapshot.data.isSome

/-- The Firestore service: a read returns the current version of a document. -/
def firestore : Request.Store String (Option DocumentSnapshot) Write Collection where
  get users ref := some ⟨users ref⟩
  perform := Write.perform

@[simp] theorem firestore_get (users : Collection) (ref : String) :
    firestore.get users ref = some ⟨users ref⟩ := rfl

@[simp] theorem firestore_perform (users : Collection) (request : Write) :
    firestore.perform users request = request.perform users := rfl

end CocoMap
