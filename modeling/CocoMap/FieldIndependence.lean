import CocoMap.Interleaved
import CocoMap.Lib.Unwinding

/-!
# Location sharing and pairing write different fields

A user's document is written from two sides at any time: the owner's device
stores its location there, the partner's device the partner field.  Every one of
these writes is an `updateData`, which merges the fields it names, so neither side
loses what the other stored.

The observer of the unwinding argument sees which documents exist and some of
their fields, `AgreeOn fields`.  A write acts alike on what is seen; an update of
other fields is not seen; the only read that decides about later writes, the one
in `handlePartnerRemove`, looks at the partner field alone.
-/

namespace CocoMap

open Request Transition

/-! ## Collections that agree on some fields -/

/-- A document without the fields that are not listed. -/
def Document.only (doc : Document) (fields : List Field) : Document := fun field =>
  if field ∈ fields then doc field else none

/-- The same documents exist, and agree on the listed fields. -/
def AgreeOn (fields : List Field) (users users' : Collection) : Prop :=
  ∀ ref, (users ref).map (·.only fields) = (users' ref).map (·.only fields)

theorem agreeOn_equivalence (fields : List Field) : Equivalence (AgreeOn fields) where
  refl _ _ := rfl
  symm h ref := (h ref).symm
  trans h h' ref := (h ref).trans (h' ref)

theorem Document.only_eq_iff {doc doc' : Document} {fields : List Field} :
    doc.only fields = doc'.only fields ↔ ∀ field ∈ fields, doc field = doc' field := by
  constructor
  · intro h field hfield
    have hf := congrFun h field
    rwa [only, only, if_pos hfield, if_pos hfield] at hf
  · intro h
    funext field
    rw [only, only]
    by_cases hfield : field ∈ fields
    · rw [if_pos hfield, if_pos hfield, h field hfield]
    · rw [if_neg hfield, if_neg hfield]

/-- What it means for two collections to agree on some fields. -/
theorem agreeOn_iff {fields : List Field} {users users' : Collection} :
    AgreeOn fields users users' ↔
      ∀ ref, (users ref = none ↔ users' ref = none) ∧
        ∀ doc doc', users ref = some doc → users' ref = some doc' →
          ∀ field ∈ fields, doc field = doc' field := by
  refine forall_congr' fun ref => ?_
  cases users ref with
  | none => cases users' ref with
    | none => simp
    | some doc' => simp
  | some doc => cases users' ref with
    | none => simp
    | some doc' => simp [Document.only_eq_iff]

/-- An update keeps the agreement of two documents. -/
theorem Document.only_merge_congr {doc doc' : Document} {fields : List Field}
    (h : doc.only fields = doc'.only fields) (update : List (Field × FieldValue)) :
    (doc.merge update).only fields = (doc'.merge update).only fields := by
  rw [only_eq_iff] at h ⊢
  intro field hfield
  rw [merge, merge, h field hfield]

/-- An update of other fields is not seen. -/
theorem Document.only_merge_of_disjoint (doc : Document) {fields : List Field}
    {update : List (Field × FieldValue)} (h : ∀ field ∈ fields, update.lookup field = none) :
    (doc.merge update).only fields = doc.only fields := by
  rw [only_eq_iff]
  intro field hfield
  rw [merge, h field hfield]

/-- Every write acts alike on collections that agree on some fields. -/
theorem AgreeOn.perform {fields : List Field} {users users' : Collection}
    (h : AgreeOn fields users users') (request : Write) :
    AgreeOn fields (request.perform users) (request.perform users') := by
  intro ref
  rw [Write.perform_eq, Write.perform_eq]
  by_cases hr : ref = request.ref
  · rw [if_pos hr, if_pos hr]
    have hdoc := h ref
    cases request with
    | setData r data => rfl
    -- an update takes effect on both sides or, for want of the document, on neither
    | updateData r update =>
        rw [Write.effect_updateData, Write.effect_updateData]
        cases hu : users ref with
        | none => cases hu' : users' ref with
          | none => rfl
          | some doc' => simp [hu, hu'] at hdoc
        | some doc => cases hu' : users' ref with
          | none => simp [hu, hu'] at hdoc
          | some doc' =>
              rw [hu, hu', Option.map_some, Option.map_some, Option.some_inj] at hdoc
              simp only [Option.map_some, Document.only_merge_congr hdoc update]
    | delete r => rfl
  · rw [if_neg hr, if_neg hr]
    exact h ref

/-- An update of other fields leads to a collection that agrees with the old one. -/
theorem agreeOn_updateData {fields : List Field} {update : List (Field × FieldValue)}
    (h : ∀ field ∈ fields, update.lookup field = none) (ref : String) (users : Collection) :
    AgreeOn fields ((Write.updateData ref update).perform users) users := by
  intro r
  rw [Write.perform_eq]
  split
  · rw [Write.effect_updateData, Option.map_map]
    exact Option.map_congr fun doc _ => doc.only_merge_of_disjoint h
  · rfl

/-- Who agrees on the partner field agrees on the decoded partner. -/
theorem AgreeOn.partnerOf {fields : List Field} {users users' : Collection}
    (h : AgreeOn fields users users') (hpartner : Field.partner ∈ fields) (ref : String) :
    partnerOf users ref = partnerOf users' ref := by
  obtain ⟨hnone, hsome⟩ := agreeOn_iff.mp h ref
  rw [CocoMap.partnerOf, CocoMap.partnerOf, userOf, userOf]
  cases hu : users ref with
  | none => rw [hnone.mp hu]
  | some doc =>
      cases hu' : users' ref with
      | none => exact absurd (hnone.mpr hu') (by simp [hu])
      | some doc' =>
          simp [UserData.init, hsome doc doc' hu hu' .partner hpartner]

/-! ## The handlers, observed -/

/-- A program without reads respects every agreement. -/
theorem respects_write {fields : List Field} (request : Write) {p : Task}
    (h : p.Respects firestore (AgreeOn fields)) :
    (Program.write request p : Task).Respects firestore (AgreeOn fields) :=
  ⟨fun _ _ hE => hE.perform request, h⟩

theorem respects_withDocument {fields : List Field} {path : String} {k : String → Task}
    (h : ∀ ref, (k ref).Respects firestore (AgreeOn fields)) :
    (withDocument path k).Respects firestore (AgreeOn fields) := by
  cases hdoc : document path with
  | none => rw [withDocument_of_none hdoc]; trivial
  | some ref => rw [withDocument_of_eq hdoc]; exact h ref

section Handlers

variable {fields : List Field}

theorem signUp_respects (form : SignUpForm) (createUser : Option Uid) :
    (handleSignUp form createUser).Respects firestore (AgreeOn fields) := by
  rcases signUp_cases form createUser with ⟨-, htask⟩ | ⟨_, _, _, _, -, -, htask⟩
  · rw [htask]; trivial
  · rw [htask]; exact respects_write _ trivial

theorem code_respects (uid : Uid) (text : FieldText) :
    (handleCode (some uid) (some text)).Respects firestore (AgreeOn fields) :=
  respects_withDocument fun _ => respects_write _ <|
    respects_withDocument fun _ => respects_write _ trivial

theorem partnerRemove_respects (hpartner : Field.partner ∈ fields) (uid : Uid) :
    (handlePartnerRemove (some uid)).Respects firestore (AgreeOn fields) := by
  rw [handlePartnerRemove_some]
  refine ⟨fun users users' h => ?_, ?_⟩
  · -- the observer sees the partner field, all that decides what comes next
    rw [firestore_get, firestore_get, partnerRemoveCompletion_eq, partnerRemoveCompletion_eq]
    exact followPartner_congr (h.partnerOf hpartner uid.string) _
  · exact followPartner_rule (P := fun task => task.Respects firestore (AgreeOn fields)) trivial
      trivial fun _ => respects_write _ (respects_write _ trivial)

theorem withdraw_respects (uid : Uid) :
    (handleWithdraw (some uid)).Respects firestore (AgreeOn fields) := by
  rw [handleWithdraw_some]
  exact respects_write _ trivial

theorem updateLocations_respects (uid : Uid) (locations : List CLLocationCoordinate2D) :
    (didUpdateLocations (some uid) locations).Respects firestore (AgreeOn fields) := by
  cases locations with
  | nil => trivial
  | cons location older =>
      rw [didUpdateLocations_some]
      exact respects_write _ trivial

/-- Location updates are not seen by an observer of other fields. -/
theorem updateLocations_silent (hlat : Field.lat ∉ fields) (hlon : Field.lon ∉ fields) (uid : Uid)
    (locations : List CLLocationCoordinate2D) :
    (didUpdateLocations (some uid) locations).Silent firestore (AgreeOn fields) := by
  cases locations with
  | nil => trivial
  | cons location older =>
      rw [didUpdateLocations_some]
      refine ⟨agreeOn_updateData (fun field hfield => ?_) uid.string, trivial⟩
      have h₁ : field ≠ .lat := fun e => hlat (e ▸ hfield)
      have h₂ : field ≠ .lon := fun e => hlon (e ▸ hfield)
      simp [List.lookup_cons, beq_false_of_ne h₁, beq_false_of_ne h₂]

/-- An update of the partner field is not seen by an observer of other fields. -/
theorem agreeOn_updatePartner (hpartner : Field.partner ∉ fields) (ref : String)
    (value : FieldValue) (users : Collection) :
    AgreeOn fields ((Write.updateData ref [(.partner, value)]).perform users) users :=
  agreeOn_updateData (fun field hfield => by
    have h : field ≠ .partner := fun e => hpartner (e ▸ hfield)
    simp [List.lookup_cons, beq_false_of_ne h]) ref users

theorem code_silent (hpartner : Field.partner ∉ fields) (uid : Uid) (text : FieldText) :
    (handleCode (some uid) (some text)).Silent firestore (AgreeOn fields) := by
  refine (Operation.code uid text).task_issues.mono fun request hissues => ?_
  cases hissues with
  | codePartner hdoc => exact agreeOn_updatePartner hpartner _ _
  | codeOwn hdoc => exact agreeOn_updatePartner hpartner _ _

theorem partnerRemove_silent (hpartner : Field.partner ∉ fields) (uid : Uid) :
    (handlePartnerRemove (some uid)).Silent firestore (AgreeOn fields) := by
  refine (handlePartnerRemove_writes uid).mono ?_
  rintro _ ⟨ref, rfl⟩
  exact agreeOn_updatePartner hpartner ref _

end Handlers

/-! ## Two runs -/

namespace Operation

/-- Sign-up, pairing, dissolving and withdrawal. -/
def isAccountOrPairing : Operation → Bool
  | signUp _ _ => true
  | code _ _ => true
  | partnerRemove _ => true
  | withdraw _ => true
  | updateLocations _ _ => false
  | poll _ => false

/-- Sign-up, withdrawal and location sharing. -/
def isAccountOrLocation : Operation → Bool
  | signUp _ _ => true
  | code _ _ => false
  | partnerRemove _ => false
  | withdraw _ => true
  | updateLocations _ _ => true
  | poll _ => false

theorem respects_of_isAccountOrPairing {fields : List Field} (hpartner : Field.partner ∈ fields)
    {op : Operation} (h : op.isAccountOrPairing) :
    op.task.Respects firestore (AgreeOn fields) := by
  cases op with
  | signUp form createUser => exact signUp_respects form createUser
  | code uid text => exact code_respects uid text
  | partnerRemove uid => exact partnerRemove_respects hpartner uid
  | withdraw uid => exact withdraw_respects uid
  | updateLocations uid locations => cases h
  | poll uid => cases h

theorem silent_of_not_isAccountOrPairing {fields : List Field} (hlat : Field.lat ∉ fields)
    (hlon : Field.lon ∉ fields) {op : Operation} (h : ¬ op.isAccountOrPairing) :
    op.task.Silent firestore (AgreeOn fields) := by
  cases op with
  | signUp form createUser => exact absurd rfl h
  | code uid text => exact absurd rfl h
  | partnerRemove uid => exact absurd rfl h
  | withdraw uid => exact absurd rfl h
  | updateLocations uid locations => exact updateLocations_silent hlat hlon uid locations
  | poll uid => exact updatePin_writes uid _

theorem respects_of_isAccountOrLocation {fields : List Field} {op : Operation}
    (h : op.isAccountOrLocation) : op.task.Respects firestore (AgreeOn fields) := by
  cases op with
  | signUp form createUser => exact signUp_respects form createUser
  | code uid text => cases h
  | partnerRemove uid => cases h
  | withdraw uid => exact withdraw_respects uid
  | updateLocations uid locations => exact updateLocations_respects uid locations
  | poll uid => cases h

theorem silent_of_not_isAccountOrLocation {fields : List Field} (hpartner : Field.partner ∉ fields)
    {op : Operation} (h : ¬ op.isAccountOrLocation) :
    op.task.Silent firestore (AgreeOn fields) := by
  cases op with
  | signUp form createUser => exact absurd rfl h
  | code uid text => exact code_silent hpartner uid text
  | partnerRemove uid => exact partnerRemove_silent hpartner uid
  | withdraw uid => exact absurd rfl h
  | updateLocations uid locations => exact absurd rfl h
  | poll uid => exact updatePin_writes uid _

end Operation

universe u

variable {ι : Type u}

/-- The steps of a schedule that belong to operations of one kind: whose they are,
and of which operation. -/
def stepsOf (kind : Operation → Bool) (ops : ι → Operation) (schedule : List ι) :
    List (ι × Operation) :=
  (schedule.map fun i => (i, ops i)).filter fun s => kind s.2

theorem stepsOf_fst (kind : Operation → Bool) (ops : ι → Operation) (schedule : List ι) :
    (stepsOf kind ops schedule).map Prod.fst = schedule.filter fun i => kind (ops i) := by
  rw [stepsOf, List.filter_map, List.map_map]
  exact List.map_id _

theorem mem_stepsOf {kind : Operation → Bool} {ops : ι → Operation} {schedule : List ι} {i : ι}
    (h : i ∈ schedule) (hkind : kind (ops i)) : (i, ops i) ∈ stepsOf kind ops schedule :=
  List.mem_filter.mpr ⟨List.mem_map_of_mem h, hkind⟩

theorem op_eq_of_mem_stepsOf {kind : Operation → Bool} {ops : ι → Operation} {schedule : List ι}
    {s : ι × Operation} (h : s ∈ stepsOf kind ops schedule) : s.2 = ops s.1 := by
  obtain ⟨i, -, rfl⟩ := List.mem_map.mp (List.mem_of_mem_filter h)
  rfl

/-- **The two-run rule of the app**: whatever the observer sees is decided by the
steps of the operations of one kind. -/
theorem agreeOn_of_stepsOf_eq [DecidableEq ι] {fields : List Field} {kind : Operation → Bool}
    (respects : ∀ op : Operation, kind op → op.task.Respects firestore (AgreeOn fields))
    (silent : ∀ op : Operation, ¬ kind op → op.task.Silent firestore (AgreeOn fields))
    {users : Collection} {ops ops' : ι → Operation} {schedule schedule' : List ι}
    {sys sys' : Calls ι}
    (hrun : run serve (concurrently users ops) schedule = some sys)
    (hrun' : run serve (concurrently users ops') schedule' = some sys')
    (hsteps : stepsOf kind ops schedule = stepsOf kind ops' schedule') :
    AgreeOn fields sys.store sys'.store := by
  have hfilter := congrArg (List.map Prod.fst) hsteps
  rw [stepsOf_fst, stepsOf_fst] at hfilter
  refine unwinding_of_filter_eq (agreeOn_equivalence fields) hrun hrun'
    ((agreeOn_equivalence fields).refl users) hfilter (fun i hi hkind => ?_)
    (fun i => respects (ops i)) (fun i => respects (ops' i))
    (fun i => silent (ops i)) (fun i => silent (ops' i))
  have hmem : (i, ops' i) ∈ stepsOf kind ops schedule := hsteps ▸ mem_stepsOf hi hkind
  show (ops' i).task = (ops i).task
  rw [show ops' i = ops i from op_eq_of_mem_stepsOf hmem]

/-- **Location sharing and pairing never lose each other's updates.** -/
theorem locations_and_pairings_independent [DecidableEq ι] {users : Collection}
    {ops ops' : ι → Operation} {schedule schedule' : List ι} {sys sys' : Calls ι}
    (hrun : run serve (concurrently users ops) schedule = some sys)
    (hrun' : run serve (concurrently users ops') schedule' = some sys') :
    (stepsOf Operation.isAccountOrPairing ops schedule =
        stepsOf Operation.isAccountOrPairing ops' schedule' →
      AgreeOn [.email, .uid, .name, .partner] sys.store sys'.store) ∧
    (stepsOf Operation.isAccountOrLocation ops schedule =
        stepsOf Operation.isAccountOrLocation ops' schedule' →
      AgreeOn [.lat, .lon] sys.store sys'.store) := by
  constructor
  · exact agreeOn_of_stepsOf_eq
      (fun op => Operation.respects_of_isAccountOrPairing (by decide))
      (fun op => Operation.silent_of_not_isAccountOrPairing (by decide) (by decide)) hrun hrun'
  · exact agreeOn_of_stepsOf_eq (fun op => Operation.respects_of_isAccountOrLocation)
      (fun op => Operation.silent_of_not_isAccountOrLocation (by decide)) hrun hrun'

/-- Two users sign up and pair while the first one's location is stored. -/
def pairingWithLocation : Fin 4 → Operation
  | 0 => .signUp (testForm "a@x" "Alice") (some alice)
  | 1 => .signUp (testForm "b@x" "Bob") (some bob)
  | 2 => .code alice (.ofScalars "bobby-7")
  | 3 => .updateLocations alice [⟨0#64, 1#64⟩]

/-- Whether the location is stored early, between the two halves of the pairing, or
never, the documents have the same partners. -/
theorem locations_and_pairings_independent_pairing :
    ∃ sys sys' : Calls (Fin 4),
      run serve (concurrently (fun _ => none) pairingWithLocation) [0, 1, 2, 3, 2] = some sys ∧
      run serve (concurrently (fun _ => none) pairingWithLocation) [0, 1, 2, 2] = some sys' ∧
      AgreeOn [.email, .uid, .name, .partner] sys.store sys'.store := by
  obtain ⟨sys, hsys⟩ : ∃ sys, run serve (concurrently (fun _ => none) pairingWithLocation)
    [0, 1, 2, 3, 2] = some sys := ⟨_, rfl⟩
  obtain ⟨sys', hsys'⟩ : ∃ sys', run serve (concurrently (fun _ => none) pairingWithLocation)
    [0, 1, 2, 2] = some sys' := ⟨_, rfl⟩
  exact ⟨sys, sys', hsys, hsys', (locations_and_pairings_independent hsys hsys').1 rfl⟩

end CocoMap
