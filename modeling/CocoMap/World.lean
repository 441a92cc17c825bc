import CocoMap.Handlers

/-!
# One operation at a time

The sequential model: any number of users act on the collection, each operation
running to completion before the next starts.  A `World` is the collection
together with the uids Auth has handed out; both start empty.  `World.step` runs
the handler of an operation, if the operation is enabled: a user acts only when
signed in under a uid of an account, the code button works only for a valid
form, and `createUser` returns a uid that was not handed out before.

The `partnerOf_…` lemmas are the specification of each handler run alone, as far
as partners are concerned.
-/

namespace CocoMap

open Request

/-- What a user can do, with the inputs and the answers of Auth. -/
inductive Operation
  | signUp (form : SignUpForm) (createUser : Option Uid)
  | code (uid : Uid) (text : FieldText)
  | partnerRemove (uid : Uid)
  | withdraw (uid : Uid)
  | updateLocations (uid : Uid) (locations : List CLLocationCoordinate2D)
  | poll (uid : Uid)

namespace Operation

/-- The handler behind an operation. -/
def task : Operation → Task
  | signUp form createUser => handleSignUp form createUser
  | code uid text => handleCode (some uid) (some text)
  | partnerRemove uid => handlePartnerRemove (some uid)
  | withdraw uid => handleWithdraw (some uid)
  | updateLocations uid locations => didUpdateLocations (some uid) locations
  | poll uid => updatePin (some uid)

/-- The account an operation creates: `createUser` is called only behind the
guards of the form. -/
def created : Operation → Option Uid
  | signUp form createUser => form.submitted.bind fun _ => createUser
  | _ => none

/-- The signed-in user an operation is started by; nobody is, at sign-up. -/
def actor : Operation → Option Uid
  | signUp _ _ => none
  | code uid _ => some uid
  | partnerRemove uid => some uid
  | withdraw uid => some uid
  | updateLocations uid _ => some uid
  | poll uid => some uid

/-- Whether the button of the operation is enabled by its form. -/
def buttonEnabled : Operation → Bool
  | code _ text => isFormValid (some text)
  | _ => true

/-- When an operation can happen, given the accounts there are. -/
def Enabled (accounts : List Uid) (op : Operation) : Prop :=
  (∀ uid ∈ op.created, uid ∉ accounts) ∧ (∀ uid ∈ op.actor, uid ∈ accounts) ∧
    op.buttonEnabled

instance (accounts : List Uid) (op : Operation) : Decidable (op.Enabled accounts) :=
  inferInstanceAs (Decidable (_ ∧ _ ∧ _))

end Operation

/-- The collection and the uids handed out so far. -/
structure World where
  users : Collection
  accounts : List Uid

namespace World

/-- No account, no document. -/
def init : World where
  users := fun _ => none
  accounts := []

/-- `s` is the uid of somebody who signed up. -/
def SignedUp (w : World) (s : String) : Prop := ∃ uid ∈ w.accounts, uid.string = s

/-- One operation, run to completion. -/
def step (w : World) (op : Operation) : Option World :=
  if op.Enabled w.accounts then
    some { users := op.task.run firestore w.users
           accounts := op.created.toList ++ w.accounts }
  else none

theorem step_eq_some {w w' : World} {op : Operation} :
    w.step op = some w' ↔
      op.Enabled w.accounts ∧ w'.users = op.task.run firestore w.users ∧
        w'.accounts = op.created.toList ++ w.accounts := by
  rw [step]
  by_cases h : op.Enabled w.accounts
  · rw [if_pos h, Option.some_inj]
    refine ⟨fun e => ⟨h, by rw [← e], by rw [← e]⟩, fun ⟨_, hu, ha⟩ => ?_⟩
    cases w'
    simp_all
  · rw [if_neg h]
    simp [h]

theorem users_of_step {w w' : World} {op : Operation} (hstep : w.step op = some w') :
    w'.users = op.task.run firestore w.users :=
  (step_eq_some.mp hstep).2.1

/-- A new account gets a uid that nobody had before. -/
theorem not_signedUp_of_created {w w' : World} {op : Operation} {uid : Uid}
    (hstep : w.step op = some w') (hcreated : op.created = some uid) :
    ¬ w.SignedUp uid.string := by
  rintro ⟨v, hv, hvu⟩
  rw [Uid.string_inj.mp hvu] at hv
  exact (step_eq_some.mp hstep).1.1 uid hcreated hv

/-- Accounts are never taken back. -/
theorem SignedUp.of_step {w w' : World} {op : Operation} {s : String}
    (h : w.SignedUp s) (hstep : w.step op = some w') : w'.SignedUp s := by
  obtain ⟨uid, hmem, rfl⟩ := h
  obtain ⟨-, -, ha⟩ := step_eq_some.mp hstep
  exact ⟨uid, by rw [ha]; exact List.mem_append_right _ hmem, rfl⟩

/-- Only a successful sign-up adds an account. -/
theorem signedUp_iff_of_not_created {w w' : World} {op : Operation} {s : String}
    (hstep : w.step op = some w') (hc : op.created = none) :
    w'.SignedUp s ↔ w.SignedUp s := by
  obtain ⟨-, -, ha⟩ := step_eq_some.mp hstep
  rw [SignedUp, ha, hc]
  rfl

end World

/-! ## The handlers, run alone -/

/-- A sign-up either does nothing, or creates the account and its document. -/
theorem signUp_cases (form : SignUpForm) (createUser : Option Uid) :
    ((Operation.signUp form createUser).created = none ∧
      handleSignUp form createUser = .done none) ∨
    ∃ email username password uid, form.submitted = some (email, username, password) ∧
      (Operation.signUp form createUser).created = some uid ∧
      handleSignUp form createUser =
        .write (.setData uid.string (signUpDocument email username uid.string)) (.done none) := by
  cases hform : form.submitted with
  | none => exact Or.inl (by simp [Operation.created, handleSignUp, hform])
  | some texts =>
      obtain ⟨email, username, password⟩ := texts
      cases createUser with
      | none => exact Or.inl (by simp [Operation.created, handleSignUp, hform])
      | some uid =>
          refine Or.inr ⟨email, username, password, uid, rfl, ?_, handleSignUp_eq hform⟩
          simp [Operation.created, hform]

/-- Running a poll changes nothing. -/
theorem run_updatePin (uid : Uid) (users : Collection) :
    (updatePin (some uid)).run firestore users = users := by
  rw [updatePin_some, Program.run_read, userCompletion_eq]
  exact followPartner_rule (P := fun task => task.run firestore users = users) rfl rfl
    (fun _ => rfl) _

theorem partnerOf_run_code (uid : Uid) {text : FieldText} {codeRef : String}
    (h : document text.string = some codeRef) (users : Collection) (ref : String) :
    partnerOf ((handleCode (some uid) (some text)).run firestore users) ref =
      if ref = uid.string then (partnerOf users ref).map fun _ => text.string
      else if ref = codeRef then (partnerOf users ref).map fun _ => uid.string
      else partnerOf users ref := by
  rw [handleCode_eq h, Program.run_write, Program.run_write, Program.run_done,
    firestore_perform, firestore_perform, partnerOf_setPartner, partnerOf_setPartner]
  by_cases hu : ref = uid.string
  · rw [if_pos hu, if_pos hu]
    split
    · rw [Option.map_map]; rfl
    · rfl
  · rw [if_neg hu, if_neg hu]

theorem run_partnerRemove_of_not_names {uid : Uid} {users : Collection}
    (h : ∀ p, ¬ Names users uid.string p) :
    (handlePartnerRemove (some uid)).run firestore users = users := by
  rw [handlePartnerRemove_some, Program.run_read, firestore_get, partnerRemoveCompletion_eq,
    followPartner_of_not_names h, Program.run_done]

theorem run_partnerRemove_of_names {uid : Uid} {users : Collection} {p partnerRef : String}
    (h : Names users uid.string p) (hdoc : document p = some partnerRef) :
    (handlePartnerRemove (some uid)).run firestore users =
      (deletePartner uid.string).perform ((deletePartner partnerRef).perform users) := by
  rw [handlePartnerRemove_some, Program.run_read, firestore_get, partnerRemoveCompletion_eq,
    followPartner_of_names h hdoc, Program.run_write, Program.run_write, Program.run_done,
    firestore_perform, firestore_perform]

theorem partnerOf_run_partnerRemove {uid : Uid} {users : Collection} {p partnerRef : String}
    (h : Names users uid.string p) (hdoc : document p = some partnerRef) (ref : String) :
    partnerOf ((handlePartnerRemove (some uid)).run firestore users) ref =
      if ref = uid.string ∨ ref = partnerRef then (partnerOf users ref).map fun _ => ""
      else partnerOf users ref := by
  rw [run_partnerRemove_of_names h hdoc, partnerOf_deletePartner, partnerOf_deletePartner]
  by_cases hu : ref = uid.string
  · rw [if_pos hu, if_pos (Or.inl hu)]
    split
    · rw [Option.map_map]; rfl
    · rfl
  · rw [if_neg hu]
    by_cases hp : ref = partnerRef
    · rw [if_pos hp, if_pos (Or.inr hp)]
    · rw [if_neg hp, if_neg (by tauto)]

theorem partnerOf_run_withdraw (uid : Uid) (users : Collection) (ref : String) :
    partnerOf ((handleWithdraw (some uid)).run firestore users) ref =
      if ref = uid.string then none else partnerOf users ref := by
  rw [handleWithdraw_some, Program.run_write, Program.run_done, firestore_perform,
    partnerOf_delete]

theorem partnerOf_run_updateLocations (uid : Uid) (locations : List CLLocationCoordinate2D)
    (users : Collection) (ref : String) :
    partnerOf ((didUpdateLocations (some uid) locations).run firestore users) ref =
      partnerOf users ref := by
  cases locations with
  | nil => rfl
  | cons location older =>
      rw [didUpdateLocations_some, Program.run_write, Program.run_done, firestore_perform,
        partnerOf_setLocation]

/-! ### The same, for a step -/

section Steps

variable {w w' : World} {uid : Uid}

theorem partnerOf_step_code {text : FieldText} {codeRef : String}
    (hdoc : document text.string = some codeRef) (hstep : w.step (.code uid text) = some w')
    (ref : String) :
    partnerOf w'.users ref =
      if ref = uid.string then (partnerOf w.users ref).map fun _ => text.string
      else if ref = codeRef then (partnerOf w.users ref).map fun _ => uid.string
      else partnerOf w.users ref := by
  rw [World.users_of_step hstep]
  exact partnerOf_run_code uid hdoc w.users ref

theorem partnerOf_step_partnerRemove {p partnerRef : String} (h : Names w.users uid.string p)
    (hdoc : document p = some partnerRef) (hstep : w.step (.partnerRemove uid) = some w')
    (ref : String) :
    partnerOf w'.users ref =
      if ref = uid.string ∨ ref = partnerRef then (partnerOf w.users ref).map fun _ => ""
      else partnerOf w.users ref := by
  rw [World.users_of_step hstep]
  exact partnerOf_run_partnerRemove h hdoc ref

theorem partnerOf_step_withdraw (hstep : w.step (.withdraw uid) = some w') (ref : String) :
    partnerOf w'.users ref = if ref = uid.string then none else partnerOf w.users ref := by
  rw [World.users_of_step hstep]
  exact partnerOf_run_withdraw uid w.users ref

theorem partnerOf_step_updateLocations {locations : List CLLocationCoordinate2D}
    (hstep : w.step (.updateLocations uid locations) = some w') (ref : String) :
    partnerOf w'.users ref = partnerOf w.users ref := by
  rw [World.users_of_step hstep]
  exact partnerOf_run_updateLocations uid locations w.users ref

/-- A poll changes no document. -/
theorem users_step_poll (hstep : w.step (.poll uid) = some w') : w'.users = w.users := by
  rw [World.users_of_step hstep]
  exact run_updatePin uid w.users

/-- Dissolving changes no document of a user without a partner. -/
theorem users_step_partnerRemove (h : ∀ p, ¬ Names w.users uid.string p)
    (hstep : w.step (.partnerRemove uid) = some w') : w'.users = w.users := by
  rw [World.users_of_step hstep]
  exact run_partnerRemove_of_not_names h

end Steps

end CocoMap
