import CocoMap.World

/-!
# Operations under way at the same time

The concurrent model: a family `ops : ι → Operation` of calls, on any devices, of
any users, whose Firestore requests interleave.  `concurrently users ops` is the
system in which none of them has started; a schedule `List ι` says whose request
is served next, and `Request.advance firestore` serves it.  Each call's requests
are served in its own order, a read returns the current version of a document,
and nothing else is assumed of the schedule: it need not keep the calls of one
device apart, nor give the operations in an order in which the screens allow them,
so what holds of every schedule holds of those the app can produce.
-/

namespace CocoMap

open Request Transition

universe u

variable {ι : Type u}

/-- Calls of handlers over one collection. -/
abbrev Calls (ι : Type u) :=
  System ι String (Option DocumentSnapshot) Write (Option Pin) Collection

/-- The calls of a family of operations, none of them started. -/
def concurrently (users : Collection) (ops : ι → Operation) : Calls ι where
  store := users
  calls i := (ops i).task

/-- Serve the next request of one call. -/
abbrev serve [DecidableEq ι] : Calls ι → ι → Option (Calls ι) := advance firestore

/-- Every call is somewhere in its handler. -/
def Started (ops : ι → Operation) (sys : Calls ι) : Prop :=
  ∀ i, (ops i).task.Remains (sys.calls i)

theorem started_concurrently (users : Collection) (ops : ι → Operation) :
    Started ops (concurrently users ops) := fun _ => .refl _

theorem Started.serve [DecidableEq ι] {ops : ι → Operation} {sys sys' : Calls ι} {i : ι}
    (h : Started ops sys) (hstep : serve sys i = some sys') : Started ops sys' :=
  fun j => (h j).trans (advance_remains hstep j)

/-! ## The writes of the app -/

/-- The writes that some handler issues. -/
inductive Write.OfApp : Write → Prop
  | signUp (ref email username uid : String) :
      OfApp (.setData ref (signUpDocument email username uid))
  | setPartner (ref partner : String) : OfApp (setPartner ref partner)
  | deletePartner (ref : String) : OfApp (deletePartner ref)
  | delete (ref : String) : OfApp (.delete ref)
  | setLocation (ref : String) (lat lon : CLLocationDegrees) : OfApp (setLocation ref lat lon)

theorem handlePartnerRemove_writes (uid : Uid) :
    (handlePartnerRemove (some uid)).Writes fun request =>
      ∃ ref, request = deletePartner ref := by
  rw [handlePartnerRemove_some]
  exact followPartner_rule (P := fun task => task.Writes _) trivial trivial
    fun ref => ⟨⟨ref, rfl⟩, ⟨uid.string, rfl⟩, trivial⟩

/-- A poll writes nothing, whatever its reads return. -/
theorem updatePin_writes (uid : Uid) (Φ : Write → Prop) :
    (updatePin (some uid)).Writes Φ := by
  rw [updatePin_some]
  exact followPartner_rule (P := fun task => task.Writes Φ) trivial trivial fun _ _ => trivial

/-- The writes an operation may issue, whatever its reads return. -/
inductive Operation.Issues : Operation → Write → Prop
  | signUp {form : SignUpForm} {createUser : Option Uid} {email username password : String}
      {uid : Uid} (hform : form.submitted = some (email, username, password))
      (hcreated : (Operation.signUp form createUser).created = some uid) :
      Issues (.signUp form createUser)
        (.setData uid.string (signUpDocument email username uid.string))
  | codePartner {uid : Uid} {text : FieldText} {codeRef : String}
      (hdoc : document text.string = some codeRef) :
      Issues (.code uid text) (setPartner codeRef uid.string)
  | codeOwn {uid : Uid} {text : FieldText} {codeRef : String}
      (hdoc : document text.string = some codeRef) :
      Issues (.code uid text) (setPartner uid.string text.string)
  | partnerRemove (uid : Uid) (ref : String) : Issues (.partnerRemove uid) (deletePartner ref)
  | withdraw (uid : Uid) : Issues (.withdraw uid) (.delete uid.string)
  | updateLocations (uid : Uid) (location : CLLocationCoordinate2D)
      (older : List CLLocationCoordinate2D) :
      Issues (.updateLocations uid (location :: older))
        (setLocation uid.string location.latitude location.longitude)

/-- **What an operation may write**, one case for each update of the source. -/
theorem Operation.task_issues (op : Operation) : op.task.Writes op.Issues := by
  cases op with
  | signUp form createUser =>
      rcases signUp_cases form createUser with ⟨-, htask⟩ | ⟨_, _, _, _, hform, hcreated, htask⟩
      · rw [Operation.task, htask]; trivial
      · rw [Operation.task, htask]; exact ⟨.signUp hform hcreated, trivial⟩
  | code uid text =>
      cases hdoc : document text.string with
      | none =>
          -- the exception comes before the first update
          rw [Operation.task, handleCode_of_raises hdoc]; trivial
      | some codeRef =>
          rw [Operation.task, handleCode_eq hdoc]
          exact ⟨.codePartner hdoc, .codeOwn hdoc, trivial⟩
  | partnerRemove uid =>
      refine (handlePartnerRemove_writes uid).mono ?_
      rintro _ ⟨ref, rfl⟩
      exact .partnerRemove uid ref
  | withdraw uid =>
      rw [Operation.task, handleWithdraw_some]
      exact ⟨.withdraw uid, trivial⟩
  | updateLocations uid locations =>
      cases locations with
      | nil => trivial
      | cons location older =>
          rw [Operation.task, didUpdateLocations_some]
          exact ⟨.updateLocations uid location older, trivial⟩
  | poll uid => exact updatePin_writes uid _

theorem Operation.task_writes (op : Operation) : op.task.Writes Write.OfApp := by
  refine op.task_issues.mono fun request hissues => ?_
  cases hissues with
  | signUp hform hcreated => exact .signUp ..
  | codePartner hdoc => exact .setPartner ..
  | codeOwn hdoc => exact .setPartner ..
  | partnerRemove uid ref => exact .deletePartner ref
  | withdraw uid => exact .delete uid.string
  | updateLocations uid location older => exact .setLocation ..

/-- Every write in progress is one of the app's. -/
theorem Started.ofApp {ops : ι → Operation} {sys : Calls ι} (hstart : Started ops sys) {i : ι}
    {request : Write} {rest : Task} (hcall : sys.calls i = .write request rest) :
    request.OfApp := by
  have hwrites := (ops i).task_writes.of_remains (hstart i)
  rw [hcall] at hwrites
  exact hwrites.1

/-! ## What is left of a call -/

/-- The states of a `handlePartnerRemove` under way. -/
theorem remains_partnerRemove {uid : Uid} {q : Task}
    (h : (handlePartnerRemove (some uid)).Remains q) :
    q = .read uid.string (partnerRemoveCompletion uid.string) ∨ q = .raised ∨ q = .done none ∨
      (∃ ref, q = .write (deletePartner ref) (.write (deletePartner uid.string) (.done none))) ∨
      q = .write (deletePartner uid.string) (.done none) := by
  rw [handlePartnerRemove_some, Program.remains_read] at h
  rcases h with rfl | ⟨reply, h⟩
  · exact Or.inl rfl
  · rw [partnerRemoveCompletion_eq] at h
    rcases followPartner_cases reply _ with hdone | hraised | ⟨ref, hwrite⟩
    · rw [hdone] at h
      exact Or.inr (Or.inr (Or.inl (Program.remains_done.mp h)))
    · rw [hraised] at h
      exact Or.inr (Or.inl (Program.remains_raised.mp h))
    · rw [hwrite, Program.remains_write, Program.remains_write, Program.remains_done] at h
      rcases h with rfl | rfl | rfl
      · exact Or.inr (Or.inr (Or.inr (Or.inl ⟨ref, rfl⟩)))
      · exact Or.inr (Or.inr (Or.inr (Or.inr rfl)))
      · exact Or.inr (Or.inr (Or.inl rfl))

/-- The states of a poll under way. -/
theorem remains_updatePin {uid : Uid} {q : Task} (h : (updatePin (some uid)).Remains q) :
    q = .read uid.string userCompletion ∨ q = .raised ∨ (∃ pin, q = .done pin) ∨
      ∃ ref, q = .read ref partnerCompletion := by
  rw [updatePin_some, Program.remains_read] at h
  rcases h with rfl | ⟨reply, h⟩
  · exact Or.inl rfl
  · rcases userCompletion_cases reply with hdone | hraised | ⟨ref, hread⟩
    · rw [hdone] at h
      exact Or.inr (Or.inr (Or.inl ⟨none, Program.remains_done.mp h⟩))
    · rw [hraised] at h
      exact Or.inr (Or.inl (Program.remains_raised.mp h))
    · rw [hread, Program.remains_read] at h
      rcases h with rfl | ⟨reply', h⟩
      · exact Or.inr (Or.inr (Or.inr ⟨ref, rfl⟩))
      · exact Or.inr (Or.inr (Or.inl ⟨_, Program.remains_done.mp h⟩))

end CocoMap
