import CocoMap.Lib.Transition
import CocoMap.Polling
import CocoMap.World

/-!
# Sessions, screens and documents

Three separate states decide who uses the app: the user Auth keeps signed in on a
device, the screens presented over the main tabs, and the documents on the server.
`Device` has the first two, with the handlers that change them; `Fleet` is any
number of devices and one server, which accepts or rejects the writes of each
device in the order in which they were issued.

Nothing but the handlers keeps the three in step: `handleSignUp` ignores whether its
document was stored, `handleWithdraw` deletes the document and signs nobody out,
and a launch shows the main tabs to whoever is signed in.  `Aligned` is what goes
wrong nowhere else, and `documented_of_aligned` the resulting guarantee.
-/

namespace CocoMap

open Request Transition

/-! ## One device -/

/-- A screen presented over the main tabs. -/
inductive Screen
  | login
  | signUp
deriving DecidableEq

structure Device where
  app : App
  /-- The navigation stack presented over the main tabs, the visible screen first;
  `none` while the app does not run. -/
  screen : Option (List Screen)

/-- What the user does, with the answers of Auth. -/
inductive Action
  | launch
  | handleShowSignUp
  | back
  | handleLogin (signIn : Option Uid)
  | handleSignUp (form : SignUpForm) (createUser : Option Uid)
  | signOut (succeeds : Bool)
  | handleWithdraw

/-- Whom an action signs in: the answer of Auth to a login, or to a sign-up whose form
is filled in. -/
def Action.entered : Action → Option Uid
  | .handleLogin signIn => signIn
  | .handleSignUp form createUser => (Operation.signUp form createUser).created
  | _ => none

/-- The writes a handler issues that does not read. -/
def issued : Task → List Write
  | .done _ => []
  | .raised => []
  | .read _ _ => []
  | .write request next => request :: issued next

namespace Device

/-- A new device. -/
def init : Device where
  app := App.init
  screen := none

/-- The start of a process: `MainTabBarController.viewDidLoad`. -/
def launch (d : Device) : Device where
  app := d.app.terminate.setupViewController
  screen := some (if d.app.currentUser = none then [.login] else [])

/-- The end of a successful login or sign-up: the tabs are set up again and whatever
is presented over them is dismissed. -/
def enter (d : Device) (uid : Uid) : Device where
  app := { d.app with currentUser := some uid }.setupViewController
  screen := some []

/-- `signOut` in `handleSetting`, without an error. -/
def signOut (d : Device) : Device where
  app := { d.app with currentUser := none }
  screen := some [.login]

/-- An action on the device, and the writes it issues. -/
def step (d : Device) : Action → Option (Device × List Write)
  | .launch => some (d.launch, [])
  | .handleShowSignUp =>
      match d.screen with
      | some (.login :: below) => some ({ d with screen := some (.signUp :: .login :: below) }, [])
      | _ => none
  | .back =>
      match d.screen with
      | some (_ :: below :: rest) => some ({ d with screen := some (below :: rest) }, [])
      | _ => none
  | .handleLogin signIn =>
      match d.screen with
      | some (.login :: _) =>
          match signIn with
          | none => some (d, [])
          | some uid => some (d.enter uid, [])
      | _ => none
  | .handleSignUp form createUser =>
      match d.screen with
      | some (.signUp :: _) =>
          match (Operation.signUp form createUser).created with
          | none => some (d, [])
          -- the tabs are shown before the server has answered, and whatever it answers
          | some uid => some (d.enter uid, issued (CocoMap.handleSignUp form createUser))
      | _ => none
  | .signOut succeeds =>
      match d.screen with
      | some [] => some (if succeeds then d.signOut else d, [])
      | _ => none
  | .handleWithdraw =>
      match d.screen with
      | some [] =>
          match d.app.currentUser with
          | none => some (d, [])
          -- the user stays signed in
          | some uid =>
              some ({ d with screen := some [.signUp] }, issued (CocoMap.handleWithdraw (some uid)))
      | _ => none

/-- The main tabs are shown, with nothing over them, to the user `u`. -/
def ShowsTabs (d : Device) (u : Uid) : Prop := d.screen = some [] ∧ d.app.currentUser = some u

end Device

/-! ### What an action can do -/

/-- **The step lemma of a device.**  An action that happens has one of these effects. -/
theorem Device.step_cases {d d' : Device} {action : Action} {writes : List Write}
    (h : d.step action = some (d', writes)) :
    (action = .launch ∧ d' = d.launch ∧ writes = []) ∨
    (d' = d ∧ writes = [] ∧ action ≠ .launch ∧ action.entered = none) ∨
    (∃ screen below, (action = .handleShowSignUp ∨ action = .back) ∧
      d' = { d with screen := some (screen :: below) } ∧ writes = []) ∨
    (∃ uid, action = .handleLogin (some uid) ∧ d' = d.enter uid ∧ writes = []) ∨
    (∃ form createUser uid, action = .handleSignUp form createUser ∧
      (Operation.signUp form createUser).created = some uid ∧ d' = d.enter uid ∧
      writes = issued (CocoMap.handleSignUp form createUser)) ∨
    (action = .signOut true ∧ d.screen = some [] ∧ d' = d.signOut ∧ writes = []) ∨
    (∃ uid, action = .handleWithdraw ∧ d.screen = some [] ∧ d.app.currentUser = some uid ∧
      d' = { d with screen := some [.signUp] } ∧
      writes = issued (CocoMap.handleWithdraw (some uid))) := by
  cases action with
  | launch =>
      cases h
      exact Or.inl ⟨rfl, rfl, rfl⟩
  | handleShowSignUp =>
      dsimp only [step] at h
      split at h
      · rename_i below _
        cases h
        exact Or.inr (Or.inr (Or.inl ⟨.signUp, .login :: below, Or.inl rfl, rfl, rfl⟩))
      · cases h
  | back =>
      dsimp only [step] at h
      split at h
      · rename_i below rest _
        cases h
        exact Or.inr (Or.inr (Or.inl ⟨below, rest, Or.inr rfl, rfl, rfl⟩))
      · cases h
  | handleLogin signIn =>
      dsimp only [step] at h
      split at h
      · split at h
        · cases h
          exact Or.inr (Or.inl ⟨rfl, rfl, by simp, rfl⟩)
        · rename_i uid
          cases h
          exact Or.inr (Or.inr (Or.inr (Or.inl ⟨uid, rfl, rfl, rfl⟩)))
      · cases h
  | handleSignUp form createUser =>
      dsimp only [step] at h
      split at h
      · split at h
        · rename_i hcreated
          cases h
          exact Or.inr (Or.inl ⟨rfl, rfl, by simp, hcreated⟩)
        · rename_i uid hcreated
          cases h
          exact Or.inr (Or.inr (Or.inr (Or.inr (Or.inl
            ⟨form, createUser, uid, rfl, hcreated, rfl, rfl⟩))))
      · cases h
  | signOut succeeds =>
      dsimp only [step] at h
      split at h
      · rename_i hscreen
        cases succeeds with
        | true =>
            cases h
            exact Or.inr (Or.inr (Or.inr (Or.inr (Or.inr (Or.inl ⟨rfl, hscreen, rfl, rfl⟩)))))
        | false =>
            cases h
            exact Or.inr (Or.inl ⟨rfl, rfl, by simp, rfl⟩)
      · cases h
  | handleWithdraw =>
      dsimp only [step] at h
      split at h
      · rename_i hscreen
        split at h
        · cases h
          exact Or.inr (Or.inl ⟨rfl, rfl, by simp, rfl⟩)
        · rename_i uid huser
          cases h
          exact Or.inr (Or.inr (Or.inr (Or.inr (Or.inr (Or.inr
            ⟨uid, rfl, hscreen, huser, rfl, rfl⟩)))))
      · cases h

/-- After an action the main tabs are shown to whom they were shown before, to the
user signed in at a launch, or to the user who signs in or up. -/
theorem Device.showsTabs_of_step {d d' : Device} {action : Action} {writes : List Write} {u : Uid}
    (hstep : d.step action = some (d', writes)) (h : d'.ShowsTabs u) :
    d.ShowsTabs u ∨ (action = .launch ∧ d.app.currentUser = some u) ∨
      action = .handleLogin (some u) ∨
      ∃ form createUser, action = .handleSignUp form createUser ∧
        (Operation.signUp form createUser).created = some u ∧
        writes = issued (handleSignUp form createUser) := by
  obtain ⟨hscreen, huser⟩ := h
  rcases Device.step_cases hstep with ⟨rfl, rfl, -⟩ | ⟨rfl, -, -⟩ | ⟨_, _, -, rfl, -⟩ |
    ⟨uid, rfl, rfl, -⟩ | ⟨form, createUser, uid, rfl, hcreated, rfl, rfl⟩ | ⟨-, -, rfl, -⟩ |
    ⟨_, -, -, -, rfl, -⟩
  · exact Or.inr (Or.inl ⟨rfl, huser⟩)
  · exact Or.inl ⟨hscreen, huser⟩
  · cases hscreen
  · cases huser
    exact Or.inr (Or.inr (Or.inl rfl))
  · cases huser
    exact Or.inr (Or.inr (Or.inr ⟨form, createUser, rfl, hcreated, rfl⟩))
  · cases hscreen
  · cases hscreen

/-- Every action is a sequence of events of the map screens. -/
theorem Device.step_app {d d' : Device} {action : Action} {writes : List Write}
    (hstep : d.step action = some (d', writes)) (versions : ℕ → Collection) :
    ∃ events, run (App.step versions) d.app events = some d'.app := by
  rcases Device.step_cases hstep with ⟨-, rfl, -⟩ | ⟨rfl, -, -⟩ | ⟨_, _, -, rfl, -⟩ |
    ⟨uid, -, rfl, -⟩ | ⟨_, _, uid, -, -, rfl, -⟩ | ⟨-, -, rfl, -⟩ | ⟨_, -, -, -, rfl, -⟩
  · exact ⟨[.launch], rfl⟩
  · exact ⟨[], rfl⟩
  · exact ⟨[], rfl⟩
  · exact ⟨[.auth (some uid), .setupViewController], rfl⟩
  · exact ⟨[.auth (some uid), .setupViewController], rfl⟩
  · exact ⟨[.auth none], rfl⟩
  · exact ⟨[], rfl⟩

/-! ## Devices and a server -/

/-- The collection on the server, the accounts of Auth, the devices, and the writes
of each device that are not yet acknowledged, the oldest first. -/
structure Fleet (δ : Type) where
  users : Collection
  accounts : List Uid
  devices : δ → Device
  outbox : δ → List Write

/-- What happens: an action on a device, an update issued by another handler, and the
server's answer to the oldest write of a device. -/
inductive FleetEvent (δ : Type)
  | act (device : δ) (action : Action)
  | update (device : δ) (ref : String) (fields : List (Field × FieldValue))
  | accept (device : δ)
  | reject (device : δ)

/-- The accounts of Auth allow its answers: `signIn` returns an account, and
`createUser` a uid that was not handed out before. -/
def Action.Answerable (accounts : List Uid) : Action → Prop
  | .handleLogin signIn => ∀ uid ∈ signIn, uid ∈ accounts
  | .handleSignUp form createUser =>
      ∀ uid ∈ (Operation.signUp form createUser).created, uid ∉ accounts
  | _ => True

instance (accounts : List Uid) (action : Action) : Decidable (action.Answerable accounts) := by
  cases action <;> unfold Action.Answerable <;> infer_instance

/-- The account an action creates. -/
def Action.created : Action → Option Uid
  | .handleSignUp form createUser => (Operation.signUp form createUser).created
  | _ => none

namespace Fleet

variable {δ : Type}

/-- Nobody has signed up, and no app is running. -/
def init : Fleet δ where
  users _ := none
  accounts := []
  devices _ := Device.init
  outbox _ := []

variable [DecidableEq δ]

/-- More writes are queued on a device. -/
def issue (f : Fleet δ) (i : δ) (writes : List Write) : Fleet δ :=
  { f with outbox := Function.update f.outbox i (f.outbox i ++ writes) }

def step (f : Fleet δ) : FleetEvent δ → Option (Fleet δ)
  | .act i action =>
      if action.Answerable f.accounts then
        ((f.devices i).step action).map fun r =>
          { f.issue i r.2 with
            accounts := action.created.toList ++ f.accounts
            devices := Function.update f.devices i r.1 }
      else none
  | .update i ref fields => some (f.issue i [.updateData ref fields])
  | .accept i =>
      match f.outbox i with
      | [] => none
      | request :: rest =>
          some { f with
            users := request.perform f.users
            outbox := Function.update f.outbox i rest }
  | .reject i =>
      match f.outbox i with
      | [] => none
      | _ :: rest => some { f with outbox := Function.update f.outbox i rest }

/-- The document exists, or its creation is queued on some device. -/
def Backed (users : Collection) (outbox : δ → List Write) (ref : String) : Prop :=
  users ref ≠ none ∨ ∃ i data, .setData ref data ∈ outbox i

/-- When no write is pending, whoever is shown the main tabs has a document. -/
def Documented (f : Fleet δ) : Prop :=
  (∀ i, f.outbox i = []) → ∀ i u, (f.devices i).ShowsTabs u → f.users u.string ≠ none

/-- Whoever is shown the main tabs has a document, or will have one. -/
def AllBacked (f : Fleet δ) : Prop :=
  ∀ i u, (f.devices i).ShowsTabs u → Backed f.users f.outbox u.string

/-- What must not happen, in the state before it: a launch or a login shows the main
tabs to a user without a document, created or queued; a document is deleted, or its
creation is rejected, while the main tabs are shown to its user, unless it exists
or is created otherwise. -/
def Aligned (f : Fleet δ) : FleetEvent δ → Prop
  | .act i .launch =>
      ∀ u, (f.devices i).app.currentUser = some u → Backed f.users f.outbox u.string
  | .act _ (.handleLogin signIn) => ∀ u ∈ signIn, Backed f.users f.outbox u.string
  | .act _ _ => True
  | .update _ _ _ => True
  | .accept i =>
      ∀ ref rest, f.outbox i = .delete ref :: rest →
        ∀ j u, (f.devices j).ShowsTabs u → u.string = ref →
          Backed (fun _ => none) (Function.update f.outbox i rest) ref
  | .reject i =>
      ∀ ref data rest, f.outbox i = .setData ref data :: rest →
        ∀ j u, (f.devices j).ShowsTabs u → u.string = ref →
          Backed f.users (Function.update f.outbox i rest) ref

/-- More writes in the queues do no harm. -/
theorem Backed.issue {f : Fleet δ} {ref : String} (h : Backed f.users f.outbox ref) (i : δ)
    (writes : List Write) : Backed (f.issue i writes).users (f.issue i writes).outbox ref := by
  rcases h with hdoc | ⟨j, data, hmem⟩
  · exact Or.inl hdoc
  · refine Or.inr ⟨j, data, ?_⟩
    rcases eq_or_ne j i with rfl | hj
    · show _ ∈ Function.update f.outbox j _ j
      rw [Function.update_self]
      exact List.mem_append_left _ hmem
    · show _ ∈ Function.update f.outbox i _ j
      rwa [Function.update_of_ne hj]

/-- A creation in the queues is the request at the head of one, or stays queued. -/
theorem mem_outbox_of_head {outbox : δ → List Write} {i j : δ} {request w : Write}
    {rest : List Write} (hhead : outbox i = request :: rest) (h : w ∈ outbox j) :
    w = request ∨ w ∈ Function.update outbox i rest j := by
  rcases eq_or_ne j i with rfl | hj
  · rw [hhead] at h
    rw [Function.update_self]
    exact List.mem_cons.mp h
  · rw [Function.update_of_ne hj]
    exact Or.inr h

/-- The document of a new account is queued at its sign-up. -/
theorem issued_signUp {form : SignUpForm} {createUser : Option Uid} {u : Uid}
    (h : (Operation.signUp form createUser).created = some u) :
    ∃ data, issued (handleSignUp form createUser) = [.setData u.string data] := by
  rcases signUp_cases form createUser with ⟨hnone, -⟩ | ⟨email, username, _, uid, -, hsome, htask⟩
  · rw [hnone] at h
    cases h
  · rw [hsome, Option.some_inj] at h
    subst h
    exact ⟨_, by rw [htask, issued, issued]⟩

section Step

variable {f f' : Fleet δ}

/-- A queue that gets no write is as before. -/
theorem issue_nil (f : Fleet δ) (i : δ) : f.issue i [] = f := by
  rw [issue, List.append_nil, Function.update_eq_self]

theorem step_act {i : δ} {action : Action} (h : f.step (.act i action) = some f') :
    ∃ d writes, (f.devices i).step action = some (d, writes) ∧
      f' = { f.issue i writes with
        accounts := action.created.toList ++ f.accounts
        devices := Function.update f.devices i d } := by
  dsimp only [step] at h
  split at h
  · obtain ⟨⟨d, writes⟩, hd, rfl⟩ := Option.map_eq_some_iff.mp h
    exact ⟨d, writes, hd, rfl⟩
  · cases h

theorem allBacked_act (hbacked : AllBacked f) {i : δ} {action : Action}
    (hstep : f.step (.act i action) = some f') (haligned : Aligned f (.act i action)) :
    AllBacked f' := by
  obtain ⟨d, writes, hd, rfl⟩ := step_act hstep
  intro j u hshows
  show Backed (f.issue i writes).users (f.issue i writes).outbox u.string
  rcases eq_or_ne j i with rfl | hj
  · have hshows' : d.ShowsTabs u := by
      simpa only [Function.update_self] using hshows
    rcases Device.showsTabs_of_step hd hshows' with
      hbefore | ⟨rfl, huser⟩ | rfl | ⟨form, createUser, rfl, hcreated, rfl⟩
    · exact (hbacked j u hbefore).issue j writes
    -- a launch and a login are what the condition is about
    · exact Backed.issue (haligned u huser) j writes
    · exact Backed.issue (haligned u rfl) j writes
    · -- the document of a new account is queued
      obtain ⟨data, hissued⟩ := issued_signUp hcreated
      refine Or.inr ⟨j, data, ?_⟩
      show _ ∈ Function.update f.outbox j _ j
      rw [Function.update_self, hissued]
      exact List.mem_append_right _ List.mem_cons_self
  · refine (hbacked j u ?_).issue i writes
    simpa only [Function.update_of_ne hj] using hshows

theorem aligned_of_allBacked_act {i : δ} {action : Action}
    (hstep : f.step (.act i action) = some f') (hbacked : AllBacked f') :
    Aligned f (.act i action) := by
  obtain ⟨d, writes, hd, rfl⟩ := step_act hstep
  have hafter : ∀ u, d.ShowsTabs u → writes = [] → Backed f.users f.outbox u.string := by
    rintro u hshows rfl
    have hb := hbacked i u (by simpa only [Function.update_self] using hshows)
    rwa [issue_nil] at hb
  cases action with
  | launch =>
      intro u huser
      cases hd
      refine hafter u ⟨?_, huser⟩ rfl
      rw [Device.launch, huser]
      rfl
  | handleLogin signIn =>
      intro u hu
      dsimp only [Device.step] at hd
      split at hd
      · rw [show signIn = some u from hu] at hd
        cases hd
        exact hafter u ⟨rfl, rfl⟩ rfl
      · cases hd
  | handleShowSignUp => trivial
  | back => trivial
  | handleSignUp form createUser => trivial
  | signOut succeeds => trivial
  | handleWithdraw => trivial

theorem step_accept {i : δ} (h : f.step (.accept i) = some f') :
    ∃ request rest, f.outbox i = request :: rest ∧
      f' = { f with
        users := request.perform f.users
        outbox := Function.update f.outbox i rest } := by
  dsimp only [step] at h
  split at h
  · cases h
  · rename_i request rest hhead
    exact ⟨request, rest, hhead, (Option.some.inj h).symm⟩

theorem step_reject {i : δ} (h : f.step (.reject i) = some f') :
    ∃ request rest, f.outbox i = request :: rest ∧
      f' = { f with outbox := Function.update f.outbox i rest } := by
  dsimp only [step] at h
  split at h
  · cases h
  · rename_i request rest hhead
    exact ⟨request, rest, hhead, (Option.some.inj h).symm⟩

theorem allBacked_accept_iff (hbacked : AllBacked f) {i : δ}
    (hstep : f.step (.accept i) = some f') : AllBacked f' ↔ Aligned f (.accept i) := by
  obtain ⟨request, rest, hhead, rfl⟩ := step_accept hstep
  constructor
  · rintro h ref rest' hdelete j u hshows rfl
    rw [hhead, List.cons.injEq] at hdelete
    obtain ⟨rfl, rfl⟩ := hdelete
    rcases h j u hshows with hdoc | hqueued
    · exact absurd (by simp [Write.perform_eq]) hdoc
    · exact Or.inr hqueued
  · intro haligned j u hshows
    rcases hbacked j u hshows with hdoc | ⟨k, data, hmem⟩
    · -- only a delete takes an existing document away
      by_cases hdelete : request = .delete u.string
      · subst hdelete
        rcases haligned u.string rest hhead j u hshows rfl with hnone | hqueued
        · exact absurd rfl hnone
        · exact Or.inr hqueued
      · exact Or.inl (Write.perform_ne_none hdoc hdelete)
    · rcases mem_outbox_of_head hhead hmem with rfl | hrest
      · exact Or.inl (by simp [Write.perform_eq])
      · exact Or.inr ⟨k, data, hrest⟩

theorem allBacked_reject_iff (hbacked : AllBacked f) {i : δ}
    (hstep : f.step (.reject i) = some f') : AllBacked f' ↔ Aligned f (.reject i) := by
  obtain ⟨request, rest, hhead, rfl⟩ := step_reject hstep
  constructor
  · rintro h ref data rest' hcreate j u hshows rfl
    rw [hhead, List.cons.injEq] at hcreate
    obtain ⟨rfl, rfl⟩ := hcreate
    exact h j u hshows
  · intro haligned j u hshows
    rcases hbacked j u hshows with hdoc | ⟨k, data, hmem⟩
    · exact Or.inl hdoc
    · rcases mem_outbox_of_head hhead hmem with rfl | hrest
      · exact haligned u.string data rest hhead j u hshows rfl
      · exact Or.inr ⟨k, data, hrest⟩

/-- **The step lemma of the fleet.**  A step keeps everybody backed exactly when it is
aligned. -/
theorem allBacked_step_iff (hbacked : AllBacked f) {e : FleetEvent δ}
    (hstep : f.step e = some f') : AllBacked f' ↔ Aligned f e := by
  cases e with
  | act i action =>
      exact ⟨aligned_of_allBacked_act hstep, allBacked_act hbacked hstep⟩
  | update i ref fields =>
      cases hstep
      exact ⟨fun _ => trivial, fun _ j u hshows => (hbacked j u hshows).issue i _⟩
  | accept i => exact allBacked_accept_iff hbacked hstep
  | reject i => exact allBacked_reject_iff hbacked hstep

end Step

/-! ## Runs -/

omit [DecidableEq δ] in
theorem allBacked_init : AllBacked (init : Fleet δ) := by
  rintro i u ⟨hscreen, -⟩
  cases hscreen

omit [DecidableEq δ] in
theorem AllBacked.documented {f : Fleet δ} (h : AllBacked f) : Documented f := by
  intro hempty i u hshows
  rcases h i u hshows with hdoc | ⟨j, data, hmem⟩
  · exact hdoc
  · rw [hempty j] at hmem
    exact absurd hmem List.not_mem_nil

/-- Everybody is backed along exactly the runs whose steps are all aligned. -/
theorem everywhere_allBacked_iff (events : List (FleetEvent δ)) :
    Everywhere step AllBacked init events ↔ EachStep step Aligned init events :=
  everywhere_iff_eachStep (fun _ _ _ hbacked hstep => allBacked_step_iff hbacked hstep)
    allBacked_init

/-- **Nobody uses the app without a document in a run whose steps are all aligned.** -/
theorem documented_of_aligned {events : List (FleetEvent δ)}
    (haligned : EachStep step Aligned init events) : Everywhere step Documented init events :=
  ((everywhere_allBacked_iff events).mpr haligned).mono fun _ => AllBacked.documented

/-- Alice signs up on a new device, and her document is stored. -/
def signUpRun : List (FleetEvent Unit) :=
  [.act () .launch, .act () .handleShowSignUp,
    .act () (.handleSignUp (testForm "a@x" "Alice") (some alice)), .accept ()]

theorem documented_of_aligned_signUpRun : Everywhere step Documented init signUpRun := by
  refine documented_of_aligned (eachStep_cons.mpr fun f₁ h₁ => ⟨fun u hu => ?_, ?_⟩)
  · cases hu
  · refine eachStep_cons.mpr fun f₂ h₂ => ⟨trivial, eachStep_cons.mpr fun f₃ h₃ =>
      ⟨trivial, eachStep_cons.mpr fun f₄ _ => ⟨fun ref rest hdelete => ?_, eachStep_nil⟩⟩⟩
    cases h₁
    cases h₂
    cases h₃
    cases hdelete

/-- Then she withdraws, the document is deleted, and she starts the app again. -/
def withdrawnRun : List (FleetEvent Unit) :=
  signUpRun ++ [.act () .handleWithdraw, .accept (), .act () .launch]

/-- Alice, who has withdrawn, is back on the main tabs, without a document. -/
theorem not_everywhere_documented : ¬ Everywhere step Documented init withdrawnRun := by
  intro h
  obtain ⟨f, hrun, hempty, hshows, hdoc⟩ : ∃ f : Fleet Unit,
      run step init withdrawnRun = some f ∧ (∀ i, f.outbox i = []) ∧
        (f.devices ()).ShowsTabs alice ∧ f.users "alice-7" = none :=
    ⟨_, rfl, fun _ => rfl, ⟨rfl, rfl⟩, rfl⟩
  exact h.last hrun hempty () alice hshows hdoc

end Fleet

end CocoMap
