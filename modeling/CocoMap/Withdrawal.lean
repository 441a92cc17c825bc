import CocoMap.Session

/-!
# Whether a withdrawal is final

The withdraw dialog promises that all data of the user is deleted.  `handleWithdraw`
deletes the document, and every later update of it fails; but a sign-up creates it,
whenever the server comes to that write.  The device that signed up may still have
the creation in its queue when the delete, issued on another device, is accepted.

`Final` is the promise from one state on.  Uids are fresh, so no further creation of
the document of an account is ever issued, and `withdrawal_final_iff` says that the
promise is kept exactly if none is queued when the delete is accepted.
-/

namespace CocoMap

open Transition

/-! ## What an action writes -/

/-- The user signed in after an action was signed in before, or enters by it. -/
theorem Device.currentUser_of_step {d d' : Device} {action : Action} {writes : List Write} {u : Uid}
    (h : d.step action = some (d', writes)) (hu : d'.app.currentUser = some u) :
    d.app.currentUser = some u ∨ action.entered = some u := by
  rcases Device.step_cases h with ⟨-, rfl, -⟩ | ⟨rfl, -⟩ | ⟨_, _, -, rfl, -⟩ |
    ⟨uid, rfl, rfl, -⟩ | ⟨form, createUser, uid, rfl, hcreated, rfl, -⟩ | ⟨-, -, rfl, -⟩ |
    ⟨_, -, -, -, rfl, -⟩
  · exact Or.inl hu
  · exact Or.inl hu
  · exact Or.inl hu
  · exact Or.inr hu
  · exact Or.inr (hcreated.trans hu)
  · cases hu
  · exact Or.inl hu

/-- An action writes nothing, creates the document of the account it creates, or
deletes the one of the user signed in. -/
theorem Device.writes_of_step {d d' : Device} {action : Action} {writes : List Write}
    (h : d.step action = some (d', writes)) :
    writes = [] ∨
      (∃ uid data, action.created = some uid ∧ writes = [.setData uid.string data]) ∨
      ∃ uid, d.app.currentUser = some uid ∧ writes = [.delete uid.string] := by
  rcases Device.step_cases h with ⟨-, -, rfl⟩ | ⟨-, rfl, -⟩ | ⟨_, _, -, -, rfl⟩ |
    ⟨_, -, -, rfl⟩ | ⟨form, createUser, uid, rfl, hcreated, -, rfl⟩ | ⟨-, -, -, rfl⟩ |
    ⟨uid, -, -, huser, -, rfl⟩
  · exact Or.inl rfl
  · exact Or.inl rfl
  · exact Or.inl rfl
  · exact Or.inl rfl
  · obtain ⟨data, hissued⟩ := Fleet.issued_signUp hcreated
    exact Or.inr (Or.inl ⟨uid, data, hcreated, hissued⟩)
  · exact Or.inl rfl
  · refine Or.inr (Or.inr ⟨uid, huser, ?_⟩)
    rw [handleWithdraw_some, issued, issued]

namespace Fleet

variable {δ : Type} [DecidableEq δ] {f f' : Fleet δ} {e : FleetEvent δ}

theorem answerable_of_step {i : δ} {action : Action} (h : f.step (.act i action) = some f') :
    action.Answerable f.accounts := by
  dsimp only [step] at h
  split at h
  · assumption
  · cases h

/-- Accounts are never taken back. -/
theorem mem_accounts_of_step (h : f.step e = some f') {u : Uid} (hu : u ∈ f.accounts) :
    u ∈ f'.accounts := by
  cases e with
  | act i action =>
      obtain ⟨_, _, -, rfl⟩ := step_act h
      exact List.mem_append_right _ hu
  | update i ref fields =>
      cases h
      exact hu
  | accept i =>
      obtain ⟨_, _, -, rfl⟩ := step_accept h
      exact hu
  | reject i =>
      obtain ⟨_, _, -, rfl⟩ := step_reject h
      exact hu

/-- What is queued behind the head of a queue is queued. -/
theorem mem_outbox_of_rest {outbox : δ → List Write} {i j : δ} {request w : Write}
    {rest : List Write} (hhead : outbox i = request :: rest)
    (h : w ∈ Function.update outbox i rest j) : w ∈ outbox j := by
  rcases eq_or_ne j i with rfl | hj
  · rw [Function.update_self] at h
    rw [hhead]
    exact List.mem_cons_of_mem _ h
  · rwa [Function.update_of_ne hj] at h

/-- What is queued after an event was queued before, or is what the event issues. -/
theorem mem_outbox_of_step (h : f.step e = some f') {j : δ} {w : Write} (hw : w ∈ f'.outbox j) :
    w ∈ f.outbox j ∨
      (∃ i action d writes, e = .act i action ∧ (f.devices i).step action = some (d, writes) ∧
        w ∈ writes) ∨
      ∃ ref fields, w = .updateData ref fields := by
  have hissue : ∀ i writes, w ∈ (f.issue i writes).outbox j → w ∈ f.outbox j ∨ w ∈ writes := by
    intro i writes hmem
    rcases eq_or_ne j i with rfl | hj
    · exact List.mem_append.mp (by simpa only [issue, Function.update_self] using hmem)
    · exact Or.inl (by simpa only [issue, Function.update_of_ne hj] using hmem)
  cases e with
  | act i action =>
      obtain ⟨d, writes, hd, rfl⟩ := step_act h
      rcases hissue i writes hw with hold | hnew
      · exact Or.inl hold
      · exact Or.inr (Or.inl ⟨i, action, d, writes, rfl, hd, hnew⟩)
  | update i ref fields =>
      cases h
      rcases hissue i _ hw with hold | hnew
      · exact Or.inl hold
      · exact Or.inr (Or.inr ⟨ref, fields, List.mem_singleton.mp hnew⟩)
  | accept i =>
      obtain ⟨request, rest, hhead, rfl⟩ := step_accept h
      exact Or.inl (mem_outbox_of_rest hhead hw)
  | reject i =>
      obtain ⟨request, rest, hhead, rfl⟩ := step_reject h
      exact Or.inl (mem_outbox_of_rest hhead hw)

/-! ## Deleted documents belong to accounts -/

/-- Whoever is signed in has an account, and so has everybody whose document is about
to be deleted. -/
structure Registered (f : Fleet δ) : Prop where
  currentUser : ∀ i u, (f.devices i).app.currentUser = some u → u ∈ f.accounts
  deleted : ∀ i ref, .delete ref ∈ f.outbox i → ∃ u ∈ f.accounts, u.string = ref

omit [DecidableEq δ] in
theorem registered_init : Registered (init : Fleet δ) where
  currentUser i u hu := by cases hu
  deleted i ref h := absurd h List.not_mem_nil

/-- Auth lets nobody in without an account. -/
theorem mem_accounts_of_entered {i : δ} {action : Action} (h : f.step (.act i action) = some f')
    {u : Uid} (hu : action.entered = some u) : u ∈ f'.accounts := by
  have hanswer := answerable_of_step h
  obtain ⟨_, _, -, rfl⟩ := step_act h
  cases action with
  | handleLogin signIn => exact List.mem_append_right _ (hanswer u hu)
  | handleSignUp form createUser =>
      refine List.mem_append_left _ ?_
      rw [Action.created, show (Operation.signUp form createUser).created = some u from hu]
      exact List.mem_singleton_self u
  | _ => cases hu

theorem Registered.step (h : Registered f) (hstep : f.step e = some f') : Registered f' where
  currentUser j u hu := by
    cases e with
    | act i action =>
        have hentered := fun v => mem_accounts_of_entered (u := v) hstep
        have hmono := fun v => mem_accounts_of_step (u := v) hstep
        obtain ⟨d, writes, hd, rfl⟩ := step_act hstep
        rcases eq_or_ne j i with rfl | hj
        · rcases Device.currentUser_of_step hd (by simpa only [Function.update_self] using hu) with
            hbefore | hnew
          · exact hmono u (h.currentUser j u hbefore)
          · exact hentered u hnew
        · exact hmono u (h.currentUser j u (by simpa only [Function.update_of_ne hj] using hu))
    | update i ref fields =>
        cases hstep
        exact h.currentUser j u hu
    | accept i =>
        obtain ⟨_, _, -, rfl⟩ := step_accept hstep
        exact h.currentUser j u hu
    | reject i =>
        obtain ⟨_, _, -, rfl⟩ := step_reject hstep
        exact h.currentUser j u hu
  deleted j ref hmem := by
    rcases mem_outbox_of_step hstep hmem with hold | ⟨i, action, d, writes, rfl, hd, hnew⟩ |
      ⟨_, _, hupdate⟩
    · obtain ⟨u, hu, rfl⟩ := h.deleted j ref hold
      exact ⟨u, mem_accounts_of_step hstep hu, rfl⟩
    · rcases Device.writes_of_step hd with rfl | ⟨_, _, -, rfl⟩ | ⟨u, huser, rfl⟩
      · exact absurd hnew List.not_mem_nil
      · cases List.mem_singleton.mp hnew
      · cases List.mem_singleton.mp hnew
        exact ⟨u, mem_accounts_of_step hstep (h.currentUser i u huser), rfl⟩
    · cases hupdate

/-! ## Finality -/

/-- The document `ref` will never exist again. -/
def Final (f : Fleet δ) (ref : String) : Prop :=
  ∀ later g, run step f later = some g → g.users ref = none

/-- The document of an account does not exist, and no queued write creates it. -/
structure Gone (f : Fleet δ) (ref : String) : Prop where
  missing : f.users ref = none
  account : ∃ u ∈ f.accounts, u.string = ref
  unqueued : ∀ j data, .setData ref data ∉ f.outbox j

/-- **The step lemma.** -/
theorem Gone.step {ref : String} (h : Gone f ref) (hstep : f.step e = some f') : Gone f' ref where
  missing := by
    cases e with
    | act i action =>
        obtain ⟨_, _, -, rfl⟩ := step_act hstep
        exact h.missing
    | update i r fields =>
        cases hstep
        exact h.missing
    | accept i =>
        obtain ⟨request, rest, hhead, rfl⟩ := step_accept hstep
        refine Write.perform_eq_none h.missing fun data hcreate => h.unqueued i data ?_
        rw [hhead, hcreate]
        exact List.mem_cons_self
    | reject i =>
        obtain ⟨_, _, -, rfl⟩ := step_reject hstep
        exact h.missing
  account := by
    obtain ⟨u, hu, rfl⟩ := h.account
    exact ⟨u, mem_accounts_of_step hstep hu, rfl⟩
  unqueued := by
    intro j data hmem
    rcases mem_outbox_of_step hstep hmem with hold | ⟨i, action, d, writes, rfl, hd, hnew⟩ |
      ⟨_, _, hupdate⟩
    · exact h.unqueued j data hold
    · rcases Device.writes_of_step hd with rfl | ⟨uid, _, hcreated, rfl⟩ | ⟨_, -, rfl⟩
      · exact absurd hnew List.not_mem_nil
      · -- the uid of a new account is not that of an old one
        cases List.mem_singleton.mp hnew
        obtain ⟨u, hu, hstring⟩ := h.account
        have hfresh := answerable_of_step hstep
        cases action with
        | handleSignUp form createUser => exact hfresh uid hcreated (Uid.string_inj.mp hstring ▸ hu)
        | _ => cases hcreated
      · cases List.mem_singleton.mp hnew
    · cases hupdate

theorem Gone.final {ref : String} (h : Gone f ref) : Final f ref := fun _ _ hrun =>
  (run_invariant (I := fun g => Gone g ref) (fun _ _ _ _ h hstep => h.step hstep) h hrun).missing

/-- The oldest write of a device can be accepted. -/
theorem exists_step_accept {i : δ} {request : Write} {rest : List Write}
    (hhead : f.outbox i = request :: rest) :
    ∃ f', f.step (.accept i) = some f' ∧ f'.users = request.perform f.users ∧
      f'.outbox i = rest := by
  rw [step, hhead]
  exact ⟨_, rfl, rfl, Function.update_self ..⟩

/-- And so can whatever else is queued on it. -/
theorem exists_run_accepting {i : δ} {request : Write} {queue : List Write}
    (hmem : request ∈ queue) (hqueue : f.outbox i = queue) :
    ∃ later g users, run step f later = some g ∧ g.users = request.perform users := by
  induction queue generalizing f with
  | nil => exact absurd hmem List.not_mem_nil
  | cons head rest ih =>
      obtain ⟨f₁, hstep, husers₁, hrest₁⟩ := exists_step_accept hqueue
      rcases List.mem_cons.mp hmem with rfl | hrest
      · exact ⟨[.accept i], f₁, f.users, run_cons_eq_some.mpr ⟨f₁, hstep, rfl⟩, husers₁⟩
      · obtain ⟨later, g, users, hrun, husers⟩ := ih hrest hrest₁
        exact ⟨.accept i :: later, g, users, run_cons_eq_some.mpr ⟨f₁, hstep, hrun⟩, husers⟩

/-- **A withdrawal is final exactly if no creation of the document is queued when its
delete is accepted.** -/
theorem withdrawal_final_iff {events : List (FleetEvent δ)}
    (hrun : run step init events = some f) {i : δ} {ref : String} {rest : List Write}
    (hhead : f.outbox i = .delete ref :: rest) (haccept : f.step (.accept i) = some f') :
    Final f' ref ↔ ∀ j data, .setData ref data ∉ f.outbox j := by
  have hregistered : Registered f :=
    run_invariant (fun _ _ _ _ h hstep => h.step hstep) registered_init hrun
  have hqueued : ∀ j data, .setData ref data ∈ f.outbox j → .setData ref data ∈ f'.outbox j := by
    obtain ⟨request, rest', hhead', rfl⟩ := step_accept haccept
    intro j data hmem
    rcases mem_outbox_of_head hhead' hmem with rfl | hlater
    · rw [hhead] at hhead'
      cases hhead'
    · exact hlater
  constructor
  · intro hfinal j data hmem
    obtain ⟨later, g, users, hlater, husers⟩ := exists_run_accepting (hqueued j data hmem) rfl
    have hnone : g.users ref = none := hfinal later g hlater
    rw [husers, Write.perform_eq] at hnone
    simp at hnone
  · intro hno
    have hgone : Gone f' ref := by
      have haccount := hregistered.deleted i ref (by rw [hhead]; exact List.mem_cons_self)
      obtain ⟨request, rest', hhead', rfl⟩ := step_accept haccept
      rw [hhead, List.cons.injEq] at hhead'
      obtain ⟨rfl, rfl⟩ := hhead'
      exact ⟨by simp [Write.perform_eq], haccount,
        fun j data hmem => hno j data (mem_outbox_of_rest hhead hmem)⟩
    exact hgone.final

/-- Alice, whose document has been stored, withdraws. -/
theorem withdrawal_final_iff_signUpRun :
    ∃ f f' : Fleet Unit, run step init (signUpRun ++ [.act () .handleWithdraw]) = some f ∧
      f.step (.accept ()) = some f' ∧
      (Final f' "alice-7" ↔ ∀ j data, .setData "alice-7" data ∉ f.outbox j) := by
  obtain ⟨f, hrun, hhead, f', haccept⟩ : ∃ f : Fleet Unit,
      run step init (signUpRun ++ [.act () .handleWithdraw]) = some f ∧
        f.outbox () = [.delete "alice-7"] ∧ ∃ f', f.step (.accept ()) = some f' :=
    ⟨_, rfl, rfl, _, rfl⟩
  exact ⟨f, f', hrun, haccept, withdrawal_final_iff hrun hhead haccept⟩

/-- Alice signs up on one device, which then goes offline, and withdraws on another one. -/
def withdrawnElsewhere : List (FleetEvent (Fin 2)) :=
  [.act 0 .launch, .act 0 .handleShowSignUp,
    .act 0 (.handleSignUp (testForm "a@x" "Alice") (some alice)),
    .act 1 .launch, .act 1 (.handleLogin (some alice)), .act 1 .handleWithdraw]

/-- Her document is stored after it has been deleted. -/
theorem not_final_withdrawnElsewhere :
    ∃ f f' : Fleet (Fin 2), run step init withdrawnElsewhere = some f ∧
      f.outbox 1 = [.delete "alice-7"] ∧ f.step (.accept 1) = some f' ∧ ¬ Final f' "alice-7" := by
  refine ⟨_, _, rfl, rfl, rfl, fun hfinal => ?_⟩
  exact absurd (hfinal [.accept 0] _ rfl) (by decide)

end Fleet

end CocoMap
