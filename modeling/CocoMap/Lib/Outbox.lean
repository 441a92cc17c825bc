import Mathlib.Data.List.Forall2
import CocoMap.Lib.Transition

/-!
# Outboxes

Users issue requests, each with a handler that waits for the answer.  The requests of a
user are answered one after another, the oldest first, but only while it is his turn.  A
restart loses the handlers, and no request.

Along every run the requests of a user are answered in the order in which he issued them,
each once, and a handler is called at most once, with the answer to its own request
(`Accounted`).  As long as nothing is restarted no handler is forgotten (`Complete`).
-/

/-- The requests of each user that are not answered, with their handlers, and the logs of what
was issued, answered and called. -/
structure Outbox (υ ρ γ ε : Type*) where
  user : υ
  unanswered : υ → List (ρ × Option γ)
  issued : List (υ × ρ × γ)
  answered : List (υ × ρ × Option ε)
  called : List (υ × γ × Option ε)

namespace Outbox

variable {υ ρ γ ε : Type*}

/-- What happens to an outbox; an answer has an error, if any, and is always to the oldest
request of the user whose turn it is. -/
inductive Event (υ ρ γ ε : Type*)
  | issue (request : ρ) (handler : γ)
  | answer (error : Option ε)
  | change (user : υ)
  | restart (user : υ)
  | skip

def init (user : υ) : Outbox υ ρ γ ε where
  user := user
  unanswered _ := []
  issued := []
  answered := []
  called := []

variable [DecidableEq υ]

def step (o : Outbox υ ρ γ ε) : Event υ ρ γ ε → Option (Outbox υ ρ γ ε)
  | .issue request handler => some { o with
      unanswered := Function.update o.unanswered o.user
        (o.unanswered o.user ++ [(request, some handler)])
      issued := o.issued ++ [(o.user, request, handler)] }
  | .answer error =>
      match o.unanswered o.user with
      | [] => none
      | (request, handler) :: rest => some { o with
          unanswered := Function.update o.unanswered o.user rest
          answered := o.answered ++ [(o.user, request, error)]
          called := o.called ++ handler.toList.map fun handler => (o.user, handler, error) }
  | .change user => some { o with user }
  | .restart user => some { o with
      user
      unanswered := fun v => (o.unanswered v).map fun entry => (entry.1, none) }
  | .skip => some o

theorem step_answer {o : Outbox υ ρ γ ε} {request : ρ} {handler : Option γ}
    {rest : List (ρ × Option γ)} (h : o.unanswered o.user = (request, handler) :: rest)
    (error : Option ε) :
    o.step (.answer error) = some { o with
      unanswered := Function.update o.unanswered o.user rest
      answered := o.answered ++ [(o.user, request, error)]
      called := o.called ++ handler.toList.map fun handler => (o.user, handler, error) } := by
  rw [step, h]

/-- An answer is one request less. -/
theorem length_of_step_answer {o o' : Outbox υ ρ γ ε} {error : Option ε}
    (h : o.step (.answer error) = some o') :
    o'.user = o.user ∧ (o'.unanswered o.user).length + 1 = (o.unanswered o.user).length := by
  cases hunanswered : o.unanswered o.user with
  | nil =>
      rw [step, hunanswered] at h
      cases h
  | cons entry rest =>
      rw [step_answer hunanswered] at h
      cases h
      refine ⟨rfl, ?_⟩
      dsimp only
      rw [Function.update_self, List.length_cons]

/-- The entries of a log that are a user's. -/
def of {α : Type*} (v : υ) (log : List (υ × α)) : List α :=
  (log.filter fun entry => entry.1 = v).map Prod.snd

@[simp] theorem of_nil {α : Type*} (v : υ) : of v ([] : List (υ × α)) = [] := rfl

theorem of_concat {α : Type*} (v u : υ) (log : List (υ × α)) (a : α) :
    of v (log ++ [(u, a)]) = if u = v then of v log ++ [a] else of v log := by
  by_cases h : u = v <;> simp [of, h]

/-- The user after an event. -/
def Event.userAfter (user : υ) : Event υ ρ γ ε → υ
  | .change user => user
  | .restart user => user
  | _ => user

/-- The requests of a list of events, each with its user and its handler. -/
def issues : υ → List (Event υ ρ γ ε) → List (υ × ρ × γ)
  | _, [] => []
  | user, .issue request handler :: es => (user, request, handler) :: issues user es
  | user, e :: es => issues (e.userAfter user) es

theorem issued_run {o o' : Outbox υ ρ γ ε} {es : List (Event υ ρ γ ε)}
    (h : Transition.run step o es = some o') : o'.issued = o.issued ++ issues o.user es := by
  induction es generalizing o with
  | nil =>
      cases h
      exact (List.append_nil _).symm
  | cons e es ih =>
      obtain ⟨o₁, hstep, hrest⟩ := Transition.run_cons_eq_some.mp h
      have hissued := ih hrest
      cases e with
      | issue request handler =>
          cases hstep
          rw [hissued, issues, List.append_assoc]
          rfl
      | answer error =>
          cases hunanswered : o.unanswered o.user with
          | nil =>
              rw [step, hunanswered] at hstep
              cases hstep
          | cons entry rest =>
              rw [step_answer hunanswered] at hstep
              cases hstep
              exact hissued
      | _ =>
          cases hstep
          exact hissued

/-- The handlers of a list of requests, with the answers to them. -/
def replies (issued : List (ρ × γ)) (answered : List (ρ × Option ε)) : List (γ × Option ε) :=
  List.zipWith (fun entry answer => (entry.2, answer.2)) issued answered

/-! ## The requests of one user -/

/-- **What was issued is what was answered, in its order, and then what is not.**  The handlers
called are those of the requests answered, but for some that were lost. -/
def Accounted (issued : List (ρ × γ)) (answered : List (ρ × Option ε))
    (unanswered : List (ρ × Option γ)) (called : List (γ × Option ε)) : Prop :=
  ∃ done waiting, issued = done ++ waiting ∧ done.map Prod.fst = answered.map Prod.fst ∧
    List.Forall₂ (fun entry issue => entry.1 = issue.1 ∧ ∀ handler ∈ entry.2, handler = issue.2)
      unanswered waiting ∧
    called.Sublist (replies done answered)

variable {issued : List (ρ × γ)} {answered : List (ρ × Option ε)}
  {unanswered : List (ρ × Option γ)} {called : List (γ × Option ε)}

theorem accounted_nil : Accounted ([] : List (ρ × γ)) ([] : List (ρ × Option ε)) [] [] :=
  ⟨[], [], rfl, rfl, .nil, .slnil⟩

theorem Accounted.issue (h : Accounted issued answered unanswered called) (request : ρ)
    (handler : γ) :
    Accounted (issued ++ [(request, handler)]) answered (unanswered ++ [(request, some handler)])
      called := by
  obtain ⟨done, waiting, rfl, hdone, hwaiting, hcalled⟩ := h
  refine ⟨done, waiting ++ [(request, handler)], List.append_assoc .., hdone, ?_, hcalled⟩
  refine List.rel_append hwaiting (.cons ⟨rfl, fun handler' hmem => ?_⟩ .nil)
  exact (Option.mem_some_iff.mp hmem).symm

/-- The oldest request is answered; its handler is called, if it was not lost. -/
theorem Accounted.answer {request : ρ} {handler : Option γ}
    (h : Accounted issued answered ((request, handler) :: unanswered) called) (error : Option ε) :
    Accounted issued (answered ++ [(request, error)]) unanswered
      (called ++ handler.toList.map fun handler => (handler, error)) := by
  obtain ⟨done, waiting, rfl, hdone, hwaiting, hcalled⟩ := h
  obtain ⟨issue, rest, ⟨hrequest, hhandler⟩, hrest, rfl⟩ := List.forall₂_cons_left_iff.mp hwaiting
  have hlength : done.length = answered.length := by
    simpa only [List.length_map] using congrArg List.length hdone
  refine ⟨done ++ [issue], rest, by simp, ?_, hrest, ?_⟩
  · rw [List.map_append, hdone, List.map_append, List.map_singleton, List.map_singleton]
    rw [← show request = issue.1 from hrequest]
  · rw [replies, List.zipWith_append hlength]
    refine hcalled.append ?_
    cases handler with
    | none => exact List.nil_sublist _
    | some handler =>
        rw [hhandler handler rfl]
        exact List.Sublist.refl _

theorem Accounted.restart (h : Accounted issued answered unanswered called) :
    Accounted issued answered (unanswered.map fun entry => (entry.1, none)) called := by
  obtain ⟨done, waiting, rfl, hdone, hwaiting, hcalled⟩ := h
  refine ⟨done, waiting, rfl, hdone, ?_, hcalled⟩
  rw [List.forall₂_map_left_iff]
  exact hwaiting.imp fun entry issue hentry => ⟨hentry.1, fun _ hmem => absurd hmem (Option.not_mem_none _)⟩

/-- No request is lost, none is answered twice, and none overtakes another. -/
theorem Accounted.requests (h : Accounted issued answered unanswered called) :
    answered.map Prod.fst ++ unanswered.map Prod.fst = issued.map Prod.fst := by
  obtain ⟨done, waiting, rfl, hdone, hwaiting, -⟩ := h
  have hfst : unanswered.map Prod.fst = waiting.map Prod.fst := by
    rw [← List.forall₂_eq_eq_eq, List.forall₂_map_left_iff, List.forall₂_map_right_iff]
    exact hwaiting.imp fun _ _ hentry => hentry.1
  rw [List.map_append, hdone, hfst]

/-- A handler is called at most once, and with the answer to its own request. -/
theorem Accounted.called_sublist (h : Accounted issued answered unanswered called) :
    called.Sublist (replies issued answered) := by
  obtain ⟨done, waiting, rfl, hdone, -, hcalled⟩ := h
  have hlength : done.length = answered.length := by
    simpa only [List.length_map] using congrArg List.length hdone
  have hreplies : replies (done ++ waiting) answered = replies done answered := by
    conv_lhs => rw [← List.append_nil answered, replies, List.zipWith_append hlength]
    rw [List.zipWith_nil_right, List.append_nil, replies]
  rw [hreplies]
  exact hcalled

/-! ## Outboxes -/

/-- The requests of every user are accounted for. -/
def Accounts (o : Outbox υ ρ γ ε) : Prop :=
  ∀ v, Accounted (of v o.issued) (of v o.answered) (o.unanswered v) (of v o.called)

theorem accounts_init (user : υ) : (init user : Outbox υ ρ γ ε).Accounts := fun _ => accounted_nil

/-- **The step lemma.** -/
theorem Accounts.step {o o' : Outbox υ ρ γ ε} {e : Event υ ρ γ ε} (h : o.Accounts)
    (hstep : o.step e = some o') : o'.Accounts := by
  cases e with
  | issue request handler =>
      cases hstep
      intro v
      by_cases hv : v = o.user
      · subst hv
        simpa [of_concat] using (h o.user).issue request handler
      · simpa [of_concat, Ne.symm hv, hv] using h v
  | answer error =>
      rw [Outbox.step] at hstep
      cases hunanswered : o.unanswered o.user with
      | nil =>
          rw [hunanswered] at hstep
          cases hstep
      | cons entry rest =>
          obtain ⟨request, handler⟩ := entry
          rw [hunanswered] at hstep
          cases hstep
          intro v
          by_cases hv : v = o.user
          · subst hv
            have hanswer := (hunanswered ▸ h o.user).answer error
            cases handler with
            | none => simpa [of_concat] using hanswer
            | some handler => simpa [of_concat] using hanswer
          · have hother := h v
            cases handler with
            | none => simpa [of_concat, Ne.symm hv, hv] using hother
            | some handler => simpa [of_concat, Ne.symm hv, hv] using hother
  | change user =>
      cases hstep
      exact h
  | restart user =>
      cases hstep
      exact fun v => (h v).restart
  | skip =>
      cases hstep
      exact h

/-- **The run lemma.** -/
theorem accounts_run {user : υ} {es : List (Event υ ρ γ ε)} {o : Outbox υ ρ γ ε}
    (h : Transition.run step (init user) es = some o) : o.Accounts :=
  Transition.run_invariant (fun _ _ _ _ ho hstep => Accounts.step ho hstep) (accounts_init user) h

/-! ## Between restarts -/

/-- Every answer has been told to a handler, and every request has one. -/
def Complete (o : Outbox υ ρ γ ε) : Prop :=
  ∀ v, (of v o.called).length = (of v o.answered).length ∧ ∀ entry ∈ o.unanswered v, entry.2 ≠ none

theorem complete_init (user : υ) : (init user : Outbox υ ρ γ ε).Complete :=
  fun _ => ⟨rfl, fun _ hentry => absurd hentry List.not_mem_nil⟩

/-- A restart loses the handlers of the requests that are not answered. -/
theorem Complete.step {o o' : Outbox υ ρ γ ε} {e : Event υ ρ γ ε} (h : o.Complete)
    (hrestart : ∀ user, e = .restart user → ∀ v, o.unanswered v = [])
    (hstep : o.step e = some o') : o'.Complete := by
  cases e with
  | issue request handler =>
      cases hstep
      refine fun v => ⟨(h v).1, fun entry hentry => ?_⟩
      by_cases hv : v = o.user
      · subst hv
        dsimp only at hentry
        rw [Function.update_self, List.mem_append, List.mem_singleton] at hentry
        rcases hentry with hentry | rfl
        · exact (h o.user).2 entry hentry
        · exact Option.some_ne_none handler
      · dsimp only at hentry
        rw [Function.update_of_ne hv] at hentry
        exact (h v).2 entry hentry
  | answer error =>
      rw [Outbox.step] at hstep
      cases hunanswered : o.unanswered o.user with
      | nil =>
          rw [hunanswered] at hstep
          cases hstep
      | cons entry rest =>
          obtain ⟨request, handler⟩ := entry
          have huser := h o.user
          rw [hunanswered] at hstep huser
          cases hstep
          obtain ⟨handler, rfl⟩ :=
            Option.ne_none_iff_exists'.mp (huser.2 (request, handler) List.mem_cons_self)
          intro v
          by_cases hv : v = o.user
          · subst hv
            refine ⟨by simp [of_concat, huser.1], fun entry hentry => ?_⟩
            dsimp only at hentry
            rw [Function.update_self] at hentry
            exact huser.2 entry (List.mem_cons_of_mem _ hentry)
          · refine ⟨by simpa [of_concat, Ne.symm hv] using (h v).1, fun entry hentry => ?_⟩
            dsimp only at hentry
            rw [Function.update_of_ne hv] at hentry
            exact (h v).2 entry hentry
  | change user =>
      cases hstep
      exact h
  | restart user =>
      cases hstep
      refine fun v => ⟨(h v).1, fun entry hentry => ?_⟩
      dsimp only at hentry
      rw [hrestart user rfl v] at hentry
      cases hentry
  | skip =>
      cases hstep
      exact h

/-- The first event may be a restart: there is nothing to lose. -/
theorem complete_run {user : υ} {es : List (Event υ ρ γ ε)} {o : Outbox υ ρ γ ε}
    (hrestart : ∀ user, .restart user ∉ es.tail)
    (h : Transition.run Outbox.step (init user) es = some o) : o.Complete := by
  cases es with
  | nil =>
      cases h
      exact complete_init user
  | cons e es =>
      obtain ⟨o₁, hstep, hrest⟩ := Transition.run_cons_eq_some.mp h
      have hfirst : o₁.Complete := (complete_init user).step (fun _ _ _ => rfl) hstep
      refine Transition.run_invariant (fun o e he o' ho hstep' => ?_) hfirst hrest
      exact Complete.step ho (fun user heq => absurd (heq ▸ he) (hrestart user)) hstep'

/-- **The handlers called are those of the requests answered**, in their order. -/
theorem Accounts.called_eq {o : Outbox υ ρ γ ε} (h : o.Accounts) (hcomplete : o.Complete) (v : υ) :
    of v o.called = replies (of v o.issued) (of v o.answered) := by
  refine (h v).called_sublist.eq_of_length_le ?_
  rw [(hcomplete v).1, replies, List.length_zipWith]
  exact min_le_right _ _

end Outbox
