import CocoMap.ConnectedReads

/-!
# A connected client reads

The connection does no more to the client that reads than to tell it of the online state.  So the
client behind the connection runs as `ReadHistory` and `BehindReads` have it: its answers are what it
saw, and the client behind it delivers its requests.
-/

namespace CocoMap

open Transition

/-- What an event asks of the client that reads. -/
def ConnectedEvent.own {κ υ γ : Type} [LinearOrder κ] :
    ConnectedEvent κ υ γ → List (ReadingEvent κ υ γ)
  | .reading e => [e]
  | _ => []

/-- The events that do not come from the tracker. -/
def ReadingEvent.IsUntold {κ υ γ : Type} [LinearOrder κ] : ReadingEvent κ υ γ → Bool
  | .applyChangedOnlineState _ => false
  | _ => true

namespace ConnectedClient

variable {κ υ Q γ : Type} [LinearOrder κ] {c c₁ c' : ConnectedClient κ υ Q γ}

section Behind

variable [DecidableEq υ] [MutationQueue κ Q] [UserQueues υ Q]

/-- The client that reads takes these steps, and is told of the online state in between. -/
def Behind (c : ConnectedClient κ υ Q γ) (es : List (ReadingEvent κ υ γ))
    (c' : ConnectedClient κ υ Q γ) : Prop :=
  ∃ readingEvents, PermittedRun ReadingClient.step ReadingClient.Enabled c.reading readingEvents
    c'.reading ∧ readingEvents.filter ReadingEvent.IsUntold = es

theorem behind_self (c : ConnectedClient κ υ Q γ) : c.Behind [] c := ⟨[], .nil, rfl⟩

theorem Behind.trans {es es' : List (ReadingEvent κ υ γ)} (h : c.Behind es c₁)
    (h' : c₁.Behind es' c') : c.Behind (es ++ es') c' := by
  obtain ⟨readingEvents, hrun, rfl⟩ := h
  obtain ⟨readingEvents', hrun', rfl⟩ := h'
  exact ⟨readingEvents ++ readingEvents', hrun.trans hrun', List.filter_append ..⟩

theorem permittedRun_tell (states : List OnlineState) {reading reading' : ReadingClient κ υ Q γ}
    (h : states.foldlM ReadingClient.applyChangedOnlineState reading = some reading') :
    PermittedRun ReadingClient.step ReadingClient.Enabled reading
      (states.map .applyChangedOnlineState) reading' := by
  induction states generalizing reading with
  | nil =>
      cases h
      exact .nil
  | cons state states ih =>
      obtain ⟨reading₁, hstep, hrest⟩ := Option.bind_eq_some_iff.mp h
      exact (PermittedRun.single (a := .applyChangedOnlineState state) trivial hstep).trans (ih hrest)

theorem behind_connect {a : ConnectionEvent} (h : c.connect a = some c') : c.Behind [] c' := by
  obtain ⟨connection, -, h⟩ := Option.bind_eq_some_iff.mp h
  obtain ⟨reading, htell, h⟩ := Option.bind_eq_some_iff.mp h
  cases h
  refine ⟨_, permittedRun_tell _ htell, List.filter_eq_nil_iff.mpr fun e he => ?_⟩
  obtain ⟨state, -, rfl⟩ := List.mem_map.mp he
  exact Bool.false_ne_true

theorem behind_elim {a : Option ConnectionEvent} (h : a.elim (some c) c.connect = some c') :
    c.Behind [] c' := by
  cases a with
  | none =>
      cases h
      exact c.behind_self
  | some a => exact behind_connect h

theorem behind_read {e : ReadingEvent κ υ γ} (he : c.reading.Enabled e) (huntold : e.IsUntold = true)
    (h : c.read e = some c') : c.Behind [e] c' := by
  obtain ⟨reading, hstep, rfl⟩ := Option.map_eq_some_iff.mp h
  exact ⟨[e], .single he hstep, List.filter_cons_of_pos huntold⟩

/-- **Behind every event** the client takes the step that was asked of it, if any. -/
theorem Linked.behind [LawfulUserQueues κ υ Q] {pending : υ → Pending κ} (h : c.Linked pending)
    {e : ConnectedEvent κ υ γ} (he : c.Enabled e) (hstep : c.step e = some c') :
    c.Behind e.own c' := by
  cases e with
  | reading e =>
      obtain ⟨he, hallows⟩ := he
      have huntold : e.IsUntold = true := by cases e <;> first | rfl | cases hallows
      obtain ⟨c₁, hheard, hstep⟩ := Option.bind_eq_some_iff.mp hstep
      obtain ⟨c₂, hread, hasked⟩ := Option.bind_eq_some_iff.mp hstep
      have he₁ : c₁.reading.Enabled e := by
        cases hb : ReadingClient.heardBefore e with
        | none =>
            rw [hb] at hheard
            cases hheard
            exact he
        | some b =>
            rw [hb] at hheard
            obtain ⟨c₃, hconnect, hcoupled, hconnects⟩ :=
              connect_spec h.toCoupled (h.heard he hallows hb)
            cases (show some c₃ = some c₁ from hconnect.symm.trans hheard)
            exact he.of_heard hb h.reading.targeted hcoupled.reading.targeted hconnects.client
      exact (behind_elim hheard).trans ((behind_read he₁ huntold hread).trans (behind_elim hasked))
  | watchStreamDidChange => exact behind_connect hstep
  | watchStreamWasInterrupted => exact behind_connect hstep
  | onlineStateTimeout => exact behind_connect hstep

end Behind

variable {userID : String} {es : List (ConnectedEvent κ String γ)}

end ConnectedClient

end CocoMap
