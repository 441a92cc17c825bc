import CocoMap.Interleaved

/-!
# Who gets to see a location

A poll shows the partner's location after two reads: the own document names a
partner, the partner's document is displayed.  Nothing ties the two together, and
nothing asks whether the displayed document names the poll's user back.

* `Discreet` — whichever poll is answered next, the pin it places comes from a
  document whose partner is the poll's user;
* `Faithful` — what it takes: a poll reads its own document only while the pairing
  it reads is not one-sided, and nobody puts another partner into a document that
  a poll is about to display.

`everywhere_discreet_iff` shows that the two are the same along every run.
-/

namespace CocoMap

open Request Transition

universe u

variable {ι : Type u}

/-- Whichever poll is answered next, a pin it places is read from a document whose
decoded partner is the user of the poll. -/
def Discreet (ops : ι → Operation) (sys : Calls ι) : Prop :=
  ∀ i uid ref completion pin, ops i = .poll uid → sys.calls i = .read ref completion →
    completion (firestore.get sys.store ref) = .done (some pin) →
    partnerOf sys.store ref = some uid.string

/-- The pairing that `a` reads in its own document is not one-sided: the document
it names is missing, or names no other partner than `a`. -/
def Mutual (users : Collection) (a : String) : Prop :=
  ∀ p ref q, Names users a p → document p = some ref → partnerOf users ref = some q → q = a

/-- What a request must not do, in the state before it is served: the first read of
a poll, return a one-sided pairing; a write, leave a partner other than the user
of a poll in the document this poll is about to display. -/
def Faithful (ops : ι → Operation) (sys : Calls ι) (i : ι) : Prop :=
  (∀ uid, ops i = .poll uid → sys.calls i = .read uid.string userCompletion →
    Mutual sys.store uid.string) ∧
  ∀ request rest, sys.calls i = .write request rest →
    ∀ j uid q, ops j = .poll uid → sys.calls j = .read request.ref partnerCompletion →
      partnerOf (request.perform sys.store) request.ref = some q → q = uid.string

/-- In calls that have started, the pins are those of polls that await their second
reply. -/
theorem discreet_iff {ops : ι → Operation} {sys : Calls ι} (h : Started ops sys) :
    Discreet ops sys ↔
      ∀ i uid ref q, ops i = .poll uid → sys.calls i = .read ref partnerCompletion →
        partnerOf sys.store ref = some q → q = uid.string := by
  constructor
  · intro hd i uid ref q hop hcall hq
    obtain ⟨partnerData, hdata, rfl⟩ := partnerOf_eq_some.mp hq
    have hpin := hd i uid ref partnerCompletion (partnerPin partnerData) hop hcall
      (partnerCompletion_eq_pin.mpr ⟨partnerData, hdata, rfl⟩)
    rw [partnerOf_of_userOf hdata] at hpin
    exact Option.some.inj hpin
  · intro hd i uid ref completion pin hop hcall hpin
    have hleft := h i
    rw [hop, Operation.task, hcall] at hleft
    rcases remains_updatePin hleft with hread | hread | ⟨_, hread⟩ | ⟨ref', hread⟩
    · cases hread
      exact absurd hpin (userCompletion_ne_pin _ pin)
    · cases hread
    · cases hread
    · cases hread
      obtain ⟨partnerData, hdata, -⟩ := partnerCompletion_eq_pin.mp hpin
      have hpartner := partnerOf_of_userOf hdata
      rw [hpartner, hd i uid ref _ hop hcall hpartner]

theorem discreet_concurrently (users : Collection) (ops : ι → Operation) :
    Discreet ops (concurrently users ops) := by
  intro i uid ref completion pin hop hcall hpin
  have htask : (ops i).task = .read ref completion := hcall
  rw [hop, Operation.task, updatePin_some, Program.read.injEq] at htask
  obtain ⟨-, rfl⟩ := htask
  exact absurd hpin (userCompletion_ne_pin _ pin)

section Step

variable [DecidableEq ι] {ops : ι → Operation} {sys sys' : Calls ι} {i : ι}

theorem discreet_read_iff (hstart : Started ops sys) (hdiscreet : Discreet ops sys)
    (hstep : serve sys i = some sys') {ref : String} {completion : Option DocumentSnapshot → Task}
    (hcall : sys.calls i = .read ref completion) (hstore : sys'.store = sys.store)
    (hcalls : sys'.calls =
      Function.update sys.calls i (completion (firestore.get sys.store ref))) :
    Discreet ops sys' ↔ Faithful ops sys i := by
  rw [discreet_iff (hstart.serve hstep)]
  rw [discreet_iff hstart] at hdiscreet
  constructor
  · intro hd
    refine ⟨fun uid hop hfirst p ref' q hnames hdoc hq => ?_, fun request rest hwrite => ?_⟩
    · rw [hcall, Program.read.injEq] at hfirst
      obtain ⟨rfl, rfl⟩ := hfirst
      -- the reply makes the partner's document the next one to be displayed
      have hsecond : sys'.calls i = .read ref' partnerCompletion := by
        rw [hcalls, Function.update_self, firestore_get]
        exact userCompletion_eq_read.mpr ⟨rfl, p, hnames, hdoc⟩
      exact hd i uid ref' q hop hsecond (hstore ▸ hq)
    · rw [hcall] at hwrite
      cases hwrite
  · rintro ⟨hmutual, -⟩ j uid ref' q hop hsecond hq
    rw [hstore] at hq
    rcases eq_or_ne j i with rfl | hji
    · rw [hcalls, Function.update_self, firestore_get] at hsecond
      have hleft := hstart j
      rw [hop, Operation.task, hcall] at hleft
      rcases remains_updatePin hleft with hread | hread | ⟨_, hread⟩ | ⟨_, hread⟩
      · cases hread
        obtain ⟨-, p, hnames, hdoc⟩ := userCompletion_eq_read.mp hsecond
        exact hmutual uid hop hcall p ref' q hnames hdoc hq
      · cases hread
      · cases hread
      · cases hread
        cases hsecond
    · rw [hcalls, Function.update_of_ne hji] at hsecond
      exact hdiscreet j uid ref' q hop hsecond hq

theorem discreet_write_iff (hstart : Started ops sys) (hdiscreet : Discreet ops sys)
    (hstep : serve sys i = some sys') {request : Write} {rest : Task}
    (hcall : sys.calls i = .write request rest)
    (hstore : sys'.store = request.perform sys.store)
    (hcalls : sys'.calls = Function.update sys.calls i rest) :
    Discreet ops sys' ↔ Faithful ops sys i := by
  rw [discreet_iff (hstart.serve hstep)]
  rw [discreet_iff hstart] at hdiscreet
  constructor
  · intro hd
    refine ⟨fun uid hop hfirst => ?_, fun request' rest' hwrite j uid q hop hsecond hq => ?_⟩
    · rw [hcall] at hfirst
      cases hfirst
    · rw [hcall, Program.write.injEq] at hwrite
      obtain ⟨rfl, rfl⟩ := hwrite
      have hji : j ≠ i := by
        rintro rfl
        rw [hcall] at hsecond
        cases hsecond
      refine hd j uid request.ref q hop ?_ (hstore ▸ hq)
      rw [hcalls, Function.update_of_ne hji, hsecond]
  · rintro ⟨-, hkept⟩ j uid ref q hop hsecond hq
    -- a poll never writes
    have hji : j ≠ i := by
      rintro rfl
      have hleft := hstart j
      rw [hop, Operation.task, hcall] at hleft
      rcases remains_updatePin hleft with hw | hw | ⟨_, hw⟩ | ⟨_, hw⟩ <;> cases hw
    rw [hcalls, Function.update_of_ne hji] at hsecond
    rw [hstore] at hq
    rcases eq_or_ne ref request.ref with rfl | href
    · exact hkept request rest hcall j uid q hop hsecond hq
    · refine hdiscreet j uid ref q hop hsecond ?_
      rwa [partnerOf, userOf, Write.perform_of_ne sys.store request href] at hq

/-- A step from a discreet state leads to a discreet state exactly when it is faithful. -/
theorem discreet_step_iff (hstart : Started ops sys) (hdiscreet : Discreet ops sys)
    (hstep : serve sys i = some sys') : Discreet ops sys' ↔ Faithful ops sys i := by
  rcases advance_cases hstep with
    ⟨ref, completion, hcall, hstore, hcalls⟩ | ⟨request, rest, hcall, hstore, hcalls⟩
  · exact discreet_read_iff hstart hdiscreet hstep hcall hstore hcalls
  · exact discreet_write_iff hstart hdiscreet hstep hcall hstore hcalls

end Step

/-- **A location is shown only to the present partner exactly along the runs whose
steps are all faithful.** -/
theorem everywhere_discreet_iff [DecidableEq ι] (users : Collection) (ops : ι → Operation)
    (schedule : List ι) :
    Everywhere serve (Discreet ops) (concurrently users ops) schedule ↔
      EachStep serve (Faithful ops) (concurrently users ops) schedule :=
  everywhere_iff_eachStep_of_invariant (J := Started ops) (fun _ _ _ h hstep => h.serve hstep)
    (fun _ _ _ hstart hdiscreet hstep => discreet_step_iff hstart hdiscreet hstep)
    (started_concurrently users ops) (discreet_concurrently users ops)

/-- Alice pairs with Bob, Carol enters Bob's code, and Alice's timer ticks. -/
def pollAfterRePairing : Fin 6 → Operation
  | 0 => .signUp (testForm "a@x" "Alice") (some alice)
  | 1 => .signUp (testForm "b@x" "Bob") (some bob)
  | 2 => .signUp (testForm "c@x" "Carol") (some carol)
  | 3 => .code alice (.ofScalars "bobby-7")
  | 4 => .code carol (.ofScalars "bobby-7")
  | 5 => .poll alice

/-- One operation after the other, and Alice is shown the place of Bob, who is
Carol's partner. -/
theorem not_everywhere_discreet :
    ¬ Everywhere serve (Discreet pollAfterRePairing)
      (concurrently (fun _ => none) pollAfterRePairing) [0, 1, 2, 3, 3, 4, 4, 5] := by
  intro h
  obtain ⟨sys, hrun, hcall, hpartner⟩ : ∃ sys,
      run serve (concurrently (fun _ => none) pollAfterRePairing) [0, 1, 2, 3, 3, 4, 4, 5] =
        some sys ∧ sys.calls 5 = .read "bobby-7" partnerCompletion ∧
        partnerOf sys.store "bobby-7" = some "carol-7" := ⟨_, rfl, rfl, rfl⟩
  obtain ⟨partnerData, hdata, -⟩ := partnerOf_eq_some.mp hpartner
  have hshown := h.last hrun 5 alice "bobby-7" partnerCompletion
    (partnerPin partnerData) rfl hcall (partnerCompletion_eq_pin.mpr ⟨partnerData, hdata, rfl⟩)
  rw [hpartner] at hshown
  exact absurd hshown (by decide)

end CocoMap
