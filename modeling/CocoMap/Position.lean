import CocoMap.Lib.Transition
import CocoMap.Polling

/-!
# The partner sees the newest position

CoreLocation delivers locations in batches, oldest first.
`locationManager(_:didUpdateLocations:)` stores `locations[0]`, the oldest one of
its batch.  After all batches are written the document holds the first location of
the last batch, and every poll started from then on shows it.

* `deliver` — the writes of a sequence of batches;
* `Stores` — the coordinates in a document;
* `PartnerSees` — what every later poll of the partner leaves on the map.

`sees_newest_iff` puts the two devices together.
-/

namespace CocoMap

open Request Transition

/-! ## The device that moves -/

/-- The batches delivered on a device signed in as `v`, all writes applied in order. -/
def deliver (v : Uid) (batches : List (List CLLocationCoordinate2D)) (users : Collection) :
    Collection :=
  batches.foldl (fun users batch => (didUpdateLocations (some v) batch).run firestore users) users

/-- The document `ref` holds these coordinates. -/
def Stores (users : Collection) (ref : String) (location : CLLocationCoordinate2D) : Prop :=
  ∃ doc, users ref = some doc ∧ doc .lat = some (.double location.latitude) ∧
    doc .lon = some (.double location.longitude)

theorem Stores.unique {users : Collection} {ref : String} {l₁ l₂ : CLLocationCoordinate2D}
    (h₁ : Stores users ref l₁) (h₂ : Stores users ref l₂) : l₁ = l₂ := by
  obtain ⟨doc, hdoc, hlat, hlon⟩ := h₁
  obtain ⟨doc', hdoc', hlat', hlon'⟩ := h₂
  rw [hdoc, Option.some_inj] at hdoc'
  subst hdoc'
  rw [hlat, Option.some_inj, Value.double.injEq] at hlat'
  rw [hlon, Option.some_inj, Value.double.injEq] at hlon'
  cases l₁
  cases l₂
  simp_all

/-- The decoder returns the stored coordinates. -/
theorem Stores.userOf {users : Collection} {ref : String} {location : CLLocationCoordinate2D}
    (h : Stores users ref location) :
    ∃ userData, userOf users ref = some userData ∧
      (partnerPin userData).coordinate = location := by
  obtain ⟨doc, hdoc, hlat, hlon⟩ := h
  refine ⟨UserData.init doc, by rw [CocoMap.userOf, hdoc, Option.map_some], ?_⟩
  simp [partnerPin, UserData.init, hlat, hlon]

/-- One batch: the first location is stored, if the document exists. -/
theorem stores_didUpdateLocations {v : Uid} {location : CLLocationCoordinate2D}
    (newer : List CLLocationCoordinate2D) {users : Collection} (h : users v.string ≠ none) :
    Stores ((didUpdateLocations (some v) (location :: newer)).run firestore users) v.string
      location := by
  obtain ⟨doc, hdoc⟩ := Option.ne_none_iff_exists'.mp h
  rw [didUpdateLocations_some, Program.run_write, Program.run_done, firestore_perform]
  refine ⟨doc.merge [(.lat, .value (.double location.latitude)),
    (.lon, .value (.double location.longitude))], ?_, rfl, rfl⟩
  rw [setLocation, Write.perform_eq, if_pos (Write.ref_updateData ..).symm, hdoc]
  rfl

theorem exists_didUpdateLocations {v : Uid} {locations : List CLLocationCoordinate2D}
    {users : Collection} (h : users v.string ≠ none) :
    (didUpdateLocations (some v) locations).run firestore users v.string ≠ none := by
  cases locations with
  | nil => exact h
  | cons location newer =>
      obtain ⟨doc, hdoc, -⟩ := stores_didUpdateLocations newer h
      rw [hdoc]
      exact Option.some_ne_none doc

theorem exists_deliver {v : Uid} (batches : List (List CLLocationCoordinate2D))
    {users : Collection} (h : users v.string ≠ none) :
    deliver v batches users v.string ≠ none := by
  induction batches generalizing users with
  | nil => exact h
  | cons batch batches ih => exact ih (exists_didUpdateLocations h)

/-- All batches: the first location of the last batch is stored. -/
theorem stores_deliver {v : Uid} {users : Collection} (h : users v.string ≠ none)
    (older : List (List CLLocationCoordinate2D)) (location : CLLocationCoordinate2D)
    (newer : List CLLocationCoordinate2D) :
    Stores (deliver v (older ++ [location :: newer]) users) v.string location := by
  rw [deliver, List.foldl_concat]
  exact stores_didUpdateLocations newer (exists_deliver older h)

/-! ## The device that shows -/

/-- The process and the session of `u` go on, and no read of the poll `id` ends in an
error. -/
def Event.Keeps (u : Uid) (id : ℕ) (e : Event) : Prop :=
  e ≠ .launch ∧ (∀ currentUser, e = .auth currentUser → currentUser = some u) ∧ e ≠ .reply id none

/-- Versions of the collection from `users` on: `u` has the partner `v`, whose
document keeps its coordinates. -/
structure Resting (users : Collection) (versions : ℕ → Collection) (u v : Uid) : Prop where
  partner : ∀ m, Names (versions m) u.string v.string
  unmoved : ∀ m location, Stores users v.string location → Stores (versions m) v.string location

/-- A poll of `u` that starts when no other is in flight, and reads from then on the
document of the partner `v`, leaves the pin of its controller at this place. -/
def PartnerSees (users : Collection) (v : Uid) (location : CLLocationCoordinate2D) : Prop :=
  ∀ versions u app c events app', Resting users versions u v →
    app.currentUser = some u → (∀ id, app.polls id = none) →
    (∀ e ∈ events, e.Keeps u app.started) →
    run (App.step versions) app (.tick c :: events) = some app' → app'.polls app.started = none →
    ∃ pin, app'.mapView c = some pin ∧ pin.coordinate = location

/-- What holds while the polls of `u` go on: each awaits one of its two replies, and
the poll `id` of the controller `c` is in flight until the pin is in place. -/
structure Showing (u v : Uid) (location : CLLocationCoordinate2D) (id c : ℕ) (app : App) :
    Prop where
  currentUser : app.currentUser = some u
  started : id < app.started
  polls : ∀ i poll, app.polls i = some poll →
    poll.task = .read u.string userCompletion ∨ poll.task = .read v.string partnerCompletion
  shown : (∃ poll, app.polls id = some poll ∧ poll.controller = c) ∨
    ∃ pin, app.mapView c = some pin ∧ pin.coordinate = location

section Step

variable {versions : ℕ → Collection} {u v : Uid} {location : CLLocationCoordinate2D} {id c : ℕ}
  {app app' : App}

/-- A tick starts a poll of the signed-in user. -/
theorem step_tick_some (huser : app.currentUser = some u)
    (hstep : app.step versions (.tick c) = some app') :
    app' = { app with
      started := app.started + 1
      polls := Function.update app.polls app.started
        (some ⟨c, .read u.string userCompletion⟩) } := by
  obtain ⟨-, rfl⟩ := App.step_tick hstep
  rw [huser, updatePin_some]
  rfl

theorem Showing.tick (h : Showing u v location id c app) {c' : ℕ}
    (hstep : app.step versions (.tick c') = some app') : Showing u v location id c app' := by
  rw [step_tick_some h.currentUser hstep]
  refine ⟨h.currentUser, Nat.lt_succ_of_lt h.started, fun i poll hpoll => ?_, ?_⟩
  · rcases eq_or_ne i app.started with rfl | hi
    · simp only [Function.update_self, Option.some_inj] at hpoll
      exact Or.inl (by rw [← hpoll])
    · simp only [Function.update_of_ne hi] at hpoll
      exact h.polls i poll hpoll
  · have hid : id ≠ app.started := Nat.ne_of_lt h.started
    rcases h.shown with ⟨poll, hpoll, hc⟩ | hpin
    · exact Or.inl ⟨poll, by simpa only [Function.update_of_ne hid] using hpoll, hc⟩
    · exact Or.inr hpin

/-- A poll that is over without a pin was not the one that is awaited. -/
theorem Showing.drop (h : Showing u v location id c app) {i c' : ℕ} (hne : i ≠ id) :
    Showing u v location id c (app.proceed i c' (.done none)) := by
  refine ⟨h.currentUser, h.started, fun j poll hj => ?_, ?_⟩
  · rcases App.polls_of_proceed hj with ⟨rfl, rfl⟩ | ⟨-, hold⟩
    · rw [App.polls_proceed_done] at hj
      cases hj
    · exact h.polls j poll hold
  · rcases h.shown with ⟨poll, hid, hc⟩ | hpin
    · exact Or.inl ⟨poll, (Function.update_of_ne hne.symm ..).trans hid, hc⟩
    · exact Or.inr hpin

theorem Showing.reply (h : Showing u v location id c app)
    (partner : ∀ m, Names (versions m) u.string v.string)
    (stores : ∀ m, Stores (versions m) v.string location) {i : ℕ} {version : Option ℕ}
    (hanswer : i = id → version ≠ none)
    (hstep : app.step versions (.reply i version) = some app') :
    Showing u v location id c app' := by
  obtain ⟨c', ref, completion, hpoll, rfl⟩ := App.step_reply hstep
  cases version with
  | none =>
      -- another poll ends in an error
      have hne : i ≠ id := fun e => hanswer e rfl
      rcases h.polls i _ hpoll with htask | htask
      · cases htask
        exact h.drop hne
      · cases htask
        exact h.drop hne
  | some m =>
      rcases h.polls i _ hpoll with htask | htask
      · -- the first reply names the partner
        cases htask
        have hnext : userCompletion (App.answer versions (some m) u.string) =
            .read v.string partnerCompletion :=
          userCompletion_eq_read.mpr ⟨rfl, v.string, partner m, document_uid v⟩
        rw [hnext]
        refine ⟨h.currentUser, h.started, fun j poll hj => ?_, ?_⟩
        · rcases App.polls_of_proceed hj with ⟨rfl, rfl⟩ | ⟨-, hold⟩
          · exact Or.inr rfl
          · exact h.polls j poll hold
        · rcases h.shown with ⟨poll, hid, hc⟩ | hpin
          · refine Or.inl ?_
            rcases eq_or_ne id i with rfl | hne
            · rw [hpoll, Option.some_inj] at hid
              subst hid
              exact ⟨⟨c', .read v.string partnerCompletion⟩, Function.update_self .., hc⟩
            · exact ⟨poll, (Function.update_of_ne hne ..).trans hid, hc⟩
          · exact Or.inr hpin
      · -- the second reply shows where the partner is
        cases htask
        obtain ⟨partnerData, hdata, hcoordinate⟩ := (stores m).userOf
        have hnext : partnerCompletion (App.answer versions (some m) v.string) =
            .done (some (partnerPin partnerData)) :=
          partnerCompletion_eq_pin.mpr ⟨partnerData, hdata, rfl⟩
        rw [hnext]
        refine ⟨h.currentUser, h.started, fun j poll hj => ?_, ?_⟩
        · rcases App.polls_of_proceed hj with ⟨rfl, rfl⟩ | ⟨-, hold⟩
          · rw [App.polls_proceed_done] at hj
            cases hj
          · exact h.polls j poll hold
        · rcases eq_or_ne c c' with rfl | hc'
          · exact Or.inr ⟨partnerPin partnerData, Function.update_self .., hcoordinate⟩
          · rcases h.shown with ⟨poll, hid, hc⟩ | ⟨pin, hpin, hloc⟩
            · have hne : id ≠ i := by
                rintro rfl
                rw [hpoll, Option.some_inj] at hid
                subst hid
                exact hc' hc.symm
              exact Or.inl ⟨poll, (Function.update_of_ne hne ..).trans hid, hc⟩
            · exact Or.inr ⟨pin, (Function.update_of_ne hc' ..).trans hpin, hloc⟩

/-- **The step lemma.**  What keeps the session of `u` keeps the poll on its way. -/
theorem Showing.step (h : Showing u v location id c app)
    (partner : ∀ m, Names (versions m) u.string v.string)
    (stores : ∀ m, Stores (versions m) v.string location) {e : Event} (hkeeps : e.Keeps u id)
    (hstep : app.step versions e = some app') : Showing u v location id c app' := by
  obtain ⟨hlaunch, hauth, hanswer⟩ := hkeeps
  cases e with
  | launch => exact absurd rfl hlaunch
  | auth currentUser =>
      cases hstep
      exact { h with currentUser := hauth currentUser rfl }
  | setupViewController =>
      cases hstep
      exact { h with }
  | tick c' => exact h.tick hstep
  | reply i version =>
      refine h.reply partner stores (fun hi hversion => hanswer ?_) hstep
      rw [hi, hversion]

end Step

/-- **The partner sees what is stored.** -/
theorem partnerSees_of_stores {users : Collection} {v : Uid} {location : CLLocationCoordinate2D}
    (h : Stores users v.string location) : PartnerSees users v location := by
  intro versions u app c events app' hresting huser hquiet hkeeps hrun hover
  obtain ⟨app₁, hstep, hrest⟩ := run_cons_eq_some.mp hrun
  have hstart : Showing u v location app.started c app₁ := by
    rw [step_tick_some huser hstep]
    refine ⟨huser, Nat.lt_succ_self _, fun i poll hpoll => ?_,
      Or.inl ⟨_, Function.update_self .., rfl⟩⟩
    rcases eq_or_ne i app.started with rfl | hi
    · simp only [Function.update_self, Option.some_inj] at hpoll
      exact Or.inl (by rw [← hpoll])
    · simp only [Function.update_of_ne hi, hquiet, reduceCtorEq] at hpoll
  have hend : Showing u v location app.started c app' :=
    run_invariant (fun _ e he _ hshowing hstep => hshowing.step hresting.partner
      (fun m => hresting.unmoved m location h) (hkeeps e he) hstep) hstart hrest
  rcases hend.shown with ⟨poll, hpoll, -⟩ | hpin
  · rw [hover] at hpoll
    cases hpoll
  · exact hpin

/-! ## Both devices -/

/-- **The partner sees the newest position exactly if the last batch starts where it
ends.** -/
theorem sees_newest_iff {v : Uid} {batches : List (List CLLocationCoordinate2D)}
    {users : Collection} (hbatches : batches ≠ []) (hlocations : ∀ batch ∈ batches, batch ≠ [])
    (hdoc : users v.string ≠ none) :
    (∀ newest, batches.flatten.getLast? = some newest →
      Stores (deliver v batches users) v.string newest ∧
        PartnerSees (deliver v batches users) v newest) ↔
    ∀ batch, batches.getLast? = some batch → batch.head? = batch.getLast? := by
  obtain ⟨older, batch, rfl⟩ := List.eq_nil_or_concat batches |>.resolve_left hbatches
  rw [List.concat_eq_append] at *
  obtain ⟨location, newer, rfl⟩ := List.exists_cons_of_ne_nil (hlocations batch (by simp))
  have hstores := stores_deliver hdoc older location newer
  have hnewest : (older ++ [location :: newer]).flatten.getLast? = (location :: newer).getLast? := by
    rw [List.flatten_append, List.flatten_singleton, List.getLast?_append_of_ne_nil _ (by simp)]
  rw [hnewest, List.getLast?_concat]
  constructor
  · rintro h _ ⟨rfl⟩
    obtain ⟨newest, hlast⟩ : ∃ newest, (location :: newer).getLast? = some newest :=
      ⟨_, List.getLast?_eq_some_getLast (by simp)⟩
    rw [hlast, List.head?_cons, (h newest hlast).1.unique hstores]
  · intro h newest hlast
    have hsame := h _ rfl
    rw [hlast, List.head?_cons, Option.some_inj] at hsame
    subst hsame
    exact ⟨hstores, partnerSees_of_stores hstores⟩

/-- One location, and then two more in one batch. -/
def walk : List (List CLLocationCoordinate2D) :=
  [[⟨10#64, 20#64⟩], [⟨11#64, 21#64⟩, ⟨12#64, 22#64⟩]]

theorem sees_newest_iff_walk :
    (∀ newest, walk.flatten.getLast? = some newest →
      Stores (deliver bob walk pairedUsers) "bobby-7" newest ∧
        PartnerSees (deliver bob walk pairedUsers) bob newest) ↔
    ∀ batch, walk.getLast? = some batch → batch.head? = batch.getLast? :=
  sees_newest_iff (v := bob) (by decide) (by decide) (Option.some_ne_none _)

/-- At the end of the walk the document holds the last location but one. -/
theorem not_sees_newest_walk :
    ¬ ∀ newest, walk.flatten.getLast? = some newest →
      Stores (deliver bob walk pairedUsers) "bobby-7" newest ∧
        PartnerSees (deliver bob walk pairedUsers) bob newest := by
  intro h
  have hfirst : Stores (deliver bob walk pairedUsers) "bobby-7" ⟨11#64, 21#64⟩ :=
    stores_deliver (v := bob) (Option.some_ne_none _) [[⟨10#64, 20#64⟩]]
      ⟨11#64, 21#64⟩ [⟨12#64, 22#64⟩]
  have hnewest := (h ⟨12#64, 22#64⟩ rfl).1
  exact absurd (hfirst.unique hnewest) (by decide)

end CocoMap
