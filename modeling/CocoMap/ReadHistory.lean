import CocoMap.DurableDelivery
import CocoMap.ReadSteps

/-!
# Reads over whole runs

Between the beginning of a read and its answer the client sees its document change.  The answer is
what the client saw at one moment in between (`reads_answered`): a read is as good as one that
happens at once.  No read is answered twice, and none is forgotten: a read that is not answered
waits for the server, and is answered when the client goes offline.
-/

namespace CocoMap

open Transition

namespace ReadingClient

variable {κ υ Q γ : Type} [LinearOrder κ]

/-- The client of a new device. -/
def init (userID : String) : ReadingClient κ String (LevelDBMutationQueue κ) γ where
  client := .init userID
  queryCache := .init
  queryViews := .empty
  eventManager := .init
  userQueue := []
  removals := []
  muted := ∅
  reads := []
  begun := 0
  answered := []

theorem invariant_init (userID : String) :
    (init userID : ReadingClient κ String (LevelDBMutationQueue κ) γ).Invariant
      fun _ => Pending.init 0 where
  client := FirestoreClient.invariant_init userID
  following := fun _ => .nobody
  housed := ⟨fun _ _ hinfo => (nomatch hinfo), fun _ _ hinfo => (nomatch hinfo)⟩
  targeted := {
    nodup := List.nodup_nil
    mem_iff := fun targetID => by
      refine ⟨fun hmem => absurd hmem List.not_mem_nil, ?_⟩
      rintro ⟨query, queryView, hview, -⟩
      cases hview
    allocated := fun _ _ hview => by cases hview
    bounded := fun _ _ htarget => by cases htarget
    injective := fun _ _ _ htarget => by cases htarget }
  tracked := {
    sound := fun n => ⟨fun l hl => absurd hl (Option.not_mem_none l), fun h => Bool.noConfusion h,
      fun h => Bool.noConfusion h, fun e he => absurd he List.not_mem_nil,
      fun e before after heq => by cases before <;> cases heq⟩
    accounted := fun n _ hlength => absurd hlength (Nat.not_lt_zero n)
    earlier := fun n hn => absurd hn (Nat.not_lt_zero n)
    later := fun _ _ => rfl
    documents := fun n s hs => absurd hs List.not_mem_nil
    removals := fun n hn => absurd hn List.not_mem_nil
    begun := le_rfl }

/-! ## What justifies an answer -/

section Justified

variable [MutationQueue κ Q] {c c' : ReadingClient κ υ Q γ} {pending : υ → Pending κ}

/-- The server agrees with what the client sees: it has said that the target is current, and it
knows the document, or there is none, or a pending write explains it. -/
def Agreed (c : ReadingClient κ υ Q γ) (key : κ) : Prop :=
  ∃ queryView, c.queryViews.lookup key = some queryView ∧ queryView.view.current = true ∧
    (key ∈ queryView.view.syncedDocuments ∨ ∀ d ∈ c.shown key, d.hasLocalMutations = true)

/-- The answer is what the client sees.  If the server does not agree, then the client is offline. -/
def Justifies (c : ReadingClient κ υ Q γ) (key : κ) : ReadAnswer → Prop
  | .document document fromCache => document = View.look (c.shown key) ∧
      (if fromCache then c.shown key ≠ none ∧ c.eventManager.onlineState = .offline
        else c.Agreed key)
  | .error error => error = .unavailable ∧ c.shown key = none ∧ c.eventManager.onlineState = .offline

theorem Invariant.justifies [UserQueues υ Q] [LawfulUserQueues κ υ Q] (h : c.Invariant pending)
    {n : ℕ} {s : ViewSnapshot κ} (hsees : c.Sees n s) :
    ∃ key, c.home n = some key ∧ c.Justifies key (answerTo key (.snapshot s)) := by
  obtain ⟨s', ⟨key, queryView, hhome, hview, hsnapshot⟩, hdocuments, hfromCache, hoffline⟩ := hsees
  refine ⟨key, hhome, ?_⟩
  have hquery := h.following.query_eq hview
  obtain ⟨d, hsingle, hlook⟩ := hsnapshot.documents
  have hnone : d = none ↔ c.shown key = none := by
    rw [← Option.map_eq_none_iff (f := fun d : ExistingDocument => (d.data, d.hasLocalMutations)),
      show d.map _ = _ from hlook]
    exact Option.map_eq_none_iff
  have hlookup : s.documents.lookup key = d := by
    rw [hdocuments, hsingle, hquery, SortedMap.lookup_single_self]
  rw [answerTo, hlookup, answerOf]
  cases hcache : s.fromCache with
  | true =>
      by_cases hd : d = none
      · rw [if_pos ⟨hd, rfl⟩]
        exact ⟨rfl, hnone.mp hd, hoffline hcache⟩
      · rw [if_neg fun hboth => hd hboth.1]
        exact ⟨hlook, fun hshown => hd (hnone.mpr hshown), hoffline hcache⟩
  | false =>
      rw [if_neg fun hboth => Bool.noConfusion hboth.2]
      refine ⟨hlook, queryView, hview, ?_⟩
      have happlied := h.following.applied hview
      have hsynced : queryView.view.syncState = .synced := by
        have hstate := hsnapshot.fromCache
        rw [← hfromCache, hcache, eq_comm, decide_eq_false_iff_not] at hstate
        rw [happlied.syncState] at hstate ⊢
        split
        · rfl
        · rename_i hnot
          exact absurd (if_neg hnot) hstate
      rw [happlied.synced_iff, hquery] at hsynced
      exact hsynced

end Justified

/-! ## The history of the reads -/

variable {userID : String} {es : List (ReadingEvent κ String γ)} {e : ReadingEvent κ String γ}
  {c c' : ReadingClient κ String (LevelDBMutationQueue κ) γ} {pending : String → Pending κ}

/-- At some moment of the run, when the read had begun and was not answered yet, the answer was what
the client saw. -/
def SeenDuring (userID : String) (es : List (ReadingEvent κ String γ)) (n : ℕ) (key : κ)
    (answer : ReadAnswer) : Prop :=
  ∃ before u, before <+: es ∧
    run step (init userID : ReadingClient κ String (LevelDBMutationQueue κ) γ) before = some u ∧
    u.home n = some key ∧ n ∉ u.answered.map Prod.fst ∧ u.Justifies key answer

/-- The answer was seen, or the server has rejected the listen. -/
def Explains (userID : String) (es : List (ReadingEvent κ String γ)) (n : ℕ) (key : κ)
    (answer : ReadAnswer) : Prop :=
  SeenDuring userID es n key answer ∨
    ∃ targetID error, answer = .error error ∧ .rejectListen targetID error ∈ es

theorem Explains.concat {n : ℕ} {key : κ} {answer : ReadAnswer}
    (h : Explains userID es n key answer) : Explains userID (es ++ [e]) n key answer := by
  rcases h with ⟨before, u, hbefore, hseen⟩ | ⟨targetID, error, hanswer, hmem⟩
  · exact Or.inl ⟨before, u, hbefore.trans (List.prefix_append es [e]), hseen⟩
  · exact Or.inr ⟨targetID, error, hanswer, List.mem_append_left _ hmem⟩

/-- The answers of the reads are explained by the run, and so are those on their way. -/
structure Explained (userID : String) (es : List (ReadingEvent κ String γ))
    (c : ReadingClient κ String (LevelDBMutationQueue κ) γ) : Prop where
  head : ∀ n event, (c.status n).answered = false → (c.status n).events.head? = some event →
    ∃ key, c.home n = some key ∧ Explains userID es n key (answerTo key event)
  error : ∀ n error, .error error ∈ (c.status n).events → ∃ targetID, .rejectListen targetID error ∈ es
  answers : ∀ n answer, (n, answer) ∈ c.answered →
    ∃ key, c.home n = some key ∧ Explains userID es n key answer
  once : (c.answered.map Prod.fst).Nodup

theorem explained_init (userID : String) :
    Explained userID [] (init userID : ReadingClient κ String (LevelDBMutationQueue κ) γ) where
  head := fun _ _ _ hhead => nomatch hhead
  error := fun _ _ herror => absurd herror List.not_mem_nil
  answers := fun _ _ hanswer => absurd hanswer List.not_mem_nil
  once := List.nodup_nil

/-- The query of a read stays the same. -/
theorem home_mono (h : c.reads <+: c'.reads) {n : ℕ} {key : κ} (hkey : c.home n = some key) :
    c'.home n = some key := by
  obtain ⟨reads, hreads⟩ := h
  rw [home, ← hreads, List.getElem?_append_left (List.getElem?_eq_some_iff.mp hkey).1]
  exact hkey

/-- **A step explains** what it dispatches by the state it leads to, and what it answers by the
state in which the event was dispatched. -/
theorem Explained.step (h : Explained userID es c) (hinvariant : c'.Invariant pending)
    (hrun : run ReadingClient.step (init userID) (es ++ [e]) = some c')
    (hdispatches : c.Dispatches e c') (hanswers : c.Answers c') :
    Explained userID (es ++ [e]) c' := by
  have hhome : ∀ {n key}, c.home n = some key → c'.home n = some key :=
    home_mono hdispatches.reads
  have hlog : c.answered <+: c'.answered := by
    rcases hanswers with heq | ⟨n, key, event, heq, -⟩
    · rw [heq]
    · rw [heq]
      exact List.prefix_append _ _
  have herror : ∀ n error, .error error ∈ (c'.status n).events →
      ∃ targetID, .rejectListen targetID error ∈ es ++ [e] := by
    intro n error hmem
    rcases hdispatches.error n error hmem with hold | ⟨targetID, rfl⟩
    · obtain ⟨targetID, hmem⟩ := h.error n error hold
      exact ⟨targetID, List.mem_append_left _ hmem⟩
    · exact ⟨targetID, List.mem_append_right _ List.mem_cons_self⟩
  refine ⟨fun n event hnot hhead => ?_, herror, fun n answer hmem => ?_, ?_⟩
  · cases event with
    | error error =>
        obtain ⟨targetID, hmem⟩ := herror n error (List.mem_of_mem_head? hhead)
        have hbegun := hinvariant.tracked.lt_length (n := n)
          (Or.inl fun hnil => by rw [hnil] at hhead; cases hhead)
        exact ⟨_, List.getElem?_eq_getElem hbegun, Or.inr ⟨targetID, error, rfl, hmem⟩⟩
    | snapshot s =>
        rcases hdispatches.head n s hnot hhead with hold | hsees
        · have hbefore : (c.status n).answered = false := by
            refine decide_eq_false fun hmem => of_decide_eq_false hnot ?_
            exact (hlog.map Prod.fst).subset hmem
          obtain ⟨key, hkey, hexplains⟩ := h.head n _ hbefore hold
          exact ⟨key, hhome hkey, hexplains.concat⟩
        · obtain ⟨key, hkey, hjustifies⟩ := hinvariant.justifies hsees
          exact ⟨key, hkey, Or.inl ⟨_, c', List.prefix_rfl, hrun, hkey, of_decide_eq_false hnot,
            hjustifies⟩⟩
  · have hold : (n, answer) ∈ c.answered →
        ∃ key, c'.home n = some key ∧ Explains userID (es ++ [e]) n key answer := by
      intro hmem
      obtain ⟨key, hkey, hexplains⟩ := h.answers n answer hmem
      exact ⟨key, hhome hkey, hexplains.concat⟩
    rcases hanswers with heq | ⟨m, key, event, heq, hkey, hnot, hhead⟩
    · exact hold (heq ▸ hmem)
    · rw [heq] at hmem
      rcases List.mem_append.mp hmem with hmem | hnew
      · exact hold hmem
      · cases List.mem_singleton.mp hnew
        obtain ⟨key', hkey', hexplains⟩ := h.head n event hnot hhead
        obtain rfl := Option.some_inj.mp (hkey.symm.trans hkey')
        exact ⟨key, hhome hkey, hexplains.concat⟩
  · rcases hanswers with heq | ⟨m, key, event, heq, -, hnot, -⟩
    · exact heq ▸ h.once
    · rw [heq, List.map_append]
      refine h.once.append (List.nodup_singleton m) ?_
      rw [List.map_singleton, List.disjoint_singleton]
      exact of_decide_eq_false hnot

/-- **Every run reaches a state** in which the invariant holds and all answers are explained. -/
theorem exists_reached (h : Permitted step Enabled
      (init userID : ReadingClient κ String (LevelDBMutationQueue κ) γ) es) :
    ∃ c pending, run step (init userID) es = some c ∧ c.Invariant pending ∧
      Explained userID es c := by
  obtain ⟨c, hrun, ⟨pending, hinvariant⟩, hexplained⟩ := run_permitted
    (P := fun es c => (∃ pending, c.Invariant pending) ∧ Explained userID es c)
    ⟨⟨_, invariant_init userID⟩, explained_init userID⟩
    (fun es c e hrun ⟨⟨pending, hinvariant⟩, hexplained⟩ henabled => by
      obtain ⟨c', pending', hstep, hinvariant', hdispatches, hanswers⟩ := step_safe hinvariant henabled
      have hrun' := run_concat_eq_some.mpr ⟨c, hrun, hstep⟩
      exact ⟨c', hstep, ⟨pending', hinvariant'⟩,
        hexplained.step hinvariant' hrun' hdispatches hanswers⟩) h
  exact ⟨c, pending, hrun, hinvariant, hexplained⟩

/-! ## Reads come to an end -/

section Finish

variable {Q υ : Type} [DecidableEq υ] [MutationQueue κ Q] [UserQueues υ Q] [LawfulUserQueues κ υ Q]
  {c c' : ReadingClient κ υ Q γ} {pending : υ → Pending κ}

/-- The server does not agree with the view that a read listens to, and the client is not known to
be offline. -/
def Waits (c : ReadingClient κ υ Q γ) (n : ℕ) : Prop :=
  ∃ key queryView, c.home n = some key ∧ c.queryViews.lookup key = some queryView ∧
    queryView.view.syncState = .localOnly ∧ c.eventManager.onlineState ≠ .offline

omit [DecidableEq υ] in
/-- **No read is forgotten.** -/
theorem Invariant.accounted (h : c.Invariant pending) {n : ℕ} (hbegun : c.begun ≤ n)
    (hlength : n < c.reads.length) :
    n ∈ c.answered.map Prod.fst ∨ eventsOf n c.userQueue ≠ [] ∨ c.Waits n := by
  rcases h.tracked.accounted n hbegun hlength with hanswered | hevents | ⟨l, hl, hwaits⟩
  · exact Or.inl (of_decide_eq_true hanswered)
  · exact Or.inr (Or.inl hevents)
  · obtain ⟨s, ⟨key, queryView, hhome, hview, hsnapshot⟩, hknows, hoptions⟩ := h.following.knows hl
    have hnot := hknows.waits hwaits
    rw [Bool.eq_false_iff, Ne, shouldRaiseInitialEvent_iff hoptions, not_or] at hnot
    refine Or.inr (Or.inr ⟨key, queryView, hhome, hview, ?_, hnot.2⟩)
    have hcache := hsnapshot.fromCache
    rw [Bool.eq_true_of_not_eq_false hnot.1, eq_comm, decide_eq_true_iff] at hcache
    exact hcache

omit [DecidableEq υ] [MutationQueue κ Q] [UserQueues υ Q] [LawfulUserQueues κ υ Q] in
theorem deliver_frame (h : c.deliver = some c') :
    c'.client = c.client ∧ c.userQueue.length = c'.userQueue.length + 1 ∧
      c'.eventManager = c.eventManager ∧ c'.reads = c.reads ∧ c'.begun = c.begun := by
  unfold deliver at h
  split at h
  · cases h
  · rename_i n event userQueue hqueue
    rw [hqueue]
    dsimp only at h
    split at h
    · cases h
      exact ⟨rfl, rfl, rfl, rfl, rfl⟩
    · split at h
      · cases h
        exact ⟨rfl, rfl, rfl, rfl, rfl⟩
      · split at h
        · cases h
        · obtain ⟨key, -, rfl⟩ := Option.map_eq_some_iff.mp h
          exact ⟨rfl, rfl, rfl, rfl, rfl⟩

omit [DecidableEq υ] [MutationQueue κ Q] [UserQueues υ Q] [LawfulUserQueues κ υ Q] in
theorem applyChangedOnlineState_frame {state : OnlineState}
    (h : c.applyChangedOnlineState state = some c') :
    c'.eventManager.onlineState = state ∧ c'.reads = c.reads ∧ c'.begun = c.begun := by
  obtain ⟨c₁, hadvance, rfl⟩ := Option.map_eq_some_iff.mp h
  obtain ⟨told, -, rfl⟩ := Option.map_eq_some_iff.mp hadvance
  exact ⟨rfl, rfl, rfl⟩

/-- The client is offline, and reads what it has read before. -/
def OfflineSince (c c' : ReadingClient κ υ Q γ) : Prop :=
  (∃ pending, c'.Invariant pending) ∧ c'.eventManager.onlineState = .offline ∧
    c'.reads = c.reads ∧ c'.begun = c.begun

/-- **A client that is offline answers every read** as soon as the queue of the user has run. -/
theorem Invariant.exists_deliveries (h : c.Invariant pending)
    (hoffline : c.eventManager.onlineState = .offline) :
    ∃ deliveries c', (∀ e ∈ deliveries, e = .deliver) ∧ Permitted step Enabled c deliveries ∧
      run step c deliveries = some c' ∧ c'.reads = c.reads ∧
      ∀ n, c.begun ≤ n → n < c.reads.length → n ∈ c'.answered.map Prod.fst := by
  -- the rank is the length of the queue
  obtain ⟨deliveries, c', -, hdeliveries, hpermitted, hrun, hempty, ⟨pending', hinvariant⟩, honline,
      hreads, hbegun⟩ : ∃ deliveries c', deliveries.length ≤ c.userQueue.length ∧
        (∀ e ∈ deliveries, e = .deliver) ∧ Permitted step Enabled c deliveries ∧
        run step c deliveries = some c' ∧ c'.userQueue = [] ∧ c.OfflineSince c' := by
    refine exists_run_of_rank (I := fun c' n => c'.userQueue.length = n ∧ c.OfflineSince c') ?_
      ⟨rfl, ⟨pending, h⟩, hoffline, rfl, rfl⟩
    rintro c₁ n ⟨hlength, ⟨pending₁, hinvariant⟩, honline, hreads, hbegun⟩
    by_cases hempty : c₁.userQueue = []
    · exact Or.inl ⟨hempty, ⟨pending₁, hinvariant⟩, honline, hreads, hbegun⟩
    · obtain ⟨c₂, hdeliver, hinvariant₂, -⟩ := deliver_safe hinvariant hempty
      obtain ⟨-, hlength₂, hmanager, hreads₂, hbegun₂⟩ := deliver_frame hdeliver
      refine Or.inr ⟨.deliver, c₂, c₂.userQueue.length, rfl, hempty, hdeliver, ?_, rfl,
        ⟨pending₁, hinvariant₂⟩, hmanager ▸ honline, hreads₂.trans hreads, hbegun₂.trans hbegun⟩
      omega
  refine ⟨deliveries, c', hdeliveries, hpermitted, hrun, hreads, fun n hn hlength => ?_⟩
  rcases hinvariant.accounted (hbegun ▸ hn) (hreads ▸ hlength) with hanswered | hevents | hwaits
  · exact hanswered
  · rw [hempty] at hevents
    exact absurd rfl hevents
  · obtain ⟨key, queryView, -, -, -, hnot⟩ := hwaits
    exact absurd honline hnot

end Finish

/-! ## Results about runs -/

/-- A document is read, the server sends it, and the read is answered; it is read again while the
client is offline, after a write. -/
def readTwice : List (ReadingEvent ℕ String ℕ) :=
  [.client (.launch "a"), .getDocument 0,
   .remoteEvent 3 (SortedMap.empty.insert 0 (.document (fun _ => none) 3 false))
     (SortedMap.empty.insert 2 ⟨.update {0} ∅, .markCurrent⟩),
   .deliver, .removeListener, .applyChangedOnlineState .offline,
   .client (.writeMutations [.delete 0 .none] 10), .getDocument 0, .deliver, .removeListener]

theorem permitted_readTwice : Permitted step Enabled
    (init "a" : ReadingClient ℕ String (LevelDBMutationQueue ℕ) ℕ) readTwice := by
  decide +kernel

/-- **A read is answered at most once**, and as long as its process runs it is answered, or its
answer is on its way, or it waits for the server. -/
theorem reads_accounted (h : Permitted step Enabled
      (init userID : ReadingClient κ String (LevelDBMutationQueue κ) γ) es) :
    ∃ c : ReadingClient κ String (LevelDBMutationQueue κ) γ, run step (init userID) es = some c ∧
      (c.answered.map Prod.fst).Nodup ∧ ∀ n, c.begun ≤ n → n < c.reads.length →
        n ∈ c.answered.map Prod.fst ∨ eventsOf n c.userQueue ≠ [] ∨ c.Waits n := by
  obtain ⟨c, pending, hrun, hinvariant, hexplained⟩ := exists_reached h
  exact ⟨c, hrun, hexplained.once, fun n => hinvariant.accounted⟩

theorem reads_accounted_readTwice :
    ∃ c : ReadingClient ℕ String (LevelDBMutationQueue ℕ) ℕ, run step (init "a") readTwice = some c ∧
      (c.answered.map Prod.fst).Nodup ∧ ∀ n, c.begun ≤ n → n < c.reads.length →
        n ∈ c.answered.map Prod.fst ∨ eventsOf n c.userQueue ≠ [] ∨ c.Waits n :=
  reads_accounted permitted_readTwice

/-- **Going offline answers every read** of the process: from every state that a run reaches, it is
enough that the client learns it is offline and that the queue of the user runs. -/
theorem reads_finish (h : Permitted step Enabled
      (init userID : ReadingClient κ String (LevelDBMutationQueue κ) γ) es) :
    ∃ c : ReadingClient κ String (LevelDBMutationQueue κ) γ, run step (init userID) es = some c ∧
      ∃ deliveries c', (∀ e ∈ deliveries, e = .deliver) ∧
        Permitted step Enabled c (.applyChangedOnlineState .offline :: deliveries) ∧
        run step c (.applyChangedOnlineState .offline :: deliveries) = some c' ∧
        c'.reads = c.reads ∧
        ∀ n, c.begun ≤ n → n < c.reads.length → n ∈ c'.answered.map Prod.fst := by
  obtain ⟨c, pending, hrun, hinvariant, -⟩ := exists_reached h
  obtain ⟨c₁, hoffline, hinvariant₁, -⟩ := applyChangedOnlineState_safe hinvariant .offline
  obtain ⟨honline, hreads₁, hbegun₁⟩ := applyChangedOnlineState_frame hoffline
  obtain ⟨deliveries, c', hdeliveries, hpermitted, hdelivered, hreads, hanswered⟩ :=
    hinvariant₁.exists_deliveries honline
  refine ⟨c, hrun, deliveries, c', hdeliveries, ⟨trivial, fun c₂ hstep => ?_⟩,
    run_cons_eq_some.mpr ⟨c₁, hoffline, hdelivered⟩, hreads.trans hreads₁, ?_⟩
  · cases (show some c₁ = some c₂ from hoffline.symm.trans hstep)
    exact hpermitted
  · rw [← hreads₁, ← hbegun₁]
    exact hanswered

theorem reads_finish_readTwice :
    ∃ c : ReadingClient ℕ String (LevelDBMutationQueue ℕ) ℕ, run step (init "a") readTwice = some c ∧
      ∃ deliveries c', (∀ e ∈ deliveries, e = .deliver) ∧
        Permitted step Enabled c (.applyChangedOnlineState .offline :: deliveries) ∧
        run step c (.applyChangedOnlineState .offline :: deliveries) = some c' ∧
        c'.reads = c.reads ∧
        ∀ n, c.begun ≤ n → n < c.reads.length → n ∈ c'.answered.map Prod.fst :=
  reads_finish permitted_readTwice

end ReadingClient

end CocoMap
