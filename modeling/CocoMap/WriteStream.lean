import CocoMap.Mutation

/-!
# The write stream

`FSTWriteStream` is the client's end of the Write RPC.  It gets an auth token, opens the
RPC, sends a handshake and, when the server has answered it, the mutations of one batch
after another.  It closes when the RPC ends, when it has been idle for a while, or when it
is stopped; after an error the next start backs off.

The server answers the requests of an RPC in their order; `rpc` has those it has not
answered.  `Shape` says in which states a stream can be while the writes of a list are
pending.

The stream token, the length of the back-off and its jitter, and the clock of the idle
timer are left out.
-/

namespace CocoMap

/-- `FIRFirestoreErrorCode` -/
inductive FirestoreErrorCode
  | ok | cancelled | unknown | invalidArgument | deadlineExceeded | notFound | alreadyExists
  | permissionDenied | resourceExhausted | failedPrecondition | aborted | outOfRange
  | unimplemented | internal | unavailable | dataLoss | unauthenticated
deriving DecidableEq

/-- `isPermanentWriteError:` — the request itself is the problem. -/
def FirestoreErrorCode.isPermanentWriteError : FirestoreErrorCode → Bool
  | .cancelled | .unknown | .deadlineExceeded | .resourceExhausted | .internal | .unavailable
  -- Unauthenticated means something went wrong with our token and we need to retry with new
  -- credentials which will happen automatically.
  | .unauthenticated => false
  | _ => true

/-- `FSTStreamState` -/
inductive StreamState
  | initial | auth | opened | error | backoff | stopped
deriving DecidableEq

/-- `GCFSWriteRequest` -/
inductive WriteRequest (κ : Type)
  | handshake
  | mutations (mutations : List (Mutation κ))

/-- The server's answer to a request has one result for each mutation. -/
def WriteRequest.AnsweredBy {κ : Type} (mutationResults : List MutationResult) :
    WriteRequest κ → Prop
  | .handshake => True
  | .mutations sent => mutationResults.length = sent.length

instance {κ : Type} (mutationResults : List MutationResult) :
    ∀ request : WriteRequest κ, Decidable (request.AnsweredBy mutationResults)
  | .handshake => isTrue trivial
  | .mutations sent => inferInstanceAs (Decidable (mutationResults.length = sent.length))

structure WriteStream (κ : Type) where
  state : StreamState
  handshakeComplete : Bool
  hasDelegate : Bool
  /-- The idle timer is running. -/
  idleTimer : Bool
  /-- The requests of the running RPC that the server has not answered, the oldest first. -/
  rpc : Option (List (WriteRequest κ))

namespace WriteStream

variable {κ : Type}

def init : WriteStream κ where
  state := .initial
  handshakeComplete := false
  hasDelegate := false
  idleTimer := false
  rpc := none

def isStarted (w : WriteStream κ) : Bool :=
  w.state = .backoff || w.state = .auth || w.state = .opened

def isOpen (w : WriteStream κ) : Bool := w.state = .opened

/-- Backs off after an error. -/
def performBackoff (w : WriteStream κ) : Option (WriteStream κ) := do
  guard (w.state = .error)
  return { w with state := .backoff }

def startWithDelegate (w : WriteStream κ) : Option (WriteStream κ) :=
  let w := { w with handshakeComplete := false }
  if w.state = .error then w.performBackoff
  else do
    -- Already started
    guard (w.state = .initial)
    -- Delegate must be nil
    guard (!w.hasDelegate)
    return { w with state := .auth, hasDelegate := true }

/-- Resumes stream start after backing off. -/
def resumeStartFromBackoff (w : WriteStream κ) : Option (WriteStream κ) :=
  if w.state = .stopped then some w
  else do
    guard (w.state = .backoff)
    -- Momentarily set state to initial as `start` expects it.
    let w ← { w with state := .initial }.startWithDelegate
    guard w.isStarted
    return w

def cancelIdleCheck (w : WriteStream κ) : WriteStream κ := { w with idleTimer := false }

def writeRequest (w : WriteStream κ) (request : WriteRequest κ) : WriteStream κ :=
  let w := w.cancelIdleCheck
  { w with rpc := w.rpc.map fun requests => requests ++ [request] }

def writeHandshake (w : WriteStream κ) : Option (WriteStream κ) := do
  guard w.isOpen
  -- Handshake sent out of turn
  guard (!w.handshakeComplete)
  return w.writeRequest .handshake

def writeMutations (w : WriteStream κ) (mutations : List (Mutation κ)) : Option (WriteStream κ) := do
  guard w.isOpen
  -- Mutations sent out of turn
  guard w.handshakeComplete
  return w.writeRequest (.mutations mutations)

/-- Starts the idle timer if the stream is open and the timer is not yet running. -/
def markIdle (w : WriteStream κ) : WriteStream κ :=
  if w.isOpen && !w.idleTimer then { w with idleTimer := true } else w

def inhibitBackoff (w : WriteStream κ) : Option (WriteStream κ) := do
  -- Can only inhibit backoff after an error
  guard (!w.isStarted)
  return { w with state := .initial }

/-- An empty write request indicates imminent stream closure. -/
def tearDown (w : WriteStream κ) : Option (WriteStream κ) :=
  if w.handshakeComplete then w.writeMutations [] else some w

/-- Closes the stream.  The error comes back if there is a delegate to be told of it. -/
def closeWithFinalState (w : WriteStream κ) (finalState : StreamState)
    (error : Option FirestoreErrorCode) :
    Option (WriteStream κ × Option (Option FirestoreErrorCode)) := do
  -- Can't provide an error when not in an error state.
  guard (finalState = .error ∨ error = none)
  let w := w.cancelIdleCheck
  let w ← if finalState = .error then some w else w.tearDown
  let w := { w with rpc := none, state := finalState }
  -- If the caller explicitly requested a stream stop, don't notify them of a closing stream.
  if finalState = .stopped then return (w, none)
  else return ({ w with hasDelegate := false }, if w.hasDelegate then some error else none)

def stop (w : WriteStream κ) : Option (WriteStream κ) :=
  if w.isStarted then (w.closeWithFinalState .stopped none).map Prod.fst else some w

/-- When timing out an idle stream there's no reason to force it into backoff when it
restarts. -/
def handleIdleCloseTimer (w : WriteStream κ) :
    Option (WriteStream κ × Option (Option FirestoreErrorCode)) :=
  if w.isOpen then w.closeWithFinalState .initial none else some (w, none)

/-- The underlying RPC has been closed for whatever reason. -/
def handleStreamClose (w : WriteStream κ) (error : Option FirestoreErrorCode) :
    Option (WriteStream κ × Option (Option FirestoreErrorCode)) := do
  guard w.isStarted
  w.closeWithFinalState .error error

/-- `resumeStartWithToken:` with a token: the RPC is started.  The delegate is to be told that
the stream is open, unless it was stopped in the meantime. -/
def resumeStartWithToken (w : WriteStream κ) : Option (WriteStream κ × Bool) :=
  if w.state = .stopped then some (w, false)
  else do
    guard (w.state = .auth)
    -- GRX Filter must be nil
    guard w.rpc.isNone
    return ({ w with rpc := some [], state := .opened }, w.hasDelegate)

/-! ## The states of a stream -/

/-- The states of a stream that has to deliver the batches of a list. -/
inductive Shape : WriteStream κ → List (MutationBatch κ) → Prop
  | closed (state : StreamState) (handshakeComplete : Bool) (pending : List (MutationBatch κ))
      (h : state = .initial ∨ state = .error) :
      Shape ⟨state, handshakeComplete, false, false, none⟩ pending
  | starting {pending : List (MutationBatch κ)} (h : pending ≠ []) :
      Shape ⟨.auth, false, true, false, none⟩ pending
  | waiting {pending : List (MutationBatch κ)} (h : pending ≠ []) :
      Shape ⟨.backoff, false, false, false, none⟩ pending
  | handshaking {pending : List (MutationBatch κ)} (h : pending ≠ []) :
      Shape ⟨.opened, false, true, false, some [.handshake]⟩ pending
  | flowing (idleTimer : Bool) (pending : List (MutationBatch κ))
      (h : idleTimer = true → pending = []) :
      Shape ⟨.opened, true, true, idleTimer,
        some (pending.map fun b => .mutations b.mutations)⟩ pending

/-- Moreover the stream is running if there is anything to deliver, and about to be closed if
it is open and there is not. -/
structure Settled (w : WriteStream κ) (pending : List (MutationBatch κ)) : Prop where
  shape : Shape w pending
  running : pending ≠ [] → w.isStarted = true
  idle : pending = [] → w.isOpen = true → w.idleTimer = true

variable {w : WriteStream κ} {pending : List (MutationBatch κ)}

theorem settled_init : Settled (init : WriteStream κ) [] where
  shape := .closed .initial false [] (Or.inl rfl)
  running h := absurd rfl h
  idle _ h := absurd h Bool.false_ne_true

/-- A closed stream is started. -/
theorem Shape.start (h : Shape w pending) (hclosed : w.isStarted = false) (hne : pending ≠ []) :
    ∃ w', w.startWithDelegate = some w' ∧ Settled w' pending := by
  cases h with
  | closed state handshakeComplete pending hstate =>
      rcases hstate with rfl | rfl
      · exact ⟨_, rfl, .starting hne, fun _ => rfl, fun hnil => absurd hnil hne⟩
      · exact ⟨_, rfl, .waiting hne, fun _ => rfl, fun hnil => absurd hnil hne⟩
  | _ => cases hclosed

/-- A batch is sent once the handshake is complete. -/
theorem Shape.writeMutations (h : Shape w pending) (hstarted : w.isStarted = true)
    (hcomplete : w.handshakeComplete = true) (batch : MutationBatch κ) :
    ∃ w', w.writeMutations batch.mutations = some w' ∧ Shape w' (pending ++ [batch]) ∧
      w'.isStarted = true := by
  cases h with
  | closed state handshakeComplete pending hstate =>
      rcases hstate with rfl | rfl <;> cases hstarted
  | flowing idleTimer pending hidle =>
      refine ⟨_, rfl, ?_, rfl⟩
      have hflowing := Shape.flowing false (pending ++ [batch]) fun h => absurd h Bool.false_ne_true
      rw [List.map_append] at hflowing
      exact hflowing
  | _ => cases hcomplete

/-- Before that it waits. -/
theorem Shape.wait (h : Shape w pending) (hstarted : w.isStarted = true)
    (hcomplete : w.handshakeComplete = false) (batch : MutationBatch κ) :
    Shape w (pending ++ [batch]) := by
  have hne : pending ++ [batch] ≠ [] := by simp
  cases h with
  | closed state handshakeComplete pending hstate =>
      rcases hstate with rfl | rfl <;> cases hstarted
  | starting => exact .starting hne
  | waiting => exact .waiting hne
  | handshaking => exact .handshaking hne
  | flowing => cases hcomplete

/-- An open stream without work starts its idle timer. -/
theorem Shape.markIdle (h : Shape w []) : Settled w.markIdle [] := by
  cases h with
  | closed state handshakeComplete pending hstate =>
      have hmark : (⟨state, handshakeComplete, false, false, none⟩ : WriteStream κ).markIdle =
          ⟨state, handshakeComplete, false, false, none⟩ := by rcases hstate with rfl | rfl <;> rfl
      rw [hmark]
      refine ⟨.closed _ _ _ hstate, fun h => absurd rfl h, fun _ hopen => ?_⟩
      rcases hstate with rfl | rfl <;> cases hopen
  | flowing idleTimer pending hidle =>
      refine ⟨?_, fun h => absurd rfl h, fun _ _ => ?_⟩
      · cases idleTimer
        · exact .flowing true [] fun _ => rfl
        · exact .flowing true [] fun _ => rfl
      · cases idleTimer <;> rfl
  | starting hne => exact absurd rfl hne
  | waiting hne => exact absurd rfl hne
  | handshaking hne => exact absurd rfl hne

/-! ## What happens to a stream -/

/-- The back-off is over. -/
theorem Shape.resumeStartFromBackoff (h : Shape w pending) (hstate : w.state = .backoff) :
    ∃ w', w.resumeStartFromBackoff = some w' ∧ Settled w' pending := by
  cases h with
  | closed state handshakeComplete pending hclosed =>
      obtain rfl : state = .backoff := hstate
      rcases hclosed with h | h <;> cases h
  | waiting hne => exact ⟨_, rfl, .starting hne, fun _ => rfl, fun hnil => absurd hnil hne⟩
  | _ => cases hstate

/-- The token arrives: the RPC starts, and the handshake is sent. -/
theorem Shape.resumeStartWithToken (h : Shape w pending) (hstate : w.state = .auth) :
    ∃ w₁ w', w.resumeStartWithToken = some (w₁, true) ∧ w₁.writeHandshake = some w' ∧
      Settled w' pending := by
  cases h with
  | closed state handshakeComplete pending hclosed =>
      obtain rfl : state = .auth := hstate
      rcases hclosed with h | h <;> cases h
  | starting hne =>
      exact ⟨_, _, rfl, rfl, .handshaking hne, fun _ => rfl, fun hnil => absurd hnil hne⟩
  | _ => cases hstate

/-- A stream that waits for a token or has an RPC has a delegate. -/
theorem Shape.hasDelegate (h : Shape w pending) (hwaits : w.state = .auth ∨ w.rpc ≠ none) :
    w.hasDelegate = true := by
  cases h with
  | closed state handshakeComplete pending hclosed =>
      rcases hclosed with rfl | rfl <;> rcases hwaits with hauth | hrpc
      · cases hauth
      · exact absurd rfl hrpc
      · cases hauth
      · exact absurd rfl hrpc
  | waiting =>
      rcases hwaits with hauth | hrpc
      · cases hauth
      · exact absurd rfl hrpc
  | _ => rfl

/-- The RPC ends, or there is no token: the delegate is told. -/
theorem Shape.handleStreamClose (h : Shape w pending) (hdelegate : w.hasDelegate = true)
    (error : Option FirestoreErrorCode) :
    w.handleStreamClose error =
      some (⟨.error, w.handshakeComplete, false, false, none⟩, some error) := by
  cases h with
  | closed => cases hdelegate
  | waiting => cases hdelegate
  | _ => rfl

/-- The idle timer fires: there is nothing to deliver. -/
theorem Shape.handleIdleCloseTimer (h : Shape w pending) (hidle : w.idleTimer = true) :
    pending = [] ∧
      w.handleIdleCloseTimer =
        some (⟨.initial, w.handshakeComplete, false, false, none⟩, some none) := by
  cases h with
  | flowing idleTimer pending htimer => exact ⟨htimer hidle, rfl⟩
  | _ => cases hidle

/-- A stream can be stopped at any time. -/
theorem Shape.stop (h : Shape w pending) : ∃ w', w.stop = some w' := by
  cases h with
  | closed state handshakeComplete pending hstate =>
      rcases hstate with rfl | rfl <;> exact ⟨_, rfl⟩
  | _ => exact ⟨_, rfl⟩

/-- Batches are sent after those sent before. -/
theorem foldlM_writeMutations (pending sent : List (MutationBatch κ)) (idleTimer : Bool) :
    pending.foldlM (fun w batch => WriteStream.writeMutations w batch.mutations)
        ⟨.opened, true, true, idleTimer, some (sent.map fun b => .mutations b.mutations)⟩ =
      some ⟨.opened, true, true, idleTimer && pending.isEmpty,
        some ((sent ++ pending).map fun b => .mutations b.mutations)⟩ := by
  induction pending generalizing sent idleTimer with
  | nil => rw [List.append_nil, List.isEmpty_nil, Bool.and_true]; rfl
  | cons batch pending ih =>
      have hstep : WriteStream.writeMutations ⟨.opened, true, true, idleTimer,
            some (sent.map fun b => .mutations b.mutations)⟩ batch.mutations =
          some ⟨.opened, true, true, false,
            some ((sent ++ [batch]).map fun b => .mutations b.mutations)⟩ := by
        rw [List.map_append]
        rfl
      rw [List.foldlM_cons, hstep, Option.bind_eq_bind, Option.bind_some, ih, List.append_assoc,
        List.isEmpty_cons, Bool.and_false, Bool.false_and]
      rfl

end WriteStream

end CocoMap
