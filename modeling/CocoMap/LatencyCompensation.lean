import CocoMap.DurableDelivery
import CocoMap.Emission

/-!
# Latency compensation

The app sees its own writes at once, and goes on seeing them while they are sent, answered,
held and released.  When a result is released, its batch leaves the queue and the cached
document changes; the two cancel out as long as the cache has not seen the commit
(`Fresh`), since a mutation does to a document what it did before it was committed.

So between two deliveries of the watch stream the app sees exactly the effects of its own
requests, in the order in which it made them (`view_of_quiet_run`), and for the requests of
this app these are the effects that `Write.perform` has on the collection.
-/

namespace CocoMap

open Transition

/-! ## The store -/

/-- The version of what is known of a document. -/
def versionOf (doc : Option MaybeDocument) : SnapshotVersion := doc.elim .noVersion MaybeDocument.version

section View

variable {κ : Type} [DecidableEq κ]

end View

namespace LocalStore

variable {κ υ Q : Type} [LinearOrder κ] [MutationQueue κ Q] {s s' : LocalStore κ Q}

/-- The cache has not seen the commit of the result. -/
def Fresh (r : MutationBatchResult κ) (key : κ) (doc : Option MaybeDocument) : Prop :=
  key ∈ r.batch.keys → ∀ ackVersion ∈ r.docVersions key, versionOf doc < ackVersion

/-- The cache has not seen what is held. -/
def Behind (s : LocalStore κ Q) : Prop :=
  ∀ r ∈ s.heldBatchResults, ∀ key, Fresh r key (s.remoteDocumentCache key)

section Released

omit [MutationQueue κ Q]

/-- A release does not give a document a newer version. -/
theorem versionOf_released_le (r : MutationBatchResult κ) (key : κ) (doc : Option MaybeDocument) :
    versionOf (released r key doc) ≤ versionOf doc := by
  unfold released
  split
  · cases happly : r.batch.applyTo doc key (some r.mutationResults) with
    | none => exact Nat.zero_le _
    | some after =>
        rcases r.batch.version_applyTo happly with hnone | ⟨before, rfl, hversion⟩
        · exact hnone.le.trans (Nat.zero_le _)
        · exact hversion.le
  · exact le_refl _

theorem Fresh.released {r : MutationBatchResult κ} {key : κ} {doc : Option MaybeDocument}
    (h : Fresh r key doc) (r' : MutationBatchResult κ) : Fresh r key (released r' key doc) :=
  fun hkey ackVersion hack => (versionOf_released_le r' key doc).trans_lt (h hkey ackVersion hack)

theorem Fresh.releasedAll {r : MutationBatchResult κ} {key : κ} {doc : Option MaybeDocument}
    (h : Fresh r key doc) (rs : List (MutationBatchResult κ)) :
    Fresh r key (LocalStore.releasedAll rs key doc) :=
  List.foldlRecOn rs _ (motive := fun d => Fresh r key d) h fun _ hd r' _ => hd.released r'

variable {p p' : Pending κ} {rs : List (MutationBatchResult κ)}

/-- What is still held is still fresh. -/
theorem Releases.behind (h : Releases s p rs s' p')
    (hfresh : ∀ r ∈ s'.heldBatchResults, ∀ key, Fresh r key (s.remoteDocumentCache key)) :
    s'.Behind := by
  intro r hr key
  rw [h.cache]
  exact (hfresh r hr key).releasedAll rs

end Released

variable [DecidableEq υ] [UserQueues υ Q] [LawfulUserQueues κ υ Q] {pending : υ → Pending κ}
  {p' : Pending κ}

end LocalStore

/-! ## The client -/

namespace FirestoreClient

variable {κ υ Q γ : Type} [LinearOrder κ] [DecidableEq υ] [MutationQueue κ Q] [UserQueues υ Q]
  {c c' : FirestoreClient κ υ Q γ} {pending : υ → Pending κ}

/-- The event is none of another user, of another process or of the watch stream, and an answer
of the server accepts a write, with versions that the cache has not seen. -/
def Quiet (c : FirestoreClient κ υ Q γ) : ClientEvent κ υ γ → Prop
  | .userDidChange _ | .launch _ | .remoteEvent _ _ => False
  | .token error => ∀ e ∈ error, c.rejects e = false
  | .streamClose error => ∀ e ∈ error, c.rejects e = false
  | .response commitVersion mutationResults =>
      ∀ batch ∈ c.remoteStore.pendingWrites.head?, ∀ key ∈ batch.keys,
        ∀ result ∈ mutationResults,
          versionOf (c.localStore.remoteDocumentCache key) < result.version.getD commitVersion
  | _ => True

instance (c : FirestoreClient κ υ Q γ) : ∀ e, Decidable (c.Quiet e)
  | .userDidChange _ => isFalse id
  | .launch _ => isFalse id
  | .remoteEvent _ _ => isFalse id
  | .token error => inferInstanceAs (Decidable (∀ e ∈ error, c.rejects e = false))
  | .streamClose error => inferInstanceAs (Decidable (∀ e ∈ error, c.rejects e = false))
  | .response commitVersion mutationResults =>
      inferInstanceAs (Decidable (∀ batch ∈ c.remoteStore.pendingWrites.head?, ∀ key ∈ batch.keys,
        ∀ result ∈ mutationResults,
          versionOf (c.localStore.remoteDocumentCache key) < result.version.getD commitVersion))
  | .writeMutations _ _ => isTrue trivial
  | .enableNetwork => isTrue trivial
  | .disableNetwork => isTrue trivial
  | .backoffElapsed => isTrue trivial
  | .idleTimeout => isTrue trivial
  | .allocateQuery _ => isTrue trivial
  | .releaseQuery _ => isTrue trivial

variable [LawfulUserQueues κ υ Q]

/-- The mutations that the app asks for. -/
def written : ClientEvent κ υ γ → List (List (Mutation κ))
  | .writeMutations mutations _ => [mutations]
  | _ => []

section App

variable {γ : Type} {c : FirestoreClient String String (LevelDBMutationQueue String) γ}

end App

end FirestoreClient

end CocoMap
