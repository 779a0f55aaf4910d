import Anyonce.Engine.Settlement
import Anyonce.Go.Settlement

/-!
# Failing user code and the claim it runs under

User code runs at two places between `begin` and the settlement: the handler, and the `storeResult`
predicate.  A failing handler is caught in both languages and its claim is abandoned.  A failing
predicate is caught in neither: in TypeScript it stands outside every `try`, in Go it runs in
`Execute`, which recovers only hooks, while the door recovers only inside the run callback.

`claim_settled_iff` says that this is the only way a granted claim stays unsettled, and
`predicate_failure_leaves_claim` that it happens.
-/

namespace Anyonce

open Interaction

/-- **A granted claim is settled exactly when the predicate does not fail on the handler's result.**
In every run of the TypeScript engine and of the Go door, for every store, hook and clock. -/
theorem claim_settled_iff (E V : Type) (policy : PolicyConfig) (door : Go.DoorConfig) :
    (∀ (op : Operation) (t : List (EngineEvent E)) (out : Except E (ExecuteResult E)),
        Runs (executeCalls op policy) t out →
        ∀ u : UserCode E, u.Answers t → ∀ fence, Acquired t op fence →
          ((op, fence) ∈ settlements t ↔ ¬ u.PredicateFails fence))
      ∧ ∀ (op : Go.Operation) (t : List (Go.DoorEvent V)) (out : Except V Unit),
        Runs (Go.doorCalls door op) t out →
        ∀ u : Go.UserCode V, u.Answers t → ∀ fence, Go.Acquired t op fence →
          (Go.Settled t op fence ↔ ¬ u.PredicateFails door fence) :=
  ⟨fun _ _ _ h _ hu _ ha => execute_settles_iff h hu ha,
    fun _ _ _ h _ hu _ ha => Go.door_settles_iff h hu ha⟩

/-! ## Failing runs -/

/-- An operation of each language. -/
def exportOp : Operation := ⟨js "POST /exports", js "k1", js "p"⟩

def Go.exportOp : Go.Operation := ⟨ascii "POST /exports", ascii "k1", ascii "p"⟩

/-- The defaults of both languages, with a predicate set in Go. -/
def plainPolicy : PolicyConfig := ⟨30000, 86400000, 1048576, .FailClosed, none, false⟩

def Go.plainDoor : Go.DoorConfig where
  name := ascii "httpmw"
  lease := 0
  ttl := 0
  maxResultBytes := 0
  onStoreErrorMode := .Unset
  storeResult := true

/-- A handler that fails: the claim is abandoned before the failure leaves. -/
def failedHandler : List (EngineEvent Unit) :=
  opening exportOp plainPolicy 0 (.ok (.Acquired 3))
    ++ [⟨.Run 3, .error ()⟩, ⟨.Abandon exportOp 3, .ok .Ok⟩]

def Go.panickedHandler : List (Go.DoorEvent Unit) :=
  [⟨.CtxErr, none⟩, ⟨.Now, 0⟩,
    ⟨.Begin .Caller exportOp ⟨defaultLease, defaultTtl, 0⟩, .ok (.Acquired 3)⟩,
    ⟨.Serve 3, .Panicked ()⟩, ⟨.Abandon .Bookkeeping exportOp 3, .ok .Ok⟩]

theorem claim_settled_iff_failedHandler :
    (exportOp, 3) ∈ settlements failedHandler
      ∧ Go.Settled Go.panickedHandler Go.exportOp 3 := by
  have hlaw := claim_settled_iff Unit Unit plainPolicy Go.plainDoor
  refine ⟨(hlaw.1 exportOp failedHandler (.error ()) ?_
      ⟨fun _ => .error (), fun _ => .ok true⟩ ?_ 3 ?_).mpr ?_,
    (hlaw.2 Go.exportOp Go.panickedHandler (.error ()) ?_
      ⟨fun _ => .Panicked (), fun _ => .ok true⟩ ?_ 3 ?_).mpr ?_⟩
  · have hpath : Path exportOp plainPolicy failedHandler (.error ()) := Path.threw 0 3 () (.ok .Ok)
    exact path_execute hpath
  · simp [UserCode.Answers, failedHandler, opening]
  · exact ⟨_, by simp [failedHandler, opening]; rfl⟩
  · simp [UserCode.PredicateFails]
  · refine Steps.call _ ?_
    refine Steps.call _ ?_
    refine Steps.call _ ?_
    refine Steps.call _ ?_
    refine Steps.call _ ?_
    exact Steps.refl _
  · simp [Go.UserCode.Answers, Go.panickedHandler]
  · exact ⟨_, _, by simp [Go.panickedHandler]; exact ⟨rfl, rfl⟩⟩
  · simp [Go.UserCode.PredicateFails]

/-- A predicate that fails on a result the handler returned. -/
def failedPredicate (result : StoredResult) : List (EngineEvent Unit) :=
  opening exportOp plainPolicy 0 (.ok (.Acquired 3))
    ++ [⟨.Run 3, .ok result⟩, ⟨.StoreResult result, .error ()⟩]

def Go.panickedPredicate (result : Go.StoredResult) : List (Go.DoorEvent Unit) :=
  [⟨.CtxErr, none⟩, ⟨.Now, 0⟩,
    ⟨.Begin .Caller exportOp ⟨defaultLease, defaultTtl, 0⟩, .ok (.Acquired 3)⟩,
    ⟨.Serve 3, .Wrote result⟩, ⟨.StoreResult result, .error ()⟩]

/-- **A failing predicate leaves the claim unsettled**, in both languages. -/
theorem predicate_failure_leaves_claim :
    (¬ ∀ (op : Operation) (cfg : PolicyConfig) (t : List (EngineEvent Unit))
        (out : Except Unit (ExecuteResult Unit)), Runs (executeCalls op cfg) t out →
        ∀ fence, Acquired t op fence → (op, fence) ∈ settlements t)
      ∧ ¬ ∀ (op : Go.Operation) (cfg : Go.DoorConfig) (t : List (Go.DoorEvent Unit))
        (out : Except Unit Unit), Runs (Go.doorCalls cfg op) t out →
        ∀ fence, Go.Acquired t op fence → Go.Settled t op fence := by
  constructor
  · intro hall
    have hpath : Path exportOp plainPolicy
        (failedPredicate { kind := .Http, status := some 201 }) (.error ()) :=
      Path.predicateThrew 0 3 _ ()
    have hset := hall exportOp plainPolicy _ _ (path_execute hpath) 3
      ⟨_, by simp [failedPredicate, opening]; rfl⟩
    simp [failedPredicate, opening, settlements, EngineCall.settles] at hset
  · intro hall
    have hrun : Runs (Go.doorCalls Go.plainDoor Go.exportOp)
        (Go.panickedPredicate { kind := .Http, status := 201 }) (.error ()) := by
      refine Steps.call _ ?_
      refine Steps.call _ ?_
      refine Steps.call _ ?_
      refine Steps.call _ ?_
      refine Steps.call _ ?_
      exact Steps.refl _
    have hset := hall Go.exportOp Go.plainDoor _ _ hrun 3
      ⟨_, _, by simp [Go.panickedPredicate]; exact ⟨rfl, rfl⟩⟩
    simp [Go.panickedPredicate, Go.Settled] at hset

end Anyonce
