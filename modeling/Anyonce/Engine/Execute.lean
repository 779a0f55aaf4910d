import Anyonce.Core.Program
import Anyonce.Types

/-!
# The engine

`execute` of `packages/core/src/engine.ts`.  The store, the handler and the functions of the policy
are parameters, in whatever monad they live.  An operation that may throw returns an `Except`, and a
`try`/`catch` is a `match` on it; `clock` is a function to a number and returns one.

`executeCalls` is the same engine over an environment that has been told nothing: every store call,
every handler run, every predicate and every hook is a command that may be answered in any way its
type admits, thrown values included.  A statement about all runs of `executeCalls` is a statement
about every store, handler, predicate, clock and set of hooks.
-/

namespace Anyonce

open Interaction

/-! ## The interfaces -/

section

variable (m : Type → Type) (E : Type)

/-- The store methods the engine calls. -/
structure Store where
  begin : Operation → BeginOptions → m (Except E (BeginOutcome IdempotencyRecord))
  complete : Operation → ℤ → Completion → ℤ → m (Except E CompleteStatus)
  abandon : Operation → ℤ → m (Except E CompleteStatus)

/-- The hooks of `ExecuteHooks`.  Each may be absent, and each runs user code. -/
structure ExecuteHooks where
  onAcquired : Option (Operation → m (Except E Unit)) := none
  onReplayed : Option (Operation → IdempotencyRecord → m (Except E Unit)) := none
  onConflict : Option (Operation → ℤ → m (Except E Unit)) := none
  onMismatch : Option (Operation → IdempotencyRecord → m (Except E Unit)) := none
  onStoreError : Option (Operation → E → m (Except E Unit)) := none

/-- What happens when `begin` fails: the request is refused, or the handler runs without a claim. -/
inductive StoreErrorMode
  | FailClosed
  | FailOpen
  deriving DecidableEq

/-- `hookErrors` is the increment of the counter, when there is one. -/
structure ExecutePolicy where
  leaseMs : ℤ
  ttlMs : ℤ
  maxResultBytes : ℤ
  storeResult : StoredResult → m (Except E Bool)
  onStoreError : StoreErrorMode
  clock : m ℤ
  hooks : Option (ExecuteHooks m E) := none
  hookErrors : Option (m Unit) := none

end

/-- What `execute` returns: a replay, a refusal, or what the handler returned. -/
inductive ExecuteResult (E : Type)
  | Executed (result : StoredResult) (stored : Bool)
  | Replayed (record : IdempotencyRecord)
  | Conflict (leaseUntil : ℤ)
  | Mismatch (record : IdempotencyRecord)
  | StoreError (error : E)

/-- The cap bounds stored bodies; headers are allowlisted and small. -/
def resultSize (result : StoredResult) : ℕ := (result.body.map List.length).getD 0

/-- The omitted form keeps status and headers so a replay can reproduce them. -/
def omitBody (result : StoredResult) : OmittedResult :=
  ⟨result.kind, result.status, result.headers⟩

/-- What `complete` is given: the result, or its omitted form when it is over the cap. -/
def payloadOf (maxResultBytes : ℤ) (result : StoredResult) : Completion :=
  if (resultSize result : ℤ) > maxResultBytes then .Omitted (omitBody result) else .Stored result

/-! ## The engine itself -/

section

variable {m : Type → Type} [Monad m] {E : Type}

/-- Call a hook that may not be installed. -/
def fire (hook : Option (m (Except E Unit))) : m (Except E Unit) :=
  match hook with
  | none => pure (.ok ())
  | some call => call

/-- Run a hook call; a throwing hook is counted and goes no further. -/
def safely (policy : ExecutePolicy m E) (fn : m (Except E Unit)) : m Unit := do
  match ← fn with
  | .ok () => pure ()
  | .error _ =>
      match policy.hookErrors with
      | none => pure ()
      | some count => count

/-- `abandonQuietly`: the error of an `abandon` goes to the hook and nowhere else. -/
def abandonQuietly (store : Store m E) (op : Operation) (fence : ℤ) (hooks : ExecuteHooks m E)
    (policy : ExecutePolicy m E) : m Unit := do
  match ← store.abandon op fence with
  | .ok _ => pure ()
  | .error error => safely policy (fire (hooks.onStoreError.map fun hook => hook op error))

/-- **The one state machine.**  The result is what `execute` returns, or what it throws. -/
def execute (store : Store m E) (op : Operation) (run : ℤ → m (Except E StoredResult))
    (policy : ExecutePolicy m E) : m (Except E (ExecuteResult E)) := do
  let hooks : ExecuteHooks m E := policy.hooks.getD {}
  let now ← policy.clock
  match ← store.begin op ⟨policy.leaseMs, policy.ttlMs, now⟩ with
  | .error error =>
      safely policy (fire (hooks.onStoreError.map fun hook => hook op error))
      match policy.onStoreError with
      | .FailClosed => pure (.ok (.StoreError error))
      | .FailOpen =>
          match ← run 0 with
          | .error thrown => pure (.error thrown)
          | .ok result => pure (.ok (.Executed result false))
  | .ok (.Completed record) =>
      safely policy (fire (hooks.onReplayed.map fun hook => hook op record))
      pure (.ok (.Replayed record))
  | .ok (.InFlight leaseUntil) =>
      safely policy (fire (hooks.onConflict.map fun hook => hook op leaseUntil))
      pure (.ok (.Conflict leaseUntil))
  | .ok (.Mismatch record) =>
      safely policy (fire (hooks.onMismatch.map fun hook => hook op record))
      pure (.ok (.Mismatch record))
  | .ok (.Acquired fence) =>
      safely policy (fire (hooks.onAcquired.map fun hook => hook op))
      match ← run fence with
      | .error thrown =>
          abandonQuietly store op fence hooks policy
          pure (.error thrown)
      | .ok result =>
          -- the predicate stands outside every `try`: what it throws leaves the engine
          match ← policy.storeResult result with
          | .error thrown => pure (.error thrown)
          | .ok false =>
              abandonQuietly store op fence hooks policy
              pure (.ok (.Executed result false))
          | .ok true =>
              let payload := payloadOf policy.maxResultBytes result
              let now ← policy.clock
              match ← store.complete op fence payload now with
              | .error error =>
                  safely policy (fire (hooks.onStoreError.map fun hook => hook op error))
                  pure (.ok (.Executed result false))
              | .ok status => pure (.ok (.Executed result (status = .Ok)))

end

/-! ## Over an arbitrary environment -/

/-- One call of a hook, with its arguments. -/
inductive HookCall (E : Type)
  | OnAcquired (op : Operation)
  | OnReplayed (op : Operation) (record : IdempotencyRecord)
  | OnConflict (op : Operation) (leaseUntil : ℤ)
  | OnMismatch (op : Operation) (record : IdempotencyRecord)
  | OnStoreError (op : Operation) (error : E)

/-- Everything the engine asks of its surroundings. -/
inductive EngineCall (E : Type)
  | Begin (op : Operation) (opts : BeginOptions)
  | Complete (op : Operation) (fence : ℤ) (payload : Completion) (now : ℤ)
  | Abandon (op : Operation) (fence : ℤ)
  | Clock
  | Run (fence : ℤ)
  | StoreResult (result : StoredResult)
  | Hook (call : HookCall E)
  | CountHookError

/-- What a call gives: the reply of the store, or what user code returned or threw. -/
abbrev EngineReply (E : Type) : EngineCall E → Type
  | .Begin _ _ => Except E (BeginOutcome IdempotencyRecord)
  | .Complete _ _ _ _ => Except E CompleteStatus
  | .Abandon _ _ => Except E CompleteStatus
  | .Clock => ℤ
  | .Run _ => Except E StoredResult
  | .StoreResult _ => Except E Bool
  | .Hook _ => Except E Unit
  | .CountHookError => Unit

/-- `execute` as a program over its calls. -/
abbrev EngineProg (E : Type) : Type → Type := Prog (EngineCall E) (EngineReply E)

/-- One call of a run, with its reply. -/
abbrev EngineEvent (E : Type) : Type := Event (EngineCall E) (EngineReply E)

/-- Which hooks are installed. -/
structure Installed where
  onAcquired : Bool := false
  onReplayed : Bool := false
  onConflict : Bool := false
  onMismatch : Bool := false
  onStoreError : Bool := false

/-- The data of a policy; its functions are the environment's. -/
structure PolicyConfig where
  leaseMs : ℤ
  ttlMs : ℤ
  maxResultBytes : ℤ
  onStoreError : StoreErrorMode
  hooks : Option Installed := none
  hookErrors : Bool := false

section

variable {E : Type}

/-- Issue one command of the engine. -/
abbrev ask (c : EngineCall E) : EngineProg E (EngineReply E c) := Prog.call c

/-- The store whose every answer is the environment's. -/
def callStore : Store (EngineProg E) E where
  begin op opts := ask (.Begin op opts)
  complete op fence payload now := ask (.Complete op fence payload now)
  abandon op fence := ask (.Abandon op fence)

/-- The hooks that are installed, each as a call. -/
def hookCalls (installed : Installed) : ExecuteHooks (EngineProg E) E where
  onAcquired :=
    if installed.onAcquired then some fun op => ask (.Hook (.OnAcquired op)) else none
  onReplayed :=
    if installed.onReplayed then some fun op rec => ask (.Hook (.OnReplayed op rec)) else none
  onConflict :=
    if installed.onConflict then some fun op n => ask (.Hook (.OnConflict op n)) else none
  onMismatch :=
    if installed.onMismatch then some fun op rec => ask (.Hook (.OnMismatch op rec)) else none
  onStoreError :=
    if installed.onStoreError then some fun op e => ask (.Hook (.OnStoreError op e)) else none

/-- A hook that is called if it is installed. -/
lemma map_installed {A B : Type} (b : Bool) (a : A) (f : A → B) :
    (if b then some a else none).map f = if b then some (f a) else none := by
  cases b <;> rfl

/-- The policy whose functions are the environment's. -/
def PolicyConfig.policy (cfg : PolicyConfig) : ExecutePolicy (EngineProg E) E where
  leaseMs := cfg.leaseMs
  ttlMs := cfg.ttlMs
  maxResultBytes := cfg.maxResultBytes
  storeResult result := ask (.StoreResult result)
  onStoreError := cfg.onStoreError
  clock := ask .Clock
  hooks := cfg.hooks.map hookCalls
  hookErrors := if cfg.hookErrors then some (ask .CountHookError) else none

/-- `execute` in an arbitrary environment. -/
def executeCalls (op : Operation) (cfg : PolicyConfig) : EngineProg E (Except E (ExecuteResult E)) :=
  execute callStore op (fun fence => ask (.Run fence)) cfg.policy

end

end Anyonce
