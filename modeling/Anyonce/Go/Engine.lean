import Anyonce.Go.Types

/-!
# The Go engine

`Execute` of `go/anyonce/engine.go`.  As in TypeScript, the store, the handler and the functions of
the policy are parameters in an arbitrary monad.  A Go function that returns `(T, error)` returns an
`Except GoError T`; one that may also panic returns that under a second `Except V`, whose error is
the panic value.  `Execute` itself recovers nothing but hooks, so a panic of the handler or of the
predicate leaves it as a panic.
-/

namespace Anyonce.Go

/-- Error values, with the wrapping `fmt.Errorf` gives them.  `Opaque` is an error of a store, a
handler or a context. -/
inductive GoError
  | Opaque (text : GoString)
  | StoreUnavailable (begun : GoError)
  | HandlerFailed (run : GoError)
  | Hijacked
  | Panicked
  deriving DecidableEq

/-- The context a store call is made under: the caller's, or one that outlives it. -/
inductive Context
  | Caller
  | Bookkeeping
  deriving DecidableEq

/-- `StoreErrorMode` is a string: unset, one of the two constants, or anything else. -/
inductive StoreErrorMode
  | Unset
  | FailClosed
  | FailOpen
  | Other (mode : GoString)
  deriving DecidableEq

section

variable (m : Type → Type) (V : Type)

/-- The interface `Store`, as the engine uses it. -/
structure Store where
  begin : Context → Operation → BeginOptions → m (Except GoError (BeginOutcome Record))
  complete : Context → Operation → ℤ → StoredResult → ℤ → m (Except GoError CompleteStatus)
  abandon : Context → Operation → ℤ → m (Except GoError CompleteStatus)

/-- The hooks of a policy.  Each may be nil. -/
structure Hooks where
  onAcquired : Option (Operation → m (Except V Unit)) := none
  onReplayed : Option (Operation → Record → m (Except V Unit)) := none
  onConflict : Option (Operation → ℤ → m (Except V Unit)) := none
  onMismatch : Option (Operation → Record → m (Except V Unit)) := none
  onStoreError : Option (Operation → GoError → m (Except V Unit)) := none

/-- `now` is the policy's clock, or `time.Now` when it has none. -/
structure Policy where
  lease : ℤ
  ttl : ℤ
  maxResultBytes : ℤ
  storeResult : Option (StoredResult → m (Except V Bool))
  onStoreError : StoreErrorMode
  now : m ℤ
  hooks : Hooks m V := {}
  hookErrors : Option (m Unit) := none

end

/-- What `Execute` returns beside its error; `Zero` is `Result{}`. -/
inductive Result
  | Zero
  | Executed (result : StoredResult) (stored : Bool)
  | Replayed (record : Record)
  | Conflict (leaseUntil : ℤ)
  | Mismatch (record : Record)
  | StoreError (err : GoError)

/-- The default of `StoreResult`: every message, and a response below 500, where no status counts as 500. -/
def defaultStoreResult (r : StoredResult) : Bool :=
  if r.kind = .Message then true
  else
    let status := if r.status = 0 then 500 else r.status
    status < 500

/-- 30 s, in nanoseconds. -/
def defaultLease : ℤ := 30 * 1000000000

/-- 24 h, in nanoseconds. -/
def defaultTtl : ℤ := 24 * 3600 * 1000000000

/-- One MiB, above which a body is not stored. -/
def defaultMaxResultBytes : ℤ := 1048576

/-- The bytes that count against the limit: those of the body. -/
def resultSize (r : StoredResult) : ℕ := (r.body.map List.length).getD 0

/-- The omitted form of a result. -/
def omitBody (r : StoredResult) : StoredResult :=
  { kind := r.kind, status := r.status, headers := r.headers, omitted := true }

section

variable {m : Type → Type} [Monad m] {V : Type}

/-- The policy with its zero values replaced by the defaults. -/
def Policy.normalized (p : Policy m V) : Policy m V :=
  { p with
    lease := if p.lease ≤ 0 then defaultLease else p.lease
    ttl := if p.ttl ≤ 0 then defaultTtl else p.ttl
    maxResultBytes := if p.maxResultBytes ≤ 0 then defaultMaxResultBytes else p.maxResultBytes
    storeResult := some (p.storeResult.getD fun r => pure (.ok (defaultStoreResult r)))
    onStoreError := if p.onStoreError = .Unset then .FailClosed else p.onStoreError }

/-- `StoreResult` of a normalized policy. -/
def Policy.keep (p : Policy m V) (r : StoredResult) : m (Except V Bool) :=
  match p.storeResult with
  | none => pure (.ok (defaultStoreResult r))
  | some storeResult => storeResult r

/-- Run a hook that may not be installed; a panic of it is recovered and counted. -/
def Policy.safely (p : Policy m V) (hook : Option (m (Except V Unit))) : m Unit :=
  match hook with
  | none => pure ()
  | some fn => do
      match ← fn with
      | .ok () => pure ()
      | .error _ =>
          match p.hookErrors with
          | none => pure ()
          | some count => count

/-- The hook for errors of the store, where there is one. -/
def Policy.storeError (p : Policy m V) (op : Operation) (err : GoError) : m Unit :=
  p.safely (p.hooks.onStoreError.map fun hook => hook op err)

/-- An `Abandon` whose error goes to the hook and nowhere else. -/
def abandonQuietly (store : Store m) (op : Operation) (fence : ℤ) (policy : Policy m V) :
    m Unit := do
  match ← store.abandon .Bookkeeping op fence with
  | .ok _ => pure ()
  | .error err => policy.storeError op err

/-- The engine after the handler returned `result` and the predicate answered, or panicked. -/
def settle (store : Store m) (op : Operation) (fence : ℤ) (result : StoredResult)
    (policy : Policy m V) : Except V Bool → m (Except V (Result × Option GoError))
  | .error p => pure (.error p)
  | .ok false => do
      abandonQuietly store op fence policy
      pure (.ok (.Executed result false, none))
  | .ok true => do
      let payload :=
        if (resultSize result : ℤ) > policy.maxResultBytes then omitBody result else result
      let now ← policy.now
      match ← store.complete .Bookkeeping op fence payload now with
      | .error err =>
          policy.storeError op err
          pure (.ok (.Executed result false, none))
      | .ok status => pure (.ok (.Executed result (status = .Ok), none))

/-- The engine after the policy is normalized and the context found alive. -/
def executeNormalized (store : Store m) (op : Operation)
    (run : ℤ → m (Except V (Except GoError StoredResult))) (policy : Policy m V) :
    m (Except V (Result × Option GoError)) := do
  let now ← policy.now
  match ← store.begin .Caller op ⟨policy.lease, policy.ttl, now⟩ with
  | .error err =>
      policy.storeError op err
      if policy.onStoreError = .FailClosed then
        let wrapped := GoError.StoreUnavailable err
        pure (.ok (.StoreError wrapped, some wrapped))
      else
        match ← run 0 with
        | .error p => pure (.error p)
        | .ok (.error runErr) => pure (.ok (.Zero, some (.HandlerFailed runErr)))
        | .ok (.ok result) => pure (.ok (.Executed result false, none))
  | .ok (.Completed record) =>
      policy.safely (policy.hooks.onReplayed.map fun hook => hook op record)
      pure (.ok (.Replayed record, none))
  | .ok (.InFlight leaseUntil) =>
      policy.safely (policy.hooks.onConflict.map fun hook => hook op leaseUntil)
      pure (.ok (.Conflict leaseUntil, none))
  | .ok (.Mismatch record) =>
      policy.safely (policy.hooks.onMismatch.map fun hook => hook op record)
      pure (.ok (.Mismatch record, none))
  | .ok (.Acquired fence) =>
      policy.safely (policy.hooks.onAcquired.map fun hook => hook op)
      match ← run fence with
      | .error p => pure (.error p)
      | .ok (.error runErr) =>
          abandonQuietly store op fence policy
          pure (.ok (.Zero, some (.HandlerFailed runErr)))
      | .ok (.ok result) =>
          -- nothing recovers a panic of the predicate here
          let kept ← policy.keep result
          settle store op fence result policy kept

/-- **`Execute`.**  `ctxErr` is `ctx.Err()`.  The result is what it returns, or the panic that leaves
it. -/
def execute (ctxErr : m (Option GoError)) (store : Store m) (op : Operation)
    (run : ℤ → m (Except V (Except GoError StoredResult))) (policy : Policy m V) :
    m (Except V (Result × Option GoError)) := do
  match ← ctxErr with
  | some err => pure (.ok (.Zero, some err))
  | none => executeNormalized store op run policy.normalized

end

end Anyonce.Go
