import Anyonce.Core.Program
import Anyonce.Go.Engine

/-!
# The Go HTTP door

`Door.Execute` of `go/internal/httpx/door.go`: the run callback that recovers a handler's panic, the
hook that marks a degraded response, and what is written after the engine has returned.  The two
variables the callbacks share, `degraded` and `panicValue`, are the state of a state monad over the
monad of the environment.

What the handler did to its `CaptureWriter` is the reply of `serve`: it panicked, it took the
connection, or it returned and the writer holds a result.

`DoorCall` is the environment that answers anything at all.  `door_settles_iff` says when a claim
that was granted is settled, for every such environment.
-/

namespace Anyonce.Go

open Interaction

/-- How `next.ServeHTTP` ended, with what `cw` holds then. -/
inductive Handled (V : Type)
  | Panicked (p : V)
  | Hijacked
  | Wrote (result : StoredResult)

/-- The problems the middleware answers with once `Begin` has been asked. -/
inductive ProblemCode
  | Conflict
  | FingerprintMismatch
  | StoreUnavailable
  deriving DecidableEq

/-- The `Retry-After` header of a problem: one second, or the time left of a lease at `now`. -/
inductive RetryAfter
  | OneSecond
  | UntilLease (leaseUntil now : ℤ)

/-- What the door writes itself. -/
inductive Response
  | WriteReplay (record : Record)
  | Fail (code : ProblemCode) (retryAfter : Option RetryAfter)
  | HttpError (text : GoString)

/-- The variables `Execute` shares with its callbacks. -/
structure DoorState (V : Type) where
  degraded : Bool := false
  panicValue : Option V := none

section

variable (n : Type → Type) (V : Type)

/-- The door's own configuration. -/
structure Door where
  name : GoString
  store : Store n
  policy : Policy n V
  onMismatch : Option (Record → n (Except V Unit)) := none

/-- One request: its context, the wrapped handler, and the response it writes to. -/
structure Request where
  ctxErr : n (Option GoError)
  serve : ℤ → n (Handled V)
  setDegraded : n Unit
  wroteHeader : n Bool
  respond : Response → n (Except V Unit)

end

section

variable {n : Type → Type} [Monad n] {V : Type}

/-- A computation of the environment, beside the shared variables. -/
abbrev DoorM (n : Type → Type) (V : Type) : Type → Type := StateT (DoorState V) n

def Store.lift (store : Store n) : Store (DoorM n V) where
  begin ctx op opts := StateT.lift (store.begin ctx op opts)
  complete ctx op fence result now := StateT.lift (store.complete ctx op fence result now)
  abandon ctx op fence := StateT.lift (store.abandon ctx op fence)

/-- The policy the door runs the engine with: the user's, whose `OnStoreError` hook first marks the
request as degraded. -/
def Policy.lift (p : Policy n V) : Policy (DoorM n V) V where
  lease := p.lease
  ttl := p.ttl
  maxResultBytes := p.maxResultBytes
  storeResult := p.storeResult.map fun storeResult r => StateT.lift (storeResult r)
  onStoreError := p.onStoreError
  now := StateT.lift p.now
  hooks :=
    { onAcquired := p.hooks.onAcquired.map fun hook op => StateT.lift (hook op)
      onReplayed := p.hooks.onReplayed.map fun hook op record => StateT.lift (hook op record)
      onConflict := p.hooks.onConflict.map fun hook op leaseUntil => StateT.lift (hook op leaseUntil)
      onMismatch := p.hooks.onMismatch.map fun hook op record => StateT.lift (hook op record)
      onStoreError := some fun op err => do
        modify fun st => { st with degraded := true }
        match p.hooks.onStoreError with
        | none => pure (.ok ())
        | some userHook => StateT.lift (userHook op err) }
  hookErrors := p.hookErrors.map fun count => StateT.lift count

/-- A store failure before the handler runs shows on the response. -/
def markDegraded (r : Request n V) : DoorM n V Unit := do
  let st ← get
  if st.degraded then StateT.lift r.setDegraded else pure ()

/-- The run callback: a panic of the handler is recovered, kept, and reported as an error. -/
def runCallback (r : Request n V) (fence : ℤ) :
    DoorM n V (Except V (Except GoError StoredResult)) := do
  markDegraded r
  match ← StateT.lift (r.serve fence) with
  | .Panicked p => do
      modify fun st => { st with panicValue := some p }
      pure (.ok (.error .Panicked))
  | .Hijacked => pure (.ok (.error .Hijacked))
  | .Wrote result => pure (.ok (.ok result))

/-- `errors.Is(err, errHijacked)`. -/
def GoError.isHijacked : GoError → Bool
  | .Hijacked => true
  | .StoreUnavailable err => err.isHijacked
  | .HandlerFailed err => err.isHijacked
  | _ => false

/-- What is written once the engine has returned. -/
def Door.answer (d : Door n V) (r : Request n V) :
    Result × Option GoError → n (Except V Unit)
  | (res, some err) =>
      if err.isHijacked then pure (.ok ())
      else
        match res with
        | .StoreError _ => r.respond (.Fail .StoreUnavailable (some .OneSecond))
        | _ => do
            if ← r.wroteHeader then pure (.ok ())
            else r.respond (.HttpError (d.name ++ ascii ": idempotency failed"))
  | (.Zero, none) => pure (.ok ())
  | (.Executed _ _, none) => pure (.ok ())
  | (.Replayed record, none) => r.respond (.WriteReplay record)
  | (.Conflict leaseUntil, none) => do
      let now ← d.policy.now
      r.respond (.Fail .Conflict (some (.UntilLease leaseUntil now)))
  | (.Mismatch record, none) => do
      match d.onMismatch with
      | none => r.respond (.Fail .FingerprintMismatch none)
      | some hook =>
          match ← hook record with
          | .error p => pure (.error p)
          | .ok () => r.respond (.Fail .FingerprintMismatch none)
  | (.StoreError _, none) => r.respond (.Fail .StoreUnavailable (some .OneSecond))

/-- **`Door.Execute`.**  An error of the result is the panic that leaves it. -/
def Door.execute (d : Door n V) (r : Request n V) (op : Operation) : n (Except V Unit) := do
  let (left, st) ← (Go.execute (StateT.lift r.ctxErr) d.store.lift op (runCallback r)
    d.policy.lift).run {}
  match left with
  | .error p => pure (.error p)
  | .ok out =>
      match st.panicValue with
      | some p => pure (.error p)
      | none => d.answer r out

end

/-! ## Over an arbitrary environment -/

/-- One call of a hook, with its arguments. -/
inductive HookCall
  | OnAcquired (op : Operation)
  | OnReplayed (op : Operation) (record : Record)
  | OnConflict (op : Operation) (leaseUntil : ℤ)
  | OnMismatch (op : Operation) (record : Record)
  | OnStoreError (op : Operation) (err : GoError)
  | DoorMismatch (record : Record)

/-- Everything the door asks of its surroundings. -/
inductive DoorCall
  | CtxErr
  | Begin (ctx : Context) (op : Operation) (opts : BeginOptions)
  | Complete (ctx : Context) (op : Operation) (fence : ℤ) (payload : StoredResult) (now : ℤ)
  | Abandon (ctx : Context) (op : Operation) (fence : ℤ)
  | Now
  | Serve (fence : ℤ)
  | StoreResult (result : StoredResult)
  | Hook (call : HookCall)
  | CountHookError
  | SetDegraded
  | WroteHeader
  | Respond (response : Response)

/-- What a call of the middleware gives. -/
abbrev DoorReply (V : Type) : DoorCall → Type
  | .CtxErr => Option GoError
  | .Begin _ _ _ => Except GoError (BeginOutcome Record)
  | .Complete _ _ _ _ _ => Except GoError CompleteStatus
  | .Abandon _ _ _ => Except GoError CompleteStatus
  | .Now => ℤ
  | .Serve _ => Handled V
  | .StoreResult _ => Except V Bool
  | .Hook _ => Except V Unit
  | .CountHookError => Unit
  | .SetDegraded => Unit
  | .WroteHeader => Bool
  | .Respond _ => Except V Unit

/-- The middleware as a program over its calls. -/
abbrev DoorProg (V : Type) : Type → Type := Prog DoorCall (DoorReply V)

/-- One call of a run, with its reply. -/
abbrev DoorEvent (V : Type) : Type := Event DoorCall (DoorReply V)

/-- The data of a door; its functions are the environment's.  The flags say which of the optional
functions are set. -/
structure DoorConfig where
  name : GoString
  lease : ℤ
  ttl : ℤ
  maxResultBytes : ℤ
  onStoreErrorMode : StoreErrorMode
  storeResult : Bool := false
  onAcquired : Bool := false
  onReplayed : Bool := false
  onConflict : Bool := false
  onMismatch : Bool := false
  onStoreError : Bool := false
  hookErrors : Bool := false
  doorMismatch : Bool := false

section

variable {V : Type}

/-- Issue one command of the door. -/
abbrev ask (c : DoorCall) : DoorProg V (DoorReply V c) := Prog.call c

/-- The policy the middleware hands to the engine: its hooks are those that are configured. -/
def DoorConfig.policy (cfg : DoorConfig) : Policy (DoorProg V) V where
  lease := cfg.lease
  ttl := cfg.ttl
  maxResultBytes := cfg.maxResultBytes
  storeResult := if cfg.storeResult then some fun r => ask (.StoreResult r) else none
  onStoreError := cfg.onStoreErrorMode
  now := ask .Now
  hooks :=
    { onAcquired := if cfg.onAcquired then some fun op => ask (.Hook (.OnAcquired op)) else none
      onReplayed :=
        if cfg.onReplayed then some fun op rec => ask (.Hook (.OnReplayed op rec)) else none
      onConflict := if cfg.onConflict then some fun op t => ask (.Hook (.OnConflict op t)) else none
      onMismatch :=
        if cfg.onMismatch then some fun op rec => ask (.Hook (.OnMismatch op rec)) else none
      onStoreError :=
        if cfg.onStoreError then some fun op err => ask (.Hook (.OnStoreError op err)) else none }
  hookErrors := if cfg.hookErrors then some (ask .CountHookError) else none

def DoorConfig.door (cfg : DoorConfig) : Door (DoorProg V) V where
  name := cfg.name
  store :=
    { begin := fun ctx op opts => ask (.Begin ctx op opts)
      complete := fun ctx op fence payload now => ask (.Complete ctx op fence payload now)
      abandon := fun ctx op fence => ask (.Abandon ctx op fence) }
  policy := cfg.policy
  onMismatch := if cfg.doorMismatch then some fun rec => ask (.Hook (.DoorMismatch rec)) else none

def requestCalls : Request (DoorProg V) V where
  ctxErr := ask .CtxErr
  serve fence := ask (.Serve fence)
  setDegraded := ask .SetDegraded
  wroteHeader := ask .WroteHeader
  respond response := ask (.Respond response)

/-- `Door.Execute` in an arbitrary environment. -/
def doorCalls (cfg : DoorConfig) (op : Operation) : DoorProg V (Except V Unit) :=
  cfg.door.execute requestCalls op

end

end Anyonce.Go
