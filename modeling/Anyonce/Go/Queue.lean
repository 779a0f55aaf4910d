import Anyonce.Go.Engine
import Anyonce.Go.Key
import Anyonce.Queue.Door

/-!
# The queue door in Go

`Wrap` of `go/anyqmw/middleware.go`.  As in TypeScript what the options make of a message is a
parameter, and the variables the deliveries of one wrapper share are the environment's.  The variable
of a single delivery, `panicValue`, is the state of a state monad: the run callback recovers a panic of
the handler into it, and `Wrap` panics again once the engine has returned.

* `wrap_meets` — the contract of a delivery, as in TypeScript.
-/

namespace Anyonce.Go

open Interaction

/-! ## The code -/

/-- `InFlightMode` is a string: one of the two constants, after the default is applied, or anything
else. -/
inductive InFlightMode
  | Retry
  | Ack
  | Other (mode : GoString)
  deriving DecidableEq

/-- The errors a delivery returns: of the options, of the engine, and of the door itself. -/
inductive QueueError
  | Options (err : GoError)
  | UnknownInFlightMode (mode : GoString)
  | InvalidKey (reason : String)
  | Engine (err : GoError)
  | InFlight (leaseUntil delayMs : ℤ)
  | Mismatch (record : Record)
  | Unexpected (kind : GoString)

/-- What the options make of a message. -/
structure QueueMessage where
  scope : Except QueueError GoString
  identity : Except QueueError GoString
  fingerprint : Except QueueError GoString

/-- The options of a wrapper.  The functions of the policy are the environment's; the flags say which of
the optional ones are set. -/
structure QueueOptions where
  onInFlight : InFlightMode := .Retry
  lease : ℤ := 0
  ttl : ℤ := 0
  maxResultBytes : ℤ := 0
  onStoreErrorMode : StoreErrorMode := .Unset
  storeResult : Bool := false
  onAcquired : Bool := false
  onReplayed : Bool := false
  onConflict : Bool := false
  onMismatch : Bool := false
  onStoreError : Bool := false
  hookErrors : Bool := false

/-- How the wrapped handler ended. -/
inductive HandlerEnd (V : Type)
  | Panicked (p : V)
  | Returned (err : Option GoError)

/-- One call of a hook, with its arguments. -/
inductive QueueHook
  | OnAcquired (op : Operation)
  | OnReplayed (op : Operation) (record : Record)
  | OnConflict (op : Operation) (leaseUntil : ℤ)
  | OnMismatch (op : Operation) (record : Record)
  | OnStoreError (op : Operation) (err : GoError)

/-- Everything a delivery asks of its surroundings, and the purges beside it. -/
inductive QueueCall
  | Untranslated
  | Warn
  | CtxErr
  | Begin (ctx : Context) (op : Operation) (opts : BeginOptions)
  | Complete (ctx : Context) (op : Operation) (fence : ℤ) (payload : StoredResult) (now : ℤ)
  | Abandon (ctx : Context) (op : Operation) (fence : ℤ)
  | Now
  | Handle
  | StoreResult (result : StoredResult)
  | Hook (call : QueueHook)
  | CountHookError
  | SetPending (leaseUntil delayMs : ℤ)
  | Purge (now : ℤ)

/-- What a call of the door gives. -/
abbrev QueueReply (V : Type) : QueueCall → Type
  | .Untranslated => Bool
  | .Warn => Except V Unit
  | .CtxErr => Option GoError
  | .Begin _ _ _ => Except GoError (BeginOutcome Record)
  | .Complete _ _ _ _ _ => Except GoError CompleteStatus
  | .Abandon _ _ _ => Except GoError CompleteStatus
  | .Now => ℤ
  | .Handle => HandlerEnd V
  | .StoreResult _ => Except V Bool
  | .Hook _ => Except V Unit
  | .CountHookError => Unit
  | .SetPending _ _ => Unit
  | .Purge _ => Except GoError ℕ

/-- The door as a program over its calls. -/
abbrev QueueProg (V : Type) : Type → Type := Prog QueueCall (QueueReply V)

/-- One call of a run, with its reply. -/
abbrev QueueEvent (V : Type) : Type := Event QueueCall (QueueReply V)

/-- A computation of a delivery, beside `panicValue`. -/
abbrev QueueM (V : Type) : Type → Type := StateT (Option V) (QueueProg V)

/-- `validateInFlight`. -/
def validateInFlight : InFlightMode → Except QueueError Unit
  | .Other mode => .error (.UnknownInFlightMode mode)
  | _ => .ok ()

/-- The key of a message, or the error of one that has none or an invalid one. -/
def resolveKey (msg : QueueMessage) : Except QueueError GoString := do
  let key ← msg.identity
  match validateKey key false with
  | .ok () => return key
  | .error reason => throw (.InvalidKey reason)

/-- The operation of a delivery. -/
def QueueOptions.operation (o : QueueOptions) (msg : QueueMessage) : Except QueueError Operation := do
  validateInFlight o.onInFlight
  let scope ← msg.scope
  let key ← resolveKey msg
  let fingerprint ← msg.fingerprint
  return ⟨scope, key, fingerprint⟩

section

variable {V : Type}

/-- Issue one command of a delivery. -/
abbrev queueAsk (c : QueueCall) : QueueProg V (QueueReply V c) := Prog.call c

/-- Issue one command beside `panicValue`. -/
abbrev queueLift (c : QueueCall) : QueueM V (QueueReply V c) := StateT.lift (queueAsk c)

/-- The store behind the door, as calls. -/
def queueStore : Store (QueueM V) where
  begin ctx op opts := queueLift (.Begin ctx op opts)
  complete ctx op fence payload now := queueLift (.Complete ctx op fence payload now)
  abandon ctx op fence := queueLift (.Abandon ctx op fence)

/-- The policy the door hands to the engine. -/
def QueueOptions.policy (o : QueueOptions) : Policy (QueueM V) V where
  lease := o.lease
  ttl := o.ttl
  maxResultBytes := o.maxResultBytes
  storeResult := if o.storeResult then some fun r => queueLift (.StoreResult r) else none
  onStoreError := o.onStoreErrorMode
  now := queueLift .Now
  hooks :=
    { onAcquired := if o.onAcquired then some fun op => queueLift (.Hook (.OnAcquired op)) else none
      onReplayed :=
        if o.onReplayed then some fun op r => queueLift (.Hook (.OnReplayed op r)) else none
      onConflict := if o.onConflict then some fun op t => queueLift (.Hook (.OnConflict op t)) else none
      onMismatch :=
        if o.onMismatch then some fun op r => queueLift (.Hook (.OnMismatch op r)) else none
      onStoreError :=
        if o.onStoreError then some fun op err => queueLift (.Hook (.OnStoreError op err)) else none }
  hookErrors := if o.hookErrors then some (queueLift .CountHookError) else none

/-- The only result a queue operation ever stores. -/
def okResult : StoredResult := { kind := .Message, outcome := some .Ok }

/-- The run callback. -/
def runHandler : QueueM V (Except V (Except GoError StoredResult)) := do
  match ← queueLift .Handle with
  | .Panicked p => do
      set (some p)
      pure (.ok (.error .Panicked))
  | .Returned (some handlerErr) => pure (.ok (.error handlerErr))
  | .Returned none =>
      -- a handler that swallowed a cancellation must not leave a completed record behind
      match ← queueLift .CtxErr with
      | some ctxErr => pure (.ok (.error ctxErr))
      | none => pure (.ok (.ok okResult))

/-- What a delivery makes of the result of the engine. -/
def QueueOptions.acknowledge (o : QueueOptions) :
    Result → QueueProg V (Except V (Option QueueError))
  | .Executed _ _ => pure (.ok none)
  | .Replayed _ => pure (.ok none)
  | .Conflict leaseUntil =>
      if o.onInFlight = .Ack then pure (.ok none)
      else do
        let now ← queueAsk .Now
        let left := (leaseUntil - now).tdiv 1000000
        let delayMs := if left < 1 then 1 else left
        queueAsk (.SetPending leaseUntil delayMs)
        pure (.ok (some (.InFlight leaseUntil delayMs)))
  | .Mismatch record => pure (.ok (some (.Mismatch record)))
  | .StoreError _ => pure (.ok (some (.Unexpected (ascii "store_error"))))
  | .Zero => pure (.ok (some (.Unexpected [])))

/-- A delivery, after the warning.  The outer error is a panic that leaves it; `none` is a nil error. -/
def QueueOptions.deliver (o : QueueOptions) (msg : QueueMessage) :
    QueueProg V (Except V (Option QueueError)) := do
  match o.operation msg with
  | .error err => pure (.ok (some err))
  | .ok op =>
      let (left, panicValue) ← (execute (queueLift .CtxErr) queueStore op (fun _ => runHandler)
        o.policy).run none
      match left with
      | .error p => pure (.error p)
      | .ok (result, err) =>
          match panicValue with
          | some p => pure (.error p)
          | none =>
              match err with
              | some err => pure (.ok (some (.Engine err)))
              | none => o.acknowledge result

/-- **One delivery of a wrapped handler.** -/
def wrap (o : QueueOptions) (msg : QueueMessage) : QueueProg V (Except V (Option QueueError)) := do
  if ← queueAsk .Untranslated then
    match ← queueAsk .Warn with
    | .error p => pure (.error p)
    | .ok () => o.deliver msg
  else o.deliver msg

end

/-! ## The contract of a delivery -/

section

variable {V : Type}

/-- The mark of a reply: how the handler ended, or that the record was completed. -/
def queueMark : QueueEvent V → Option Mark
  | ⟨.Handle, .Returned none⟩ => some .Succeeded
  | ⟨.Handle, .Returned (some _)⟩ => some .Failed
  | ⟨.Handle, .Panicked _⟩ => some .Failed
  | ⟨.Begin _ _ _, .ok (.Completed _)⟩ => some .Replayed
  | _ => none

/-- A delivery acts on its own operation, and completes it only after its handler has succeeded. -/
def deliveryContract (op : Option Operation) : Contract QueueCall (QueueReply V) Notes where
  note t ev := t.add (queueMark ev)
  asks t c :=
    match c with
    | .Begin _ op' _ => op = some op'
    | .Complete _ op' _ _ _ => op = some op' ∧ t .Succeeded = true
    | .Abandon _ op' _ => op = some op'
    | .Handle => op.isSome = true
    | _ => True

/-- The computation makes no call the contract speaks of, its replies are not noted, and it leaves
`panicValue` alone. -/
def Quiet {α : Type} (x : QueueM V α) : Prop :=
  ∀ (op : Option Operation) (t : Notes) (st : Option V),
    Prog.Meets (deliveryContract op) (fun t' out => t' = t ∧ out.2 = st) (x st) t

lemma quiet_pure {α : Type} (a : α) : Quiet (pure a : QueueM V α) := fun _ _ _ => ⟨rfl, rfl⟩

lemma quiet_hook (call : QueueHook) : Quiet (queueLift (.Hook call) : QueueM V _) :=
  fun _ _ _ => ⟨trivial, fun _ => ⟨rfl, rfl⟩⟩

/-- The rule for a first part that is not noted. -/
lemma Quiet.bind {α β : Type} {x : QueueM V α} {f : α → QueueM V β} (hx : Quiet x)
    {op : Option Operation} {t : Notes} {st : Option V} {post : Notes → β × Option V → Prop}
    (hf : ∀ a, Prog.Meets (deliveryContract op) post (f a st) t) :
    Prog.Meets (deliveryContract op) post ((x >>= f) st) t := by
  refine meets_bind_iff.mpr ((hx op t st).mono ?_)
  rintro t' ⟨a, st'⟩ ⟨rfl, rfl⟩
  exact hf a

lemma Quiet.bind_quiet {α β : Type} {x : QueueM V α} {f : α → QueueM V β} (hx : Quiet x)
    (hf : ∀ a, Quiet (f a)) : Quiet (x >>= f) :=
  fun op t st => hx.bind fun a => hf a op t st

/-- The policy the engine runs with. -/
abbrev QueueOptions.engine (o : QueueOptions) : Policy (QueueM V) V := o.policy.normalized

/-- A hook that is not installed, or that is not noted. -/
def HookQuiet (hook : Option (QueueM V (Except V Unit))) : Prop := ∀ fn ∈ hook, Quiet fn

lemma hookQuiet_ite {X : Type} {installed : Bool} {hook : X} {call : X → QueueM V (Except V Unit)}
    (h : Quiet (call hook)) : HookQuiet ((if installed then some hook else none).map call) := by
  intro fn hfn
  cases installed with
  | false => simp at hfn
  | true =>
      obtain rfl : call hook = fn := by simpa using hfn
      exact h

lemma quiet_safely (o : QueueOptions) {hook : Option (QueueM V (Except V Unit))}
    (hh : HookQuiet hook) : Quiet (o.engine.safely hook) := by
  cases hook with
  | none => exact quiet_pure ()
  | some fn =>
      refine (hh fn rfl).bind_quiet ?_
      intro r
      cases r with
      | ok u => exact quiet_pure ()
      | error p =>
          dsimp only [QueueOptions.engine, Policy.normalized, QueueOptions.policy]
          cases o.hookErrors with
          | false => exact quiet_pure ()
          | true => exact fun _ _ _ => ⟨trivial, fun _ => ⟨rfl, rfl⟩⟩

/-- The hooks of the engine are not noted. -/
structure ObserversQuiet (policy : Policy (QueueM V) V) : Prop where
  onAcquired : ∀ op, HookQuiet (policy.hooks.onAcquired.map fun hook => hook op)
  onReplayed : ∀ op r, HookQuiet (policy.hooks.onReplayed.map fun hook => hook op r)
  onConflict : ∀ op n, HookQuiet (policy.hooks.onConflict.map fun hook => hook op n)
  onMismatch : ∀ op r, HookQuiet (policy.hooks.onMismatch.map fun hook => hook op r)
  onStoreError : ∀ op err, HookQuiet (policy.hooks.onStoreError.map fun hook => hook op err)

lemma observersQuiet (o : QueueOptions) : ObserversQuiet (o.engine (V := V)) where
  onAcquired op := hookQuiet_ite (quiet_hook (.OnAcquired op))
  onReplayed op r := hookQuiet_ite (quiet_hook (.OnReplayed op r))
  onConflict op n := hookQuiet_ite (quiet_hook (.OnConflict op n))
  onMismatch op r := hookQuiet_ite (quiet_hook (.OnMismatch op r))
  onStoreError op err := hookQuiet_ite (quiet_hook (.OnStoreError op err))

lemma quiet_storeError (o : QueueOptions) (op : Operation) (err : GoError) :
    Quiet (o.engine.storeError (V := V) op err) :=
  quiet_safely o ((observersQuiet o).onStoreError op err)

/-- Abandoning quietly is not noted. -/
lemma abandonQuietly_meets (o : QueueOptions) (op : Operation) (fence : ℤ) (t : Notes)
    (st : Option V) :
    Prog.Meets (deliveryContract (some op)) (fun t' out => t' = t ∧ out.2 = st)
      (abandonQuietly queueStore op fence o.engine st) t := by
  refine ⟨rfl, fun r => ?_⟩
  cases r with
  | ok status => exact ⟨rfl, rfl⟩
  | error err => exact quiet_storeError o op err (some op) t st

/-- What the outcome of the engine says about the notes: a delivery that is acknowledged on it is
justified. -/
def OutcomeJustified (t : Notes) : Except V (Result × Option GoError) × Option V → Prop
  | (.ok (.Executed _ _, none), none) => Justified t
  | (.ok (.Replayed _, none), none) => Justified t
  | _ => True

/-- The predicate is not noted. -/
lemma keep_meets (o : QueueOptions) {result : StoredResult}
    {f : Except V Bool → QueueM V (Except V (Result × Option GoError))} {op : Option Operation}
    {t : Notes} {st : Option V}
    (hf : ∀ kept, Prog.Meets (deliveryContract op) OutcomeJustified (f kept st) t) :
    Prog.Meets (deliveryContract op) OutcomeJustified ((o.engine.keep result >>= f) st) t := by
  refine Quiet.bind ?_ hf
  show Quiet ((if o.storeResult then some fun r => queueLift (.StoreResult r) else none).getD
    (fun r => pure (.ok (defaultStoreResult r))) result)
  cases o.storeResult with
  | false => exact quiet_pure _
  | true => exact fun _ _ _ => ⟨trivial, fun _ => ⟨rfl, rfl⟩⟩

/-- What the engine does with a result of the handler. -/
lemma settle_meets (o : QueueOptions) (op : Operation) (fence : ℤ) (result : StoredResult)
    (kept : Except V Bool) :
    Prog.Meets (deliveryContract (some op)) OutcomeJustified
      (settle queueStore op fence result o.engine kept none) (Notes.empty.add (some .Succeeded)) := by
  cases kept with
  | error p => exact trivial
  | ok keep =>
      cases keep with
      | false =>
          refine meets_bind_iff.mpr ((abandonQuietly_meets o op fence _ none).mono ?_)
          rintro t ⟨u, st⟩ ⟨rfl, rfl⟩
          exact justified_succeeded
      | true =>
          refine ⟨trivial, fun now => ⟨⟨rfl, rfl⟩, fun completed => ?_⟩⟩
          cases completed with
          | error err => exact (quiet_storeError o op err).bind fun _ => justified_succeeded
          | ok status => exact justified_succeeded

/-- The handler is noted by how it ends; a panic is kept. -/
lemma runHandler_meets {β : Type} {f : Except V (Except GoError StoredResult) → QueueM V β}
    {op : Operation} {post : Notes → β × Option V → Prop}
    (hok : Prog.Meets (deliveryContract (some op)) post (f (.ok (.ok okResult)) none)
      (Notes.empty.add (some .Succeeded)))
    (hlate : ∀ err, Prog.Meets (deliveryContract (some op)) post (f (.ok (.error err)) none)
      (Notes.empty.add (some .Succeeded)))
    (herror : ∀ err st, Prog.Meets (deliveryContract (some op)) post (f (.ok (.error err)) st)
      (Notes.empty.add (some .Failed))) :
    Prog.Meets (deliveryContract (some op)) post ((runHandler >>= f) none) Notes.empty := by
  refine ⟨rfl, fun ended => ?_⟩
  cases ended with
  | Panicked p => exact herror .Panicked (some p)
  | Returned err =>
      cases err with
      | some err => exact herror err none
      | none =>
          refine ⟨trivial, fun ctxErr => ?_⟩
          cases ctxErr with
          | some err => exact hlate err
          | none => exact hok

/-- **The engine keeps the contract.** -/
lemma execute_meets (o : QueueOptions) (op : Operation) :
    Prog.Meets (deliveryContract (some op)) OutcomeJustified
      (execute (queueLift .CtxErr) queueStore op (fun _ => runHandler) (o.policy (V := V)) none)
      Notes.empty := by
  have hooks := observersQuiet (V := V) o
  refine ⟨trivial, fun ctxErr => ?_⟩
  cases ctxErr with
  | some err => exact trivial
  | none =>
      refine ⟨trivial, fun now => ⟨rfl, fun begun => ?_⟩⟩
      cases begun with
      | error err =>
          refine (quiet_storeError o op err).bind fun _ => ?_
          split_ifs
          · exact trivial
          · refine runHandler_meets ?_ (fun err => ?_) fun err st => ?_
            · exact justified_succeeded
            · exact trivial
            · exact trivial
      | ok outcome =>
          cases outcome with
          | Completed record =>
              exact (quiet_safely o (hooks.onReplayed op record)).bind fun _ => justified_replayed
          | InFlight leaseUntil =>
              exact (quiet_safely o (hooks.onConflict op leaseUntil)).bind fun _ => trivial
          | Mismatch record =>
              exact (quiet_safely o (hooks.onMismatch op record)).bind fun _ => trivial
          | Acquired fence =>
              refine (quiet_safely o (hooks.onAcquired op)).bind fun _ => ?_
              refine runHandler_meets ?_ (fun err => ?_) fun err st => ?_
              · exact keep_meets o fun kept => settle_meets o op fence okResult kept
              · exact meets_bind_iff.mpr ((abandonQuietly_meets o op fence _ none).mono fun _ _ _ => trivial)
              · exact meets_bind_iff.mpr ((abandonQuietly_meets o op fence _ st).mono fun _ _ _ => trivial)

/-- The result of a delivery that is retried while another is in flight. -/
def DeliveryJustified (o : QueueOptions) (t : Notes) (out : Except V (Option QueueError)) : Prop :=
  o.onInFlight = .Retry → out = .ok none → Justified t

lemma acknowledge_meets (o : QueueOptions) (op : Option Operation) (t : Notes) (result : Result)
    (h : OutcomeJustified (V := V) t (.ok (result, none), none)) :
    (o.acknowledge (V := V) result).Meets (deliveryContract op) (DeliveryJustified o) t := by
  cases result with
  | Executed result stored => exact fun _ _ => h
  | Replayed record => exact fun _ _ => h
  | Conflict leaseUntil =>
      rw [QueueOptions.acknowledge]
      split_ifs with hack
      · intro hretry
        rw [hack] at hretry
        cases hretry
      · exact ⟨trivial, fun now => ⟨trivial, fun _ _ => nofun⟩⟩
  | Mismatch record => exact fun _ => nofun
  | StoreError err => exact fun _ => nofun
  | Zero => exact fun _ => nofun

/-- **A delivery keeps the contract.** -/
theorem wrap_meets (o : QueueOptions) (msg : QueueMessage) :
    (wrap (V := V) o msg).Meets (deliveryContract (o.operation msg).toOption) (DeliveryJustified o)
      Notes.empty := by
  have hdeliver : (o.deliver (V := V) msg).Meets (deliveryContract (o.operation msg).toOption)
      (DeliveryJustified o) Notes.empty := by
    rw [QueueOptions.deliver]
    cases o.operation msg with
    | error err => exact fun _ => nofun
    | ok op =>
        refine meets_bind_iff.mpr ((execute_meets o op).mono ?_)
        rintro t ⟨left, panicValue⟩ hout
        cases left with
        | error p => exact fun _ => nofun
        | ok out =>
            obtain ⟨result, err⟩ := out
            cases panicValue with
            | some p => exact fun _ => nofun
            | none =>
                cases err with
                | some err => exact fun _ => nofun
                | none => exact acknowledge_meets o (some op) t result hout
  refine ⟨trivial, fun due => ?_⟩
  cases due with
  | false => exact hdeliver
  | true =>
      refine ⟨trivial, fun warned => ?_⟩
      cases warned with
      | error p => exact fun _ => nofun
      | ok u => exact hdeliver

end

end Anyonce.Go
