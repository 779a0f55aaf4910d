import Anyonce.Claim.Evidence
import Anyonce.Engine.Execute
import Anyonce.Key

/-!
# The queue door in TypeScript

`idempotent` of `packages/anyq/src/idempotent.ts`: a message handler wrapped by the engine.  A delivery
that returns is acknowledged; one that throws is retried, parked or dead-lettered by the consumer.

What the options make of a message (its scope, its identity before it is validated and its fingerprint)
may throw and is a parameter.  The two variables the deliveries of one wrapper share, `pending` and
`warned`, are the environment's: `Untranslated` is the step that reads and clears `pending` and decides
on the warning, which nothing interrupts, and `SetPending` is the step that sets it.

* `idempotent_meets` — the contract of a delivery: it completes only what its own handler has
  processed, and returns only on that or on a completed record.
-/

namespace Anyonce

open Interaction

/-! ## The code -/

/-- What a delivery does that meets another in flight: it throws for a redelivery, or counts as handled. -/
inductive InFlightMode
  | Retry
  | Ack
  deriving DecidableEq

/-- What a delivery throws: a value of the handler, the store or the options, or an error of the door. -/
inductive QueueError (E : Type)
  | Thrown (value : E)
  | InFlight (leaseUntil delayMs : ℤ)
  | FingerprintMismatch (record : IdempotencyRecord)
  | Fingerprint (cause : E)
  | Configuration (message : JsString)

/-- What the options make of a message. -/
structure QueueMessage (E : Type) where
  scope : Except (QueueError E) JsString
  identity : Except (QueueError E) JsString
  fingerprint : Except (QueueError E) JsString

/-- The options of a wrapper that are no functions; `none` where one is not given. -/
structure IdempotentOptions where
  leaseMs : Option ℤ := none
  ttlMs : Option ℤ := none
  onInFlight : Option InFlightMode := none
  onStoreError : Option StoreErrorMode := none
  hooks : Option Installed := none

/-- Half a minute. -/
def defaultLeaseMs : ℤ := 30000

/-- One day. -/
def defaultTtlMs : ℤ := 86400000

/-- One MiB. -/
def defaultMaxResultBytes : ℤ := 1048576

/-- By default every message is stored, and a response below 500, where no status counts as 500. -/
def defaultStoreResult (result : StoredResult) : Bool :=
  result.kind = .Message || result.status.getD 500 < 500

/-- The only result a queue operation ever stores. -/
def okResult : StoredResult := { kind := .Message, outcome := some .Ok }

/-- Everything a delivery asks of its surroundings, and the purges beside it. -/
inductive QueueCall (E : Type)
  | Untranslated
  | Warn
  | Begin (op : Operation) (opts : BeginOptions)
  | Complete (op : Operation) (fence : ℤ) (payload : Completion) (now : ℤ)
  | Abandon (op : Operation) (fence : ℤ)
  | Clock
  | Handle
  | Hook (call : HookCall E)
  | SetPending (leaseUntil delayMs : ℤ)
  | Purge (now : ℤ)

/-- What a call of the door gives. -/
abbrev QueueReply (E : Type) : QueueCall E → Type
  | .Untranslated => Bool
  | .Warn => Except E Unit
  | .Begin _ _ => Except E (BeginOutcome IdempotencyRecord)
  | .Complete _ _ _ _ => Except E CompleteStatus
  | .Abandon _ _ => Except E CompleteStatus
  | .Clock => ℤ
  | .Handle => Except E Unit
  | .Hook _ => Except E Unit
  | .SetPending _ _ => Unit
  | .Purge _ => Except E ℕ

/-- The door as a program over its calls. -/
abbrev QueueProg (E : Type) : Type → Type := Prog (QueueCall E) (QueueReply E)

/-- One call of a run, with its reply. -/
abbrev QueueEvent (E : Type) : Type := Event (QueueCall E) (QueueReply E)

section

variable {E : Type}

/-- Issue one command of a delivery. -/
abbrev queueAsk (c : QueueCall E) : QueueProg E (QueueReply E c) := Prog.call c

/-- The store behind the door, as calls. -/
def queueStore : Store (QueueProg E) E where
  begin op opts := queueAsk (.Begin op opts)
  complete op fence payload now := queueAsk (.Complete op fence payload now)
  abandon op fence := queueAsk (.Abandon op fence)

/-- The hooks that are installed, each as a call. -/
def queueHooks (installed : Installed) : ExecuteHooks (QueueProg E) E where
  onAcquired :=
    if installed.onAcquired then some fun op => queueAsk (.Hook (.OnAcquired op)) else none
  onReplayed :=
    if installed.onReplayed then some fun op r => queueAsk (.Hook (.OnReplayed op r)) else none
  onConflict :=
    if installed.onConflict then some fun op n => queueAsk (.Hook (.OnConflict op n)) else none
  onMismatch :=
    if installed.onMismatch then some fun op r => queueAsk (.Hook (.OnMismatch op r)) else none
  onStoreError :=
    if installed.onStoreError then some fun op e => queueAsk (.Hook (.OnStoreError op e)) else none

/-- The defaults of the engine, under what the options give. -/
def policyFor (options : IdempotentOptions) : ExecutePolicy (QueueProg E) E where
  leaseMs := options.leaseMs.getD defaultLeaseMs
  ttlMs := options.ttlMs.getD defaultTtlMs
  maxResultBytes := defaultMaxResultBytes
  storeResult result := pure (.ok (defaultStoreResult result))
  onStoreError := options.onStoreError.getD .FailClosed
  clock := queueAsk .Clock
  hooks := options.hooks.map queueHooks

/-- The resolved identity, validated. -/
def resolveKey (message : QueueMessage E) : Except (QueueError E) JsString := do
  let key ← message.identity
  match validateKey key with
  | .Ok => return key
  | .Fail reason =>
      throw (.Configuration (js ("anyonce: the resolved identity is not usable: " ++ reason)))

/-- The operation of a delivery. -/
def messageOperation (message : QueueMessage E) : Except (QueueError E) Operation := do
  let scope ← message.scope
  let key ← resolveKey message
  let fingerprint ← message.fingerprint
  return ⟨scope, key, fingerprint⟩

/-- The handler, as the engine runs it. -/
def handleMessage : QueueProg E (Except E StoredResult) := do
  match ← queueAsk .Handle with
  | .error thrown => pure (.error thrown)
  | .ok () => pure (.ok okResult)

/-- What a delivery makes of the outcome of the engine. -/
def acknowledge (options : IdempotentOptions) :
    ExecuteResult E → QueueProg E (Except (QueueError E) Unit)
  | .Executed _ _ => pure (.ok ())
  | .Replayed _ => pure (.ok ())
  | .Conflict leaseUntil =>
      if options.onInFlight.getD .Retry = .Ack then pure (.ok ())
      else do
        let now ← queueAsk .Clock
        let delayMs := max 1 (leaseUntil - now)
        queueAsk (.SetPending leaseUntil delayMs)
        pure (.error (.InFlight leaseUntil delayMs))
  | .Mismatch record => pure (.error (.FingerprintMismatch record))
  | .StoreError error => pure (.error (.Thrown error))

/-- A delivery, after the warning. -/
def deliver (options : IdempotentOptions) (message : QueueMessage E) :
    QueueProg E (Except (QueueError E) Unit) := do
  match messageOperation message with
  | .error thrown => pure (.error thrown)
  | .ok op =>
      match ← execute queueStore op (fun _ => handleMessage) (policyFor options) with
      | .error thrown => pure (.error (.Thrown thrown))
      | .ok outcome => acknowledge options outcome

/-- **One delivery of a wrapped handler.** -/
def idempotent (options : IdempotentOptions) (message : QueueMessage E) :
    QueueProg E (Except (QueueError E) Unit) := do
  if ← queueAsk .Untranslated then
    match ← queueAsk .Warn with
    | .error thrown => pure (.error (.Thrown thrown))
    | .ok () => deliver options message
  else deliver options message

end

/-! ## The contract of a delivery -/

section

variable {E : Type}

/-- The mark of a reply: how the handler ended, or that the record was completed. -/
def queueMark : QueueEvent E → Option Mark
  | ⟨.Handle, .ok ()⟩ => some .Succeeded
  | ⟨.Handle, .error _⟩ => some .Failed
  | ⟨.Begin _ _, .ok (.Completed _)⟩ => some .Replayed
  | _ => none

/-- A delivery acts on its own operation, and completes it only after its handler has succeeded. -/
def deliveryContract (op : Option Operation) : Contract (QueueCall E) (QueueReply E) Notes where
  note t ev := t.add (queueMark ev)
  asks t c :=
    match c with
    | .Begin op' _ => op = some op'
    | .Complete op' _ _ _ => op = some op' ∧ t .Succeeded = true
    | .Abandon op' _ => op = some op'
    | .Handle => op.isSome = true
    | _ => True

/-- The program makes no call the contract speaks of, and its replies are not noted. -/
abbrev Quiet {α : Type} (p : QueueProg E α) : Prop :=
  ∀ (op : Option Operation) (t : Notes), p.Meets (deliveryContract op) (fun t' _ => t' = t) t

lemma quiet_ret {α : Type} (a : α) : Quiet (Prog.Ret a : QueueProg E α) := fun _ _ => rfl

lemma quiet_hook (call : HookCall E) : Quiet (queueAsk (.Hook call)) :=
  fun _ t => ⟨trivial, fun _ => Notes.add_none t⟩

lemma quiet_safely (options : IdempotentOptions) {fn : QueueProg E (Except E Unit)} (hfn : Quiet fn) :
    Quiet (safely (policyFor options) fn) := by
  intro op t
  refine (hfn op t).bind fun r => ?_
  cases r with
  | ok u => exact rfl
  | error e => exact rfl

/-- No hook is noted. -/
structure HooksQuiet (hooks : ExecuteHooks (QueueProg E) E) : Prop where
  onAcquired : ∀ op, Quiet (fire (hooks.onAcquired.map fun hook => hook op))
  onReplayed : ∀ op r, Quiet (fire (hooks.onReplayed.map fun hook => hook op r))
  onConflict : ∀ op n, Quiet (fire (hooks.onConflict.map fun hook => hook op n))
  onMismatch : ∀ op r, Quiet (fire (hooks.onMismatch.map fun hook => hook op r))
  onStoreError : ∀ op e, Quiet (fire (hooks.onStoreError.map fun hook => hook op e))

lemma hooksQuiet_calls (installed : Installed) : HooksQuiet (queueHooks (E := E) installed) := by
  constructor
  · intro op
    unfold queueHooks
    cases installed.onAcquired
    · exact quiet_ret _
    · exact quiet_hook _
  · intro op r
    unfold queueHooks
    cases installed.onReplayed
    · exact quiet_ret _
    · exact quiet_hook _
  · intro op n
    unfold queueHooks
    cases installed.onConflict
    · exact quiet_ret _
    · exact quiet_hook _
  · intro op r
    unfold queueHooks
    cases installed.onMismatch
    · exact quiet_ret _
    · exact quiet_hook _
  · intro op e
    unfold queueHooks
    cases installed.onStoreError
    · exact quiet_ret _
    · exact quiet_hook _

lemma hooksQuiet (options : IdempotentOptions) :
    HooksQuiet ((policyFor (E := E) options).hooks.getD {}) := by
  show HooksQuiet ((options.hooks.map queueHooks).getD {})
  cases options.hooks with
  | none => exact ⟨fun _ => quiet_ret _, fun _ _ => quiet_ret _, fun _ _ => quiet_ret _,
      fun _ _ => quiet_ret _, fun _ _ => quiet_ret _⟩
  | some installed => exact hooksQuiet_calls installed

/-- Abandoning quietly is not noted. -/
lemma abandonQuietly_meets (options : IdempotentOptions) (op : Operation) (fence : ℤ) (t : Notes) :
    (abandonQuietly queueStore op fence ((policyFor (E := E) options).hooks.getD {})
      (policyFor options)).Meets (deliveryContract (some op)) (fun t' _ => t' = t) t := by
  refine ⟨rfl, fun r => ?_⟩
  cases r with
  | ok status => exact rfl
  | error e => exact quiet_safely options ((hooksQuiet options).onStoreError op e) (some op) t

/-- What the outcome of the engine says about the notes. -/
def OutcomeJustified (t : Notes) : Except E (ExecuteResult E) → Prop
  | .ok (.Executed _ _) => Justified t
  | .ok (.Replayed _) => Justified t
  | _ => True

/-- The handler is noted by how it ends. -/
lemma handleMessage_meets {β : Type} {op : Operation} {post : Notes → β → Prop}
    {f : Except E StoredResult → QueueProg E β} {t : Notes}
    (hok : (f (.ok okResult)).Meets (deliveryContract (some op)) post (t.add (some .Succeeded)))
    (herror : ∀ thrown,
      (f (.error thrown)).Meets (deliveryContract (some op)) post (t.add (some .Failed))) :
    (handleMessage >>= f).Meets (deliveryContract (some op)) post t := by
  refine ⟨rfl, fun r => ?_⟩
  cases r with
  | ok u => exact hok
  | error thrown => exact herror thrown

/-- **The engine keeps the contract.** -/
lemma execute_meets (options : IdempotentOptions) (op : Operation) :
    (execute queueStore op (fun _ => handleMessage) (policyFor (E := E) options)).Meets
      (deliveryContract (some op)) OutcomeJustified Notes.empty := by
  have hooks := hooksQuiet (E := E) options
  refine ⟨trivial, fun now => ⟨rfl, fun begun => ?_⟩⟩
  cases begun with
  | error error =>
      refine (quiet_safely options (hooks.onStoreError op error) _ _).bind fun _ => ?_
      cases hmode : (policyFor (E := E) options).onStoreError with
      | FailClosed => exact trivial
      | FailOpen =>
          refine handleMessage_meets ?_ fun thrown => ?_
          · exact justified_succeeded
          · exact trivial
  | ok outcome =>
      cases outcome with
      | Completed record =>
          exact (quiet_safely options (hooks.onReplayed op record) _ _).bind fun _ => justified_replayed
      | InFlight leaseUntil =>
          exact (quiet_safely options (hooks.onConflict op leaseUntil) _ _).bind fun _ => trivial
      | Mismatch record =>
          exact (quiet_safely options (hooks.onMismatch op record) _ _).bind fun _ => trivial
      | Acquired fence =>
          refine (quiet_safely options (hooks.onAcquired op) _ _).bind fun _ => ?_
          refine handleMessage_meets ?_ fun thrown => ?_
          · refine ⟨trivial, fun now' => ⟨⟨rfl, rfl⟩, fun completed => ?_⟩⟩
            cases completed with
            | error error =>
                exact (quiet_safely options (hooks.onStoreError op error) _ _).bind fun _ =>
                  justified_succeeded
            | ok status => exact justified_succeeded
          · exact (abandonQuietly_meets options op fence _).bind fun _ => trivial

/-- The result of a delivery that is retried while another is in flight. -/
def DeliveryJustified (options : IdempotentOptions) (t : Notes)
    (out : Except (QueueError E) Unit) : Prop :=
  options.onInFlight.getD .Retry = .Retry → out = .ok () → Justified t

lemma acknowledge_meets (options : IdempotentOptions) (op : Option Operation) (t : Notes)
    (outcome : ExecuteResult E) (h : OutcomeJustified t (.ok outcome)) :
    (acknowledge options outcome).Meets (deliveryContract op) (DeliveryJustified options) t := by
  cases outcome with
  | Executed result stored => exact fun _ _ => h
  | Replayed record => exact fun _ _ => h
  | Conflict leaseUntil =>
      rw [acknowledge]
      split_ifs with hack
      · intro hretry
        rw [hack] at hretry
        cases hretry
      · exact ⟨trivial, fun now => ⟨trivial, fun _ => nofun⟩⟩
  | Mismatch record => exact fun _ => nofun
  | StoreError error => exact fun _ => nofun

/-- **A delivery keeps the contract.** -/
theorem idempotent_meets (options : IdempotentOptions) (message : QueueMessage E) :
    (idempotent options message).Meets (deliveryContract (messageOperation message).toOption)
      (DeliveryJustified options) Notes.empty := by
  have hdeliver : (deliver options message).Meets
      (deliveryContract (messageOperation message).toOption) (DeliveryJustified options)
      Notes.empty := by
    rw [deliver]
    cases messageOperation message with
    | error thrown => exact fun _ => nofun
    | ok op =>
        refine meets_bind_iff.mpr ((execute_meets options op).mono ?_)
        intro t out hout
        cases out with
        | error thrown => exact fun _ => nofun
        | ok outcome => exact acknowledge_meets options (some op) t outcome hout
  refine ⟨trivial, fun due => ?_⟩
  cases due with
  | false => exact hdeliver
  | true =>
      refine ⟨trivial, fun warned => ?_⟩
      cases warned with
      | error thrown => exact fun _ => nofun
      | ok u => exact hdeliver

end

end Anyonce
