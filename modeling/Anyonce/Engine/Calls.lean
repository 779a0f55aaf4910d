import Anyonce.Engine.Execute
import Anyonce.Go.Engine

/-!
# What the engine calls

The engine makes no call that its store, its handler and its policy do not make.  So a door that gives it
nothing but harmless calls runs a harmless program, whatever the engine does with them.

* `only_execute` — in TypeScript, over programs.
* `onlyIn_execute` — in Go, over programs with a state beside them.
-/

namespace Anyonce

open Interaction

/-- What an optional function is, when it is set. -/
lemma forall_installed {X : Type} {P : X → Prop} {installed : Bool} {fn : X} (h : P fn) :
    ∀ fn' ∈ (if installed then some fn else none), P fn' := by
  cases installed with
  | false => simp
  | true => simpa using h

section

variable {C : Type} {R : C → Type} {E : Type} {Q : C → Prop}

/-- A store that makes only the calls of `Q`. -/
structure Store.Only (Q : C → Prop) (store : Store (Prog C R) E) : Prop where
  begin : ∀ op opts, (store.begin op opts).Only Q
  complete : ∀ op fence payload now, (store.complete op fence payload now).Only Q
  abandon : ∀ op fence, (store.abandon op fence).Only Q

/-- Hooks that make only the calls of `Q`. -/
structure ExecuteHooks.Only (Q : C → Prop) (hooks : ExecuteHooks (Prog C R) E) : Prop where
  onAcquired : ∀ hook ∈ hooks.onAcquired, ∀ op, (hook op).Only Q
  onReplayed : ∀ hook ∈ hooks.onReplayed, ∀ op r, (hook op r).Only Q
  onConflict : ∀ hook ∈ hooks.onConflict, ∀ op n, (hook op n).Only Q
  onMismatch : ∀ hook ∈ hooks.onMismatch, ∀ op r, (hook op r).Only Q
  onStoreError : ∀ hook ∈ hooks.onStoreError, ∀ op e, (hook op e).Only Q

/-- A policy that makes only the calls of `Q`. -/
structure ExecutePolicy.Only (Q : C → Prop) (policy : ExecutePolicy (Prog C R) E) : Prop where
  storeResult : ∀ result, (policy.storeResult result).Only Q
  clock : policy.clock.Only Q
  hooks : (policy.hooks.getD {}).Only Q
  hookErrors : ∀ count ∈ policy.hookErrors, count.Only Q

variable {store : Store (Prog C R) E} {policy : ExecutePolicy (Prog C R) E}

lemma only_fire {X : Type} {hook : Option X} {call : X → Prog C R (Except E Unit)}
    (h : ∀ fn ∈ hook, (call fn).Only Q) : (fire (hook.map call)).Only Q := by
  cases hook with
  | none => exact only_ret _
  | some fn => exact h fn rfl

lemma ExecutePolicy.Only.safely (hp : policy.Only Q) {fn : Prog C R (Except E Unit)} (hfn : fn.Only Q) :
    (safely policy fn).Only Q := by
  refine only_bind hfn fun r => ?_
  cases r with
  | ok u => exact only_ret _
  | error e =>
      dsimp only
      split
      · exact only_ret _
      · next count hcount => exact hp.hookErrors count hcount

lemma ExecutePolicy.Only.storeError (hp : policy.Only Q) (op : Operation) (e : E) :
    (Anyonce.safely policy (fire ((policy.hooks.getD {}).onStoreError.map fun hook => hook op e))).Only Q :=
  hp.safely (only_fire fun hook hhook => hp.hooks.onStoreError hook hhook op e)

lemma only_abandonQuietly (hs : store.Only Q) (hp : policy.Only Q) (op : Operation) (fence : ℤ) :
    (abandonQuietly store op fence (policy.hooks.getD {}) policy).Only Q := by
  refine only_bind (hs.abandon op fence) fun r => ?_
  cases r with
  | ok status => exact only_ret _
  | error e => exact hp.storeError op e

/-- **The engine makes only the calls of what it is given.** -/
lemma only_execute (hs : store.Only Q) (hp : policy.Only Q) (op : Operation)
    {run : ℤ → Prog C R (Except E StoredResult)} (hrun : ∀ fence, (run fence).Only Q) :
    (execute store op run policy).Only Q := by
  refine only_bind hp.clock fun now => only_bind (hs.begin op _) fun begun => ?_
  cases begun with
  | error e =>
      refine only_bind (hp.storeError op e) fun _ => ?_
      split
      · exact only_ret _
      · refine only_bind (hrun 0) fun r => ?_
        cases r <;> exact only_ret _
  | ok outcome =>
      cases outcome with
      | Completed record =>
          exact only_bind (hp.safely (only_fire fun hook h => hp.hooks.onReplayed hook h op record))
            fun _ => only_ret _
      | InFlight leaseUntil =>
          exact only_bind (hp.safely (only_fire fun hook h => hp.hooks.onConflict hook h op leaseUntil))
            fun _ => only_ret _
      | Mismatch record =>
          exact only_bind (hp.safely (only_fire fun hook h => hp.hooks.onMismatch hook h op record))
            fun _ => only_ret _
      | Acquired fence =>
          refine only_bind (hp.safely (only_fire fun hook h => hp.hooks.onAcquired hook h op)) fun _ => ?_
          refine only_bind (hrun fence) fun r => ?_
          cases r with
          | error thrown => exact only_bind (only_abandonQuietly hs hp op fence) fun _ => only_ret _
          | ok result =>
              refine only_bind (hp.storeResult result) fun kept => ?_
              cases kept with
              | error thrown => exact only_ret _
              | ok keep =>
                  cases keep with
                  | false => exact only_bind (only_abandonQuietly hs hp op fence) fun _ => only_ret _
                  | true =>
                      refine only_bind hp.clock fun now => only_bind (hs.complete op fence _ now) fun r => ?_
                      cases r with
                      | error e => exact only_bind (hp.storeError op e) fun _ => only_ret _
                      | ok status => exact only_ret _

end

namespace Go

section

variable {C : Type} {R : C → Type} {S V α β : Type} {Q : C → Prop}

/-- A computation with a state that makes only the calls of `Q`, from any state. -/
def OnlyIn (Q : C → Prop) (x : StateT S (Prog C R) α) : Prop := ∀ st, (x st).Only Q

lemma onlyIn_pure (a : α) : OnlyIn Q (pure a : StateT S (Prog C R) α) := fun _ => trivial

lemma onlyIn_lift {p : Prog C R α} (hp : p.Only Q) : OnlyIn Q (StateT.lift p : StateT S (Prog C R) α) :=
  fun st => only_bind hp fun a => only_ret (a, st)

lemma onlyIn_call {c : C} (hc : Q c) : OnlyIn Q (StateT.lift (Prog.call c) : StateT S (Prog C R) (R c)) :=
  onlyIn_lift ⟨hc, fun _ => trivial⟩

lemma onlyIn_bind {x : StateT S (Prog C R) α} {f : α → StateT S (Prog C R) β} (hx : OnlyIn Q x)
    (hf : ∀ a, OnlyIn Q (f a)) : OnlyIn Q (x >>= f) :=
  fun st => only_bind (hx st) fun p => hf p.1 p.2

/-- A store that makes only the calls of `Q`. -/
structure Store.OnlyIn (Q : C → Prop) (store : Store (StateT S (Prog C R))) : Prop where
  begin : ∀ ctx op opts, Go.OnlyIn Q (store.begin ctx op opts)
  complete : ∀ ctx op fence payload now, Go.OnlyIn Q (store.complete ctx op fence payload now)
  abandon : ∀ ctx op fence, Go.OnlyIn Q (store.abandon ctx op fence)

/-- A policy that makes only the calls of `Q`. -/
structure Policy.OnlyIn (Q : C → Prop) (policy : Policy (StateT S (Prog C R)) V) : Prop where
  storeResult : ∀ fn ∈ policy.storeResult, ∀ result, Go.OnlyIn Q (fn result)
  now : Go.OnlyIn Q policy.now
  onAcquired : ∀ hook ∈ policy.hooks.onAcquired, ∀ op, Go.OnlyIn Q (hook op)
  onReplayed : ∀ hook ∈ policy.hooks.onReplayed, ∀ op r, Go.OnlyIn Q (hook op r)
  onConflict : ∀ hook ∈ policy.hooks.onConflict, ∀ op t, Go.OnlyIn Q (hook op t)
  onMismatch : ∀ hook ∈ policy.hooks.onMismatch, ∀ op r, Go.OnlyIn Q (hook op r)
  onStoreError : ∀ hook ∈ policy.hooks.onStoreError, ∀ op err, Go.OnlyIn Q (hook op err)
  hookErrors : ∀ count ∈ policy.hookErrors, Go.OnlyIn Q count

variable {store : Store (StateT S (Prog C R))} {policy : Policy (StateT S (Prog C R)) V}

/-- The defaults make no call. -/
lemma Policy.OnlyIn.normalized (hp : policy.OnlyIn Q) : policy.normalized.OnlyIn Q where
  storeResult := by
    intro fn hfn result
    obtain rfl := Option.some.inj hfn
    cases hset : policy.storeResult with
    | none => exact onlyIn_pure _
    | some storeResult => exact hp.storeResult storeResult hset result
  now := hp.now
  onAcquired := hp.onAcquired
  onReplayed := hp.onReplayed
  onConflict := hp.onConflict
  onMismatch := hp.onMismatch
  onStoreError := hp.onStoreError
  hookErrors := hp.hookErrors

lemma Policy.OnlyIn.safely (hp : policy.OnlyIn Q) {X : Type} {hook : Option X}
    {call : X → StateT S (Prog C R) (Except V Unit)} (h : ∀ fn ∈ hook, Go.OnlyIn Q (call fn)) :
    Go.OnlyIn Q (policy.safely (hook.map call)) := by
  cases hook with
  | none => exact onlyIn_pure ()
  | some fn =>
      refine onlyIn_bind (h fn rfl) fun r => ?_
      cases r with
      | ok u => exact onlyIn_pure ()
      | error p =>
          dsimp only
          split
          · exact onlyIn_pure ()
          · next count hcount => exact hp.hookErrors count hcount

lemma Policy.OnlyIn.storeError (hp : policy.OnlyIn Q) (op : Operation) (err : GoError) :
    Go.OnlyIn Q (policy.storeError op err) :=
  hp.safely fun hook h => hp.onStoreError hook h op err

lemma onlyIn_abandonQuietly (hs : store.OnlyIn Q) (hp : policy.OnlyIn Q) (op : Operation) (fence : ℤ) :
    OnlyIn Q (abandonQuietly store op fence policy) := by
  refine onlyIn_bind (hs.abandon _ op fence) fun r => ?_
  cases r with
  | ok status => exact onlyIn_pure ()
  | error err => exact hp.storeError op err

lemma Policy.OnlyIn.keep (hp : policy.OnlyIn Q) (result : StoredResult) :
    Go.OnlyIn Q (policy.keep result) := by
  unfold Policy.keep
  split
  · exact onlyIn_pure _
  · next fn hfn => exact hp.storeResult fn hfn result

lemma onlyIn_settle (hs : store.OnlyIn Q) (hp : policy.OnlyIn Q) (op : Operation) (fence : ℤ)
    (result : StoredResult) (kept : Except V Bool) :
    OnlyIn Q (settle store op fence result policy kept) := by
  cases kept with
  | error p => exact onlyIn_pure _
  | ok keep =>
      cases keep with
      | false => exact onlyIn_bind (onlyIn_abandonQuietly hs hp op fence) fun _ => onlyIn_pure _
      | true =>
          refine onlyIn_bind hp.now fun now => onlyIn_bind (hs.complete _ op fence _ now) fun r => ?_
          cases r with
          | ok status => exact onlyIn_pure _
          | error err => exact onlyIn_bind (hp.storeError op err) fun _ => onlyIn_pure _

lemma onlyIn_executeNormalized (hs : store.OnlyIn Q) (hp : policy.OnlyIn Q) (op : Operation)
    {run : ℤ → StateT S (Prog C R) (Except V (Except GoError StoredResult))}
    (hrun : ∀ fence, OnlyIn Q (run fence)) : OnlyIn Q (executeNormalized store op run policy) := by
  refine onlyIn_bind hp.now fun now => onlyIn_bind (hs.begin _ op _) fun begun => ?_
  cases begun with
  | error err =>
      refine onlyIn_bind (hp.storeError op err) fun _ => ?_
      split_ifs
      · exact onlyIn_pure _
      · refine onlyIn_bind (hrun 0) fun r => ?_
        rcases r with p | runErr | result <;> exact onlyIn_pure _
  | ok outcome =>
      cases outcome with
      | Completed record =>
          exact onlyIn_bind (hp.safely fun hook h => hp.onReplayed hook h op record) fun _ => onlyIn_pure _
      | InFlight leaseUntil =>
          exact onlyIn_bind (hp.safely fun hook h => hp.onConflict hook h op leaseUntil)
            fun _ => onlyIn_pure _
      | Mismatch record =>
          exact onlyIn_bind (hp.safely fun hook h => hp.onMismatch hook h op record) fun _ => onlyIn_pure _
      | Acquired fence =>
          refine onlyIn_bind (hp.safely fun hook h => hp.onAcquired hook h op) fun _ => ?_
          refine onlyIn_bind (hrun fence) fun r => ?_
          rcases r with p | runErr | result
          · exact onlyIn_pure _
          · exact onlyIn_bind (onlyIn_abandonQuietly hs hp op fence) fun _ => onlyIn_pure _
          · exact onlyIn_bind (hp.keep result) fun kept => onlyIn_settle hs hp op fence result kept

/-- **The engine makes only the calls of what it is given.** -/
lemma onlyIn_execute (hs : store.OnlyIn Q) (hp : policy.OnlyIn Q) (op : Operation)
    {ctxErr : StateT S (Prog C R) (Option GoError)} (hctx : OnlyIn Q ctxErr)
    {run : ℤ → StateT S (Prog C R) (Except V (Except GoError StoredResult))}
    (hrun : ∀ fence, OnlyIn Q (run fence)) : OnlyIn Q (execute ctxErr store op run policy) := by
  refine onlyIn_bind hctx fun err => ?_
  cases err with
  | some err => exact onlyIn_pure _
  | none => exact onlyIn_executeNormalized hs hp.normalized op hrun

end

end Go

end Anyonce
