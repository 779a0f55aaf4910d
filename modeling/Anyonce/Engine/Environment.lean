import Anyonce.Core.Interpret
import Anyonce.Engine.Settlement

/-!
# The engine in any monad

`execute` is given its store, its handler and its policy in some monad.  `executeCalls` is given nothing and
asks for everything.  They are one program: `execute` is `executeCalls` where `answers` answers.

* `ExecutePolicy.config` — the data of a policy.
* `answers` — what the store, the handler and the functions of the policy answer.
* `execute_eq_interpret` — **the engine is the engine of an arbitrary environment, answered.**  So what holds of
  every run of `executeCalls` holds of the engine behind any door.
-/

namespace Anyonce

open Interaction Interaction.Lawful

variable {m : Type → Type} [Monad m] {E : Type}

/-- Which hooks there are. -/
def ExecuteHooks.installed (hooks : ExecuteHooks m E) : Installed where
  onAcquired := hooks.onAcquired.isSome
  onReplayed := hooks.onReplayed.isSome
  onConflict := hooks.onConflict.isSome
  onMismatch := hooks.onMismatch.isSome
  onStoreError := hooks.onStoreError.isSome

/-- The data of a policy. -/
def ExecutePolicy.config (policy : ExecutePolicy m E) : PolicyConfig where
  leaseMs := policy.leaseMs
  ttlMs := policy.ttlMs
  maxResultBytes := policy.maxResultBytes
  onStoreError := policy.onStoreError
  hooks := policy.hooks.map ExecuteHooks.installed
  hookErrors := policy.hookErrors.isSome

/-- What a hook does, when it is installed. -/
def ExecuteHooks.answer (hooks : ExecuteHooks m E) : HookCall E → m (Except E Unit)
  | .OnAcquired op => fire (hooks.onAcquired.map fun hook => hook op)
  | .OnReplayed op record => fire (hooks.onReplayed.map fun hook => hook op record)
  | .OnConflict op leaseUntil => fire (hooks.onConflict.map fun hook => hook op leaseUntil)
  | .OnMismatch op record => fire (hooks.onMismatch.map fun hook => hook op record)
  | .OnStoreError op error => fire (hooks.onStoreError.map fun hook => hook op error)

/-- The answers of a store, a handler and a policy. -/
def answers (store : Store m E) (run : ℤ → m (Except E StoredResult)) (policy : ExecutePolicy m E) :
    (c : EngineCall E) → m (EngineReply E c)
  | .Begin op opts => store.begin op opts
  | .Complete op fence payload now => store.complete op fence payload now
  | .Abandon op fence => store.abandon op fence
  | .Clock => policy.clock
  | .Run fence => run fence
  | .StoreResult result => policy.storeResult result
  | .Hook call => (policy.hooks.getD {}).answer call
  | .CountHookError => policy.hookErrors.getD (pure ())

/-! ## The same program -/

section

variable (store : Store m E) (run : ℤ → m (Except E StoredResult)) (policy : ExecutePolicy m E)

omit [Monad m] in
/-- The hooks of the environment are those of the policy. -/
lemma config_hooks :
    (policy.config.policy (E := E)).hooks.getD {} = hookCalls (policy.hooks.getD {}).installed := by
  simp only [PolicyConfig.policy, ExecutePolicy.config]
  cases policy.hooks with
  | none => rfl
  | some hooks => rfl

variable [LawfulMonad m]

/-- A hook that may not be installed. -/
lemma interpret_fire {X : Type} {hook : Option X} {c : HookCall E} {call : X → m (Except E Unit)}
    {asked : Option (EngineProg E (Except E Unit))}
    (hasked : asked = if hook.isSome then some (ask (.Hook c)) else none)
    (hanswer : (policy.hooks.getD {}).answer c = fire (hook.map call)) :
    (fire asked).interpret (answers store run policy) = fire (hook.map call) := by
  cases hook with
  | none =>
      rw [hasked]
      rfl
  | some fn =>
      rw [hasked, ← hanswer]
      exact interpret_call (answers store run policy) (.Hook c)

lemma interpret_safely {p : EngineProg E (Except E Unit)} {fn : m (Except E Unit)}
    (h : p.interpret (answers store run policy) = fn) :
    (safely policy.config.policy p).interpret (answers store run policy) = safely policy fn := by
  unfold safely
  rw [interpret_bind, h]
  refine congrArg (fn >>= ·) (funext fun r => ?_)
  cases r with
  | ok u => rfl
  | error e =>
      cases hcount : policy.hookErrors with
      | none => simp [PolicyConfig.policy, ExecutePolicy.config, hcount]
      | some count => simp [PolicyConfig.policy, ExecutePolicy.config, ask, answers, hcount]

/-- A hook call, in both. -/
lemma interpret_hook {X : Type} {hook : Option X} {c : HookCall E} {call : X → m (Except E Unit)}
    {asked : Option (EngineProg E (Except E Unit))}
    (hasked : asked = if hook.isSome then some (ask (.Hook c)) else none)
    (hanswer : (policy.hooks.getD {}).answer c = fire (hook.map call)) :
    (safely policy.config.policy (fire asked)).interpret (answers store run policy)
      = safely policy (fire (hook.map call)) :=
  interpret_safely store run policy (interpret_fire store run policy hasked hanswer)

lemma interpret_storeError (op : Operation) (error : E) :
    (safely policy.config.policy (fire ((hookCalls (policy.hooks.getD {}).installed).onStoreError.map
        fun hook => hook op error))).interpret (answers store run policy)
      = safely policy (fire ((policy.hooks.getD {}).onStoreError.map fun hook => hook op error)) :=
  interpret_hook store run policy (map_installed ..) rfl

lemma interpret_onAcquired (op : Operation) :
    (safely policy.config.policy (fire ((hookCalls (policy.hooks.getD {}).installed).onAcquired.map
        fun hook => hook op))).interpret (answers store run policy)
      = safely policy (fire ((policy.hooks.getD {}).onAcquired.map fun hook => hook op)) :=
  interpret_hook store run policy (map_installed ..) rfl

lemma interpret_onReplayed (op : Operation) (record : IdempotencyRecord) :
    (safely policy.config.policy (fire ((hookCalls (policy.hooks.getD {}).installed).onReplayed.map
        fun hook => hook op record))).interpret (answers store run policy)
      = safely policy (fire ((policy.hooks.getD {}).onReplayed.map fun hook => hook op record)) :=
  interpret_hook store run policy (map_installed ..) rfl

lemma interpret_onConflict (op : Operation) (leaseUntil : ℤ) :
    (safely policy.config.policy (fire ((hookCalls (policy.hooks.getD {}).installed).onConflict.map
        fun hook => hook op leaseUntil))).interpret (answers store run policy)
      = safely policy (fire ((policy.hooks.getD {}).onConflict.map fun hook => hook op leaseUntil)) :=
  interpret_hook store run policy (map_installed ..) rfl

lemma interpret_onMismatch (op : Operation) (record : IdempotencyRecord) :
    (safely policy.config.policy (fire ((hookCalls (policy.hooks.getD {}).installed).onMismatch.map
        fun hook => hook op record))).interpret (answers store run policy)
      = safely policy (fire ((policy.hooks.getD {}).onMismatch.map fun hook => hook op record)) :=
  interpret_hook store run policy (map_installed ..) rfl

lemma interpret_abandonQuietly (op : Operation) (fence : ℤ) :
    (abandonQuietly callStore op fence (hookCalls (policy.hooks.getD {}).installed) policy.config.policy).interpret
        (answers store run policy)
      = abandonQuietly store op fence (policy.hooks.getD {}) policy := by
  unfold abandonQuietly
  refine (interpret_bind _ _ _).trans ?_
  rw [show (callStore.abandon op fence : EngineProg E _).interpret (answers store run policy) = store.abandon op fence from
    interpret_call _ _]
  refine bind_congr fun r => ?_
  cases r with
  | ok status => rfl
  | error error => exact interpret_storeError store run policy op error

/-- **The engine is the engine of an arbitrary environment, answered.** -/
theorem execute_eq_interpret (op : Operation) :
    (executeCalls op policy.config).interpret (answers store run policy) = execute store op run policy := by
  have hcall : ∀ c : EngineCall E, (ask c).interpret (answers store run policy) = answers store run policy c :=
    interpret_call _
  simp only [executeCalls, execute, interpret_bind, config_hooks]
  refine (congrArg (· >>= _) (hcall .Clock)).trans (bind_congr fun now => ?_)
  refine (congrArg (· >>= _) (hcall (.Begin op _))).trans (bind_congr fun begun => ?_)
  rcases begun with error | (fence | leaseUntil | record | record)
  · refine (interpret_bind _ _ _).trans ?_
    rw [interpret_storeError]
    refine bind_congr fun _ => ?_
    rw [show policy.config.policy.onStoreError = policy.onStoreError from rfl]
    cases policy.onStoreError with
    | FailClosed => rfl
    | FailOpen =>
        refine (interpret_bind _ _ _).trans ?_
        rw [hcall]
        refine bind_congr fun r => ?_
        cases r <;> rfl
  · refine (interpret_bind _ _ _).trans ?_
    rw [interpret_onAcquired]
    refine bind_congr fun _ => (interpret_bind _ _ _).trans ?_
    rw [hcall]
    refine bind_congr fun r => ?_
    cases r with
    | error thrown =>
        refine (interpret_bind _ _ _).trans ?_
        rw [interpret_abandonQuietly]
        rfl
    | ok result =>
        refine (interpret_bind _ _ _).trans ?_
        refine (congrArg (· >>= _) (hcall (.StoreResult result))).trans (bind_congr fun kept => ?_)
        rcases kept with thrown | (_ | _)
        · rfl
        · refine (interpret_bind _ _ _).trans ?_
          rw [interpret_abandonQuietly]
          rfl
        · refine (interpret_bind _ _ _).trans ?_
          refine (congrArg (· >>= _) (hcall .Clock)).trans (bind_congr fun now => ?_)
          refine (interpret_bind _ _ _).trans ?_
          refine (congrArg (· >>= _) (hcall (.Complete op fence _ now))).trans (bind_congr fun r => ?_)
          cases r with
          | error error =>
              refine (interpret_bind _ _ _).trans ?_
              rw [interpret_storeError]
              rfl
          | ok status => rfl
  · refine (interpret_bind _ _ _).trans ?_
    rw [interpret_onConflict]
    rfl
  · refine (interpret_bind _ _ _).trans ?_
    rw [interpret_onReplayed]
    rfl
  · refine (interpret_bind _ _ _).trans ?_
    rw [interpret_onMismatch]
    rfl

end

end Anyonce
