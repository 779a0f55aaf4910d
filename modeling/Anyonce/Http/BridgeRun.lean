import Anyonce.Http.Bridge
import Anyonce.Http.Streaming

/-!
# Runs of the bridge

**The engine behind the bridge** is the engine of an arbitrary environment, whose calls the bridge answers: it passes
them on, marks the request as degraded when a failure of the store is reported, and answers a run of the handler by
the handler and the capture of its response.

* `steps_degraded` — a failure is reported before the handler runs exactly when `begin` failed.
* `answered_of_runs` — how each call of the engine is answered.
* `bridge_run` — a request passes by the layer, or is refused before the engine, or the engine runs.
* `handler_run` — where the handler stands in a run of the engine.
-/

namespace Anyonce

open Interaction Interaction.Lawful

/-! ## What the engine does -/

section

variable {E : Type} {op : Operation} {cfg : PolicyConfig} {t : List (EngineEvent E)} {out : Except E (ExecuteResult E)}

/-- The operation of a store call. -/
def EngineCall.operation : EngineCall E → Option Operation
  | .Begin op _ => some op
  | .Complete op _ _ _ => some op
  | .Abandon op _ => some op
  | _ => none

/-- What follows from the answer of `begin`, for the engine. -/
def PathFollows (cfg : PolicyConfig) (t : List (EngineEvent E)) (out : Except E (ExecuteResult E)) :
    Except E (BeginOutcome IdempotencyRecord) → Prop
  | .ok (.Acquired fence) => ∃ r, ⟨.Run fence, r⟩ ∈ t
  | .ok (.Completed record) => out = .ok (.Replayed record) ∧ ∀ e ∈ t, e.1.isRun = false
  | .ok (.InFlight leaseUntil) => out = .ok (.Conflict leaseUntil) ∧ ∀ e ∈ t, e.1.isRun = false
  | .ok (.Mismatch record) => out = .ok (.Mismatch record) ∧ ∀ e ∈ t, e.1.isRun = false
  | .error error => match cfg.onStoreError with
      | .FailClosed => out = .ok (.StoreError error) ∧ ∀ e ∈ t, e.1.isRun = false
      | .FailOpen => ∃ r, ⟨.Run 0, r⟩ ∈ t

lemma Path.follows (h : Path op cfg t out) {op' : Operation} {opts : BeginOptions}
    {r : Except E (BeginOutcome IdempotencyRecord)} (hmem : ⟨.Begin op' opts, r⟩ ∈ t) : PathFollows cfg t out r := by
  cases h <;> simp [opening] at hmem
  all_goals obtain ⟨⟨-, -⟩, rfl⟩ := hmem
  all_goals simp [PathFollows, opening, EngineCall.isRun, *]

lemma Path.operation (h : Path op cfg t out) {c : EngineCall E} {r : EngineReply E c} {op' : Operation}
    (hmem : ⟨c, r⟩ ∈ t) (hop : c.operation = some op') : op' = op := by
  cases c with
  | Begin op₀ opts => cases h <;> simp_all [opening, EngineCall.operation]
  | Complete op₀ fence payload now => cases h <;> simp_all [opening, EngineCall.operation]
  | Abandon op₀ fence => cases h <;> simp_all [opening, EngineCall.operation]
  | Clock => cases hop
  | Run fence => cases hop
  | StoreResult result => cases hop
  | Hook call => cases hop
  | CountHookError => cases hop

/-- The store is asked first of all. -/
lemma Path.begun (h : Path op cfg t out) : ∃ opts r, ⟨.Begin op opts, r⟩ ∈ t := by
  cases h <;> simp [opening]

lemma Path.threw_or_ran (h : Path op cfg t out) {thrown : E} (hout : out = .error thrown) :
    ∃ fence r, ⟨.Run fence, r⟩ ∈ t ∧ (r = .error thrown ∨ ∃ result, r = .ok result) := by
  cases h <;> simp_all [opening]

/-- `begin` comes before the handler. -/
lemma Path.begin_first (h : Path op cfg t out) {t₁ t₂ : List (EngineEvent E)} {fence : ℤ} {r : Except E StoredResult}
    (ht : t = t₁ ++ ⟨.Run fence, r⟩ :: t₂) : ∀ op' opts r', ⟨.Begin op' opts, r'⟩ ∉ t₂ := by
  cases h <;> simp [opening, List.cons_eq_append_iff] at ht
  all_goals
    obtain ⟨-, ⟨-, rfl⟩⟩ := ht
    simp

end

/-! ## When a response is degraded -/

section

variable {E : Type}

/-- A failure of the store is reported. -/
def EngineCall.isStoreError : EngineCall E → Bool
  | .Hook (.OnStoreError _ _) => true
  | _ => false

lemma only_safely_hook {Q : EngineCall E → Prop} (cfg : PolicyConfig) {fn : EngineProg E (Except E Unit)} (hfn : fn.Only Q)
    (hcount : Q .CountHookError) : (safely cfg.policy fn).Only Q := by
  refine only_bind hfn fun r => ?_
  cases r with
  | ok u => exact only_ret ()
  | error e =>
      cases hc : cfg.hookErrors with
      | false => simp [PolicyConfig.policy, hc]
      | true => simpa [PolicyConfig.policy, hc, ask, Prog.call] using hcount

/-- Neither a report of a failure nor another `begin`. -/
def EngineCall.Calm (c : EngineCall E) : Prop := c.isStoreError = false ∧ ∀ op opts, c ≠ .Begin op opts

lemma only_calm_hook {call : HookCall E} {b : Bool} (hcall : (EngineCall.Hook call).isStoreError = false) :
    (fire (if b then some (ask (.Hook call)) else none)).Only EngineCall.Calm := by
  cases b with
  | false => exact only_ret _
  | true => exact ⟨⟨hcall, by simp⟩, fun _ => trivial⟩

/-- The engine runs its handler right after the hooks of an outcome, if at all. -/
lemma steps_calm {p : EngineProg E Unit} (hp : p.Only EngineCall.Calm)
    {f : Unit → EngineProg E (Except E (ExecuteResult E))} {u : List (EngineEvent E)} {fence : ℤ}
    {k : Except E StoredResult → EngineProg E (Except E (ExecuteResult E))}
    (h : Steps (p >>= f) u (.Call (.Run fence) k)) (hfirst : ∀ fence' r', ⟨.Run fence', r'⟩ ∉ u)
    (hf : (∃ a, f () = .Ret a) ∨ ∃ fence' k', f () = .Call (.Run fence') k') : ∀ e ∈ u, e.1.Calm := by
  rcases h.of_bind with ⟨p', h⟩ | ⟨t₁, t₂, a, rfl, h₁, h₂⟩
  · exact h.only hp
  · obtain rfl : t₂ = [] := by
      rcases hf with ⟨out, hret⟩ | ⟨fence', k', hcall⟩
      · rw [show f a = .Ret out from hret] at h₂
        cases h₂
      · rw [show f a = .Call (.Run fence') k' from hcall] at h₂
        cases h₂ with
        | refl _ => rfl
        | call r' _ => exact absurd (by simp) (hfirst fence' r')
    rw [List.append_nil]
    exact Steps.only h₁ hp

/-- **A handler runs after a failure of the store was reported exactly when `begin` failed.** -/
lemma steps_degraded {op : Operation} {cfg : PolicyConfig} {installed : Installed} (hinstalled : cfg.hooks = some installed)
    (hstore : installed.onStoreError = true) {u : List (EngineEvent E)} {fence : ℤ}
    {k : Except E StoredResult → EngineProg E (Except E (ExecuteResult E))}
    (h : Steps (executeCalls op cfg) u (.Call (.Run fence) k)) :
    (∃ e ∈ u, e.1.isStoreError = true) ↔ BeginThrew u op := by
  have hfirst := steps_run_first h
  have hhooks : (cfg.policy (E := E)).hooks.getD {} = hookCalls installed := by
    rw [PolicyConfig.policy, hinstalled]
    rfl
  cases h with
  | call now h =>
      cases h with
      | @call _ _ begun u' _ h =>
          rw [hhooks] at h
          cases begun with
          | error error =>
              refine iff_of_true ?_ ⟨_, error, List.mem_cons_of_mem _ List.mem_cons_self⟩
              simp only [hookCalls, hstore, if_true, Option.map_some, fire] at h
              cases h with
              | call r h => exact ⟨⟨.Hook (.OnStoreError op error), r⟩, by simp, rfl⟩
          | ok outcome =>
              have hcalm : ∀ e ∈ u', e.1.Calm := by
                simp only [List.mem_cons, not_or] at hfirst
                have hnone := fun fence' r' => (hfirst fence' r').2.2
                cases outcome with
                | Acquired fence' =>
                    simp only [hookCalls, map_installed] at h
                    exact steps_calm (only_safely_hook cfg (only_calm_hook rfl) ⟨rfl, by simp⟩) h hnone (Or.inr ⟨_, _, rfl⟩)
                | InFlight leaseUntil =>
                    simp only [hookCalls, map_installed] at h
                    exact steps_calm (only_safely_hook cfg (only_calm_hook rfl) ⟨rfl, by simp⟩) h hnone (Or.inl ⟨_, rfl⟩)
                | Completed record =>
                    simp only [hookCalls, map_installed] at h
                    exact steps_calm (only_safely_hook cfg (only_calm_hook rfl) ⟨rfl, by simp⟩) h hnone (Or.inl ⟨_, rfl⟩)
                | Mismatch record =>
                    simp only [hookCalls, map_installed] at h
                    exact steps_calm (only_safely_hook cfg (only_calm_hook rfl) ⟨rfl, by simp⟩) h hnone (Or.inl ⟨_, rfl⟩)
              refine iff_of_false ?_ ?_
              · rintro ⟨e, he, hstoreError⟩
                rcases List.mem_cons.mp he with rfl | he
                · cases hstoreError
                · rcases List.mem_cons.mp he with rfl | he
                  · cases hstoreError
                  · rw [(hcalm e he).1] at hstoreError
                    cases hstoreError
              · rintro ⟨opts, error, hmem⟩
                rcases List.mem_cons.mp hmem with heq | hmem
                · cases heq
                · rcases List.mem_cons.mp hmem with heq | hmem
                  · cases heq
                  · exact (hcalm _ hmem).2 op opts rfl

end

/-! ## The engine behind the bridge -/

section

variable {E Res : Type}

/-- The policy of the engine behind the bridge: its `onStoreError` hook is always installed. -/
def PolicyConfig.bridged (cfg : PolicyConfig) : PolicyConfig :=
  { cfg with hooks := some { cfg.hooks.getD {} with onStoreError := true } }

lemma isSome_map_installed {A B : Type} (b : Bool) (a : A) (f : A → B) :
    ((if b then some a else none).map f).isSome = b := by
  cases b <;> rfl

lemma hooksOf_getD {m : Type → Type} (ask : (c : EngineCall E) → m (EngineReply E c)) (hooks : Option Installed) :
    (hooks.map (hooksOf ask)).getD {} = hooksOf ask (hooks.getD {}) := by
  cases hooks with
  | none => rfl
  | some installed => rfl

lemma lift_config {m : Type → Type} [Monad m] (cfg : PolicyConfig) (ask : (c : EngineCall E) → m (EngineReply E c)) :
    ((cfg.policyOf ask).lift : ExecutePolicy (BridgeM m Res) E).config = cfg.bridged := by
  simp only [ExecutePolicy.config, ExecutePolicy.lift, PolicyConfig.policyOf, hooksOf_getD, PolicyConfig.bridged,
    Option.map_some, ExecuteHooks.installed, hooksOf, isSome_map_installed, Option.isSome_some]

/-- What the bridge answers a command of the engine with: the events, and the state they leave. -/
inductive Answered (key : JsString) (degraded : HeaderFields) : BridgeState Res → (c : EngineCall E) → EngineReply E c →
    List (BridgeEvent E Res) → BridgeState Res → Prop
  | asked (s : BridgeState Res) (c : EngineCall E) (r : EngineReply E c) (hrun : c.isRun = false)
      (hstore : ∀ op error, c ≠ .Hook (.OnStoreError op error)) : Answered key degraded s c r [⟨.Engine c, r⟩] s
  | silent (s : BridgeState Res) (call : HookCall E) (hstore : ∀ op error, call ≠ .OnStoreError op error) :
      Answered key degraded s (.Hook call) (.ok ()) [] s
  | storeError (s : BridgeState Res) (op : Operation) (error : E) (r : Except E Unit) (t : List (BridgeEvent E Res))
      (ht : t = [] ∨ t = [⟨.Engine (.Hook (.OnStoreError op error)), r⟩]) :
      Answered key degraded s (.Hook (.OnStoreError op error)) r t { s with degraded := true }
  | threw (s : BridgeState Res) (fence : ℤ) (thrown : E) :
      Answered key degraded s (.Run fence) (.error thrown) [⟨.Run (some ⟨key, fence⟩), .error thrown⟩] s
  | uncaptured (s : BridgeState Res) (fence : ℤ) (res : Res) (thrown : E) :
      Answered key degraded s (.Run fence) (.error thrown) [⟨.Run (some ⟨key, fence⟩), .ok res⟩,
        ⟨.Capture res (if s.degraded then degraded else []), .error thrown⟩] s
  | captured (s : BridgeState Res) (fence : ℤ) (res : Res) (r : Except E StoredResult) :
      Answered key degraded s (.Run fence) r [⟨.Run (some ⟨key, fence⟩), .ok res⟩,
        ⟨.Capture res (if s.degraded then degraded else []), .ok ()⟩, ⟨.Stored, r⟩]
        { s with capture := some (res, if s.degraded then degraded else []) }
  | counted (s : BridgeState Res) : Answered key degraded s .CountHookError () [] s

section

variable {cfg : BridgeConfig} {unreachable : E} {key : JsString}

/-- The header of a degraded response. -/
def degradedHeaders : HeaderFields := [(js "Idempotency-Degraded", js "true")]

/-- The answers of the bridge in an arbitrary environment. -/
def bridgeAnswers (cfg : BridgeConfig) (unreachable : E) (key : JsString) :
    (c : EngineCall E) → BridgeM (BridgeProg E Res) Res (EngineReply E c) :=
  let options := cfg.options Prog.call
  answers options.store.lift (runCallback (transportOf Prog.call unreachable) options key) options.policy.lift

/-- A command that is passed on. -/
lemma answered_lift {c : EngineCall E} (hrun : c.isRun = false) (hstore : ∀ op error, c ≠ .Hook (.OnStoreError op error))
    {s s' : BridgeState Res} {t : List (BridgeEvent E Res)} {r : EngineReply E c}
    (h : Runs ((StateT.lift (Prog.call (BridgeCall.Engine c)) : BridgeM (BridgeProg E Res) Res (EngineReply E c)) s) t (r, s')) :
    Answered key degradedHeaders s c r t s' := by
  obtain ⟨hcall, rfl⟩ := runs_lift_iff.mp h
  obtain rfl := runs_prog_call_iff.mp hcall
  exact .asked s c r hrun hstore

/-- A hook that is passed on, when it is installed. -/
lemma answered_hook {installed : Bool} {call : HookCall E} (hstore : ∀ op error, call ≠ .OnStoreError op error)
    {s s' : BridgeState Res} {t : List (BridgeEvent E Res)} {r : Except E Unit}
    (h : Runs ((fire (if installed then some (StateT.lift (Prog.call (BridgeCall.Engine (.Hook call)))) else none) :
      BridgeM (BridgeProg E Res) Res (Except E Unit)) s) t (r, s')) :
    Answered key degradedHeaders s (.Hook call) r t s' := by
  cases installed with
  | false =>
      obtain ⟨rfl, rfl, rfl⟩ := runs_state_pure_iff.mp h
      exact .silent s call hstore
  | true => exact answered_lift rfl (fun op error heq => hstore op error (EngineCall.Hook.inj heq)) h

lemma answered_of_runs {c : EngineCall E} {s s' : BridgeState Res} {t : List (BridgeEvent E Res)} {r : EngineReply E c}
    (h : Runs (bridgeAnswers cfg unreachable key c s) t (r, s')) : Answered key degradedHeaders s c r t s' := by
  cases c with
  | Begin op opts => exact answered_lift rfl (by simp) h
  | Complete op fence payload now => exact answered_lift rfl (by simp) h
  | Abandon op fence => exact answered_lift rfl (by simp) h
  | Clock => exact answered_lift rfl (by simp) h
  | StoreResult result => exact answered_lift rfl (by simp) h
  | CountHookError =>
      cases hcount : cfg.policy.hookErrors with
      | false =>
          have hsilent : (bridgeAnswers cfg unreachable key .CountHookError : BridgeM (BridgeProg E Res) Res Unit)
              = pure () := by
            simp [bridgeAnswers, answers, ExecutePolicy.lift, BridgeConfig.options, PolicyConfig.policyOf, hcount]
          rw [hsilent] at h
          obtain ⟨rfl, rfl, rfl⟩ := runs_state_pure_iff.mp h
          exact .counted s
      | true =>
          have hasked : (bridgeAnswers cfg unreachable key .CountHookError : BridgeM (BridgeProg E Res) Res Unit)
              = StateT.lift (Prog.call (BridgeCall.Engine .CountHookError)) := by
            simp [bridgeAnswers, answers, ExecutePolicy.lift, BridgeConfig.options, PolicyConfig.policyOf, hcount]
          rw [hasked] at h
          exact answered_lift rfl (by simp) h
  | Hook call =>
      have hhooks := hooksOf_getD (m := BridgeProg E Res) (fun c => Prog.call (BridgeCall.Engine c)) cfg.policy.hooks
      have hanswer : bridgeAnswers cfg unreachable key (.Hook call)
          = ((cfg.options Prog.call : BridgeOptions (BridgeProg E Res) E Res).policy.lift.hooks.getD {}).answer call := rfl
      simp only [hanswer, BridgeConfig.options, ExecutePolicy.lift, PolicyConfig.policyOf, hhooks, Option.getD_some] at h
      cases call with
      | OnAcquired op =>
          simp only [ExecuteHooks.answer, hooksOf, map_installed] at h
          exact answered_hook (by simp) h
      | OnReplayed op record =>
          simp only [ExecuteHooks.answer, hooksOf, map_installed] at h
          exact answered_hook (by simp) h
      | OnConflict op leaseUntil =>
          simp only [ExecuteHooks.answer, hooksOf, map_installed] at h
          exact answered_hook (by simp) h
      | OnMismatch op record =>
          simp only [ExecuteHooks.answer, hooksOf, map_installed] at h
          exact answered_hook (by simp) h
      | OnStoreError op error =>
          simp only [ExecuteHooks.answer, hooksOf, map_installed, Option.map_some, fire] at h
          obtain ⟨t₁, t₂, u, s₁, rfl, hmodify, hlast⟩ := runs_state_bind_iff.mp h
          obtain ⟨rfl, rfl⟩ := runs_modify_iff.mp hmodify
          obtain ⟨hhook, rfl⟩ := runs_lift_iff.mp hlast
          refine .storeError s op error r _ ?_
          split at hhook
          · exact Or.inl (runs_ret_iff.mp hhook).1
          · next heq =>
              split_ifs at heq
              obtain rfl := Option.some.inj heq
              exact Or.inr (runs_prog_call_iff.mp hhook)
  | Run fence =>
      obtain ⟨t₁, t₂, ran, s₁, rfl, hran, hthen⟩ := runs_state_bind_iff.mp h
      obtain ⟨hcall, rfl⟩ := runs_lift_iff.mp hran
      obtain rfl := runs_prog_call_iff.mp hcall
      cases ran with
      | error thrown =>
          obtain ⟨rfl, rfl, rfl⟩ := runs_state_pure_iff.mp hthen
          exact .threw s fence thrown
      | ok res =>
          obtain ⟨t₃, t₄, st, s₂, rfl, hget, hcapture⟩ := runs_state_bind_iff.mp hthen
          obtain ⟨rfl, rfl, rfl⟩ := runs_get_iff.mp hget
          obtain ⟨t₅, t₆, captured, s₃, rfl, hcaptured, hstored⟩ := runs_state_bind_iff.mp hcapture
          obtain ⟨hcall', rfl⟩ := runs_lift_iff.mp hcaptured
          obtain rfl := runs_prog_call_iff.mp hcall'
          cases captured with
          | error thrown =>
              obtain ⟨rfl, rfl, rfl⟩ := runs_state_pure_iff.mp hstored
              exact .uncaptured s fence res thrown
          | ok u =>
              obtain ⟨t₇, t₈, u, s₄, rfl, hmodify, hlast⟩ := runs_state_bind_iff.mp hstored
              obtain ⟨rfl, rfl⟩ := runs_modify_iff.mp hmodify
              obtain ⟨hcall'', rfl⟩ := runs_lift_iff.mp hlast
              obtain rfl := runs_prog_call_iff.mp hcall''
              exact .captured s fence res r

end

end

section

variable {E Res : Type}

/-! ## The courses of a request -/

/-- A call of the handler. -/
def BridgeCall.isRun : BridgeCall E Res → Bool
  | .Run _ => true
  | _ => false

/-- Neither the handler, nor its response, nor the engine. -/
def BridgeCall.isQuiet : BridgeCall E Res → Bool
  | .Skip => true
  | .ReadBody _ => true
  | .Fingerprint _ => true
  | .OnError _ => true
  | _ => false

/-- A function of the environment that is not the engine's threw this. -/
def Throws (thrown : E) : BridgeEvent E Res → Prop
  | ⟨.Skip, r⟩ => r = .error thrown
  | ⟨.ReadBody _, r⟩ => r = .error thrown
  | ⟨.Fingerprint _, r⟩ => r = .error thrown
  | ⟨.Run _, r⟩ => r = .error thrown
  | ⟨.Capture _ _, r⟩ => r = .error thrown
  | ⟨.Stored, r⟩ => r = .error thrown
  | ⟨.OnError _, r⟩ => r = .error thrown
  | ⟨.Engine _, _⟩ => False

/-- A problem with this code, detail and headers, or what the user's `onError` makes of it. -/
def IsProblem (cfg : BridgeConfig) (code : ProblemCode) (detail : Option JsString) (headers : HeaderFields)
    (t : List (BridgeEvent E Res)) (a : Except E (Answer Res)) : Prop :=
  let p := problem code cfg.problemBaseUri detail (cfg.problemTitles code)
  if cfg.onError then
    ∃ r, ⟨.OnError p, r⟩ ∈ t
      ∧ a = r.map fun res => .Rendered res (headers ++ [(js "Cache-Control", js "no-store")])
  else a = .ok (.Problem p headers)

variable {cfg : BridgeConfig} {req : Request} {t : List (BridgeEvent E Res)} {a : Except E (Answer Res)}

lemma IsProblem.mono {code : ProblemCode} {detail : Option JsString} {headers : HeaderFields} {t' : List (BridgeEvent E Res)}
    (h : IsProblem cfg code detail headers t a) (ht : ∀ e ∈ t, e ∈ t') : IsProblem cfg code detail headers t' a := by
  unfold IsProblem at h ⊢
  split_ifs at h ⊢
  · obtain ⟨r, hmem, ha⟩ := h
    exact ⟨r, ht _ hmem, ha⟩
  · exact h

lemma runs_fail {code : ProblemCode} {detail : Option JsString} {headers : HeaderFields}
    (h : Runs ((cfg.options Prog.call).fail req code detail headers) t a) :
    (∀ e ∈ t, e.1.isQuiet = true) ∧ IsProblem cfg code detail headers t a := by
  cases hon : cfg.onError with
  | false =>
      simp only [BridgeOptions.fail, BridgeConfig.options, hon, Bool.false_eq_true, if_false] at h
      obtain ⟨rfl, rfl⟩ := runs_ret_iff.mp h
      simp [IsProblem, hon]
  | true =>
      simp only [BridgeOptions.fail, BridgeConfig.options, hon, if_true] at h
      obtain ⟨r, t', rfl, hrendered⟩ := runs_call_iff.mp h
      cases r with
      | error thrown =>
          obtain ⟨rfl, rfl⟩ := runs_ret_iff.mp hrendered
          refine ⟨by simp [BridgeCall.isQuiet], ?_⟩
          rw [IsProblem, if_pos hon]
          exact ⟨.error thrown, List.mem_cons_self, rfl⟩
      | ok res =>
          obtain ⟨rfl, rfl⟩ := runs_ret_iff.mp hrendered
          refine ⟨by simp [BridgeCall.isQuiet], ?_⟩
          rw [IsProblem, if_pos hon]
          exact ⟨.ok res, List.mem_cons_self, rfl⟩

/-- The operation a request is: the key it names, its scope, and the fingerprint of its body, which its caller or
the bridge has read. -/
structure Identified {F : Type} (d : NumberText.Doubles F) (sha256Hex : List UInt8 → JsString) (cfg : BridgeConfig)
    (req : Request) (ctx : RunContext) (t : List (BridgeEvent E Res)) (op : Operation) : Prop where
  key : ctx.keyLookup.getD (lookupKey req.headers cfg.headerName cfg.keySyntax) = .Ok op.key
  scope : resolveScope req cfg.scoping ctx.routeScope = .Ok op.scope
  fingerprint : ∃ body, (ctx.body = some body ∨ ctx.body = none ∧ ⟨.ReadBody cfg.maxRequestBytes, .ok (some body)⟩ ∈ t)
    ∧ match cfg.fingerprint with
      | some mode => op.fingerprint = sha256Hex (requestPreimage d mode req.method (requestPath req) body)
      | none => ⟨.Fingerprint body, .ok op.fingerprint⟩ ∈ t

/-- Why a request passes by the layer: its method is not covered, the user's function skips it, or it has no key and
needs none. -/
inductive Passes (cfg : BridgeConfig) (req : Request) (ctx : RunContext) (t : List (BridgeEvent E Res)) : Prop
  | method (hmethod : req.method ∉ cfg.methods)
  | skipped (hskip : ⟨.Skip, .ok true⟩ ∈ t)
  | keyless (hkey : ctx.keyLookup.getD (lookupKey req.headers cfg.headerName cfg.keySyntax) = .Missing)
      (hoptional : cfg.required = false)

/-- Why a request is refused before the engine, and the problem it is refused with. -/
inductive Refused (cfg : BridgeConfig) (req : Request) (ctx : RunContext) (t : List (BridgeEvent E Res)) :
    ProblemCode → Option JsString → HeaderFields → Prop
  | missingKey (hkey : ctx.keyLookup.getD (lookupKey req.headers cfg.headerName cfg.keySyntax) = .Missing)
      (hrequired : cfg.required = true) :
      Refused cfg req ctx t .MissingKey none [(js "Link", js "<" ++ cfg.docsUrl ++ js ">; rel=\"describedby\"")]
  | invalidKey (reason : String)
      (hkey : ctx.keyLookup.getD (lookupKey req.headers cfg.headerName cfg.keySyntax) = .Invalid reason) :
      Refused cfg req ctx t .InvalidKey (some (js reason)) []
  | missingPrincipal (hscope : resolveScope req cfg.scoping ctx.routeScope = .MissingPrincipal) :
      Refused cfg req ctx t .MissingPrincipal none []
  | tooLarge (hbody : ctx.body = none) (hread : ⟨.ReadBody cfg.maxRequestBytes, .ok none⟩ ∈ t) :
      Refused cfg req ctx t .PayloadTooLarge none []

/-- The course of a request: it passes by the layer, it is refused before the engine, or the engine runs. -/
inductive BridgeRun {F : Type} (d : NumberText.Doubles F) (sha256Hex : List UInt8 → JsString) (unreachable : E)
    (cfg : BridgeConfig) (req : Request) (ctx : RunContext) :
    List (BridgeEvent E Res) → Except E (Answer Res) → Prop
  | passed (pre : List (BridgeEvent E Res)) (r : Except E Res) (hpre : ∀ e ∈ pre, e.1.isQuiet = true)
      (hpasses : Passes cfg req ctx pre) :
      BridgeRun d sha256Hex unreachable cfg req ctx (pre ++ [⟨.Run none, r⟩]) (r.map .Passed)
  | refused (t : List (BridgeEvent E Res)) (a : Except E (Answer Res)) (ht : ∀ e ∈ t, e.1.isQuiet = true)
      (ha : (∃ thrown, a = .error thrown ∧ ∃ e ∈ t, Throws thrown e)
        ∨ ∃ code detail headers, Refused cfg req ctx t code detail headers ∧ IsProblem cfg code detail headers t a) :
      BridgeRun d sha256Hex unreachable cfg req ctx t a
  | ran (pre t post : List (BridgeEvent E Res)) (op : Operation) (u : List (EngineEvent E))
      (out : Except E (ExecuteResult E)) (s : BridgeState Res) (a : Except E (Answer Res))
      (hpre : ∀ e ∈ pre, e.1.isQuiet = true) (hop : Identified d sha256Hex cfg req ctx pre op)
      (hrun : Runs (executeCalls op cfg.policy.bridged) u out)
      (ht : Interpreted (bridgeAnswers cfg unreachable op.key) {} u t s)
      (hpost : Runs (settled (transportOf Prog.call unreachable) (cfg.options Prog.call) req (out, s)) post a) :
      BridgeRun d sha256Hex unreachable cfg req ctx (pre ++ t ++ post) a

section

variable {F : Type} {d : NumberText.Doubles F} {sha256Hex : List UInt8 → JsString} {unreachable : E} {ctx : RunContext}

lemma runs_passThrough (h : Runs (passThrough (transportOf Prog.call unreachable)) t a) :
    ∃ r, t = [⟨.Run none, r⟩] ∧ a = r.map .Passed := by
  obtain ⟨r, t', rfl, hret⟩ := runs_call_iff.mp h
  obtain ⟨rfl, rfl⟩ := runs_ret_iff.mp hret
  exact ⟨r, rfl, rfl⟩

lemma Refused.mono {code : ProblemCode} {detail : Option JsString} {headers : HeaderFields}
    {t' : List (BridgeEvent E Res)} (h : Refused cfg req ctx t code detail headers) (ht : ∀ e ∈ t, e ∈ t') :
    Refused cfg req ctx t' code detail headers := by
  cases h with
  | missingKey hkey hrequired => exact .missingKey hkey hrequired
  | invalidKey reason hkey => exact .invalidKey reason hkey
  | missingPrincipal hscope => exact .missingPrincipal hscope
  | tooLarge hbody hread => exact .tooLarge hbody (ht _ hread)

/-- A request that is refused after the calls `pre`. -/
lemma BridgeRun.fail {pre : List (BridgeEvent E Res)} (hpre : ∀ e ∈ pre, e.1.isQuiet = true) {code : ProblemCode}
    {detail : Option JsString} {headers : HeaderFields} (hrefused : Refused cfg req ctx pre code detail headers)
    (h : Runs ((cfg.options Prog.call).fail req code detail headers) t a) :
    BridgeRun d sha256Hex unreachable cfg req ctx (pre ++ t) a := by
  obtain ⟨hquiet, hproblem⟩ := runs_fail h
  refine .refused _ _ ?_ (Or.inr ⟨code, detail, headers, hrefused.mono fun e he => List.mem_append_left _ he,
    hproblem.mono fun e he => List.mem_append_right _ he⟩)
  intro e he
  rcases List.mem_append.mp he with he | he
  · exact hpre e he
  · exact hquiet e he

lemma runs_skips {r : Except E Bool} (h : Runs ((cfg.options Prog.call).skips req) t r) :
    (∀ e ∈ t, e.1.isQuiet = true) ∧ (∀ thrown, r = .error thrown → ∃ e ∈ t, Throws thrown e)
      ∧ (r = .ok true → ⟨.Skip, .ok true⟩ ∈ t) := by
  cases hskip : cfg.skip with
  | false =>
      simp only [BridgeOptions.skips, BridgeConfig.options, hskip, Bool.false_eq_true, if_false] at h
      obtain ⟨rfl, rfl⟩ := runs_ret_iff.mp h
      simp
  | true =>
      simp only [BridgeOptions.skips, BridgeConfig.options, hskip, if_true] at h
      obtain rfl := runs_prog_call_iff.mp h
      exact ⟨by simp [BridgeCall.isQuiet], fun thrown hr => ⟨_, List.mem_cons_self, hr⟩,
        fun hr => List.mem_singleton.mpr (by rw [hr])⟩

lemma runs_bodyOf {r : Except E (Option (List UInt8))}
    (h : Runs (bodyOf (transportOf Prog.call unreachable) (cfg.options Prog.call) ctx) t r) :
    (∀ e ∈ t, e.1.isQuiet = true) ∧ (∀ thrown, r = .error thrown → ∃ e ∈ t, Throws thrown e)
      ∧ (r = .ok none → ctx.body = none ∧ ⟨.ReadBody cfg.maxRequestBytes, .ok none⟩ ∈ t)
      ∧ ∀ body, r = .ok (some body) →
        ctx.body = some body ∨ ctx.body = none ∧ ⟨.ReadBody cfg.maxRequestBytes, .ok (some body)⟩ ∈ t := by
  unfold bodyOf at h
  cases hbody : ctx.body with
  | some body =>
      rw [hbody] at h
      obtain ⟨rfl, rfl⟩ := runs_ret_iff.mp h
      simp
  | none =>
      rw [hbody] at h
      obtain rfl := runs_prog_call_iff.mp h
      refine ⟨by simp [BridgeCall.isQuiet], fun thrown hr => ⟨_, List.mem_cons_self, hr⟩,
        fun hr => ⟨rfl, List.mem_singleton.mpr (by rw [hr]; rfl)⟩, ?_⟩
      rintro body rfl
      exact Or.inr ⟨rfl, List.mem_cons_self⟩

lemma runs_requestFingerprint {body : List UInt8} {r : Except E JsString}
    (h : Runs (requestFingerprint d sha256Hex req body (cfg.options Prog.call).fingerprint) t r) :
    (∀ e ∈ t, e.1.isQuiet = true) ∧ (∀ thrown, r = .error thrown → ∃ e ∈ t, Throws thrown e)
      ∧ ∀ fingerprint, r = .ok fingerprint → match cfg.fingerprint with
        | some mode => fingerprint = sha256Hex (requestPreimage d mode req.method (requestPath req) body)
        | none => ⟨.Fingerprint body, .ok fingerprint⟩ ∈ t := by
  cases hfn : cfg.fingerprint with
  | some mode =>
      simp only [requestFingerprint, BridgeConfig.options, hfn] at h
      obtain ⟨rfl, rfl⟩ := runs_ret_iff.mp h
      refine ⟨by simp, by simp, ?_⟩
      intro fingerprint hr
      exact (Except.ok.inj hr).symm
  | none =>
      simp only [requestFingerprint, BridgeConfig.options, hfn] at h
      obtain rfl := runs_prog_call_iff.mp h
      refine ⟨by simp [BridgeCall.isQuiet], fun thrown hr => ⟨_, List.mem_cons_self, hr⟩, ?_⟩
      rintro fingerprint rfl
      exact List.mem_cons_self

lemma runs_runOperation {op : Operation}
    (h : Runs (runOperation (transportOf Prog.call unreachable) (cfg.options Prog.call) req op) t a) :
    ∃ u out s t₁ t₂, t = t₁ ++ t₂ ∧ Runs (executeCalls op cfg.policy.bridged) u out
      ∧ Interpreted (bridgeAnswers cfg unreachable op.key) {} u t₁ s
      ∧ Runs (settled (transportOf Prog.call unreachable) (cfg.options Prog.call) req (out, s)) t₂ a := by
  obtain ⟨t₁, t₂, ⟨out, s⟩, rfl, hexecute, hsettled⟩ := runs_bind_iff.mp h
  rw [← execute_eq_interpret] at hexecute
  have hconfig : ((cfg.options Prog.call).policy.lift : ExecutePolicy (BridgeM (BridgeProg E Res) Res) E).config
      = cfg.policy.bridged := lift_config cfg.policy _
  rw [hconfig] at hexecute
  obtain ⟨u, hrun, hu⟩ := runs_interpret_iff.mp hexecute
  exact ⟨u, out, s, t₁, t₂, rfl, hrun, hu, hsettled⟩

lemma quiet_append {pre t' : List (BridgeEvent E Res)} (hpre : ∀ e ∈ pre, e.1.isQuiet = true)
    (ht : ∀ e ∈ t', e.1.isQuiet = true) : ∀ e ∈ pre ++ t', e.1.isQuiet = true := by
  intro e he
  rcases List.mem_append.mp he with he | he
  · exact hpre e he
  · exact ht e he

/-- A request that a function of its own throws out of. -/
lemma BridgeRun.threw (ht : ∀ e ∈ t, e.1.isQuiet = true) {thrown : E} (hthrows : ∃ e ∈ t, Throws thrown e) :
    BridgeRun d sha256Hex unreachable cfg req ctx t (.error thrown : Except E (Answer Res)) :=
  .refused t _ ht (Or.inl ⟨thrown, rfl, hthrows⟩)

/-- **Every run takes one of the courses.** -/
lemma bridge_run (h : Runs (bridgeCalls d sha256Hex unreachable cfg req ctx) t a) :
    BridgeRun d sha256Hex unreachable cfg req ctx t a := by
  unfold bridgeCalls runIdempotent at h
  split at h
  · next hmethod =>
    obtain ⟨r, rfl, rfl⟩ := runs_passThrough h
    exact .passed [] r (by simp) (.method hmethod)
  · obtain ⟨t₁, t₂, skipped, rfl, hskip, hrest⟩ := runs_bind_iff.mp h
    obtain ⟨hquiet, hthrows, hskipped⟩ := runs_skips hskip
    rcases skipped with thrown | (_ | _)
    · obtain ⟨rfl, rfl⟩ := runs_ret_iff.mp hrest
      rw [List.append_nil]
      exact .threw hquiet (hthrows thrown rfl)
    · dsimp only at hrest
      split at hrest
      · next hkey =>
        split at hrest
        · next hrequired => exact .fail hquiet (.missingKey hkey hrequired) hrest
        · next hrequired =>
          obtain ⟨r, rfl, rfl⟩ := runs_passThrough hrest
          exact .passed t₁ r hquiet (.keyless hkey (by simpa using hrequired))
      · next reason hkey => exact .fail hquiet (.invalidKey reason hkey) hrest
      · next key hkey =>
        split at hrest
        · next hscope => exact .fail hquiet (.missingPrincipal hscope) hrest
        · next scope hscope =>
          obtain ⟨t₃, t₄, read, rfl, hread, hbody⟩ := runs_bind_iff.mp hrest
          obtain ⟨hquiet', hthrows', hlarge, hfound⟩ := runs_bodyOf hread
          rcases read with thrown | (_ | body)
          · obtain ⟨rfl, rfl⟩ := runs_ret_iff.mp hbody
            obtain ⟨e, he, hthrow⟩ := hthrows' thrown rfl
            rw [List.append_nil]
            exact .threw (quiet_append hquiet hquiet') ⟨e, List.mem_append_right _ he, hthrow⟩
          · rw [← List.append_assoc]
            exact .fail (quiet_append hquiet hquiet') (.tooLarge (hlarge rfl).1 (List.mem_append_right _ (hlarge rfl).2))
              hbody
          · obtain ⟨t₅, t₆, hashed, rfl, hhash, hoperation⟩ := runs_bind_iff.mp hbody
            obtain ⟨hquiet'', hthrows'', hfingerprint⟩ := runs_requestFingerprint hhash
            have hpre := quiet_append (quiet_append hquiet hquiet') hquiet''
            cases hashed with
            | error thrown =>
                obtain ⟨rfl, rfl⟩ := runs_ret_iff.mp hoperation
                obtain ⟨e, he, hthrow⟩ := hthrows'' thrown rfl
                rw [List.append_nil, ← List.append_assoc]
                exact .threw hpre ⟨e, List.mem_append_right _ he, hthrow⟩
            | ok fingerprint =>
                obtain ⟨u, out, s, t₇, t₈, rfl, hrun, hu, hsettled⟩ := runs_runOperation hoperation
                have hop : Identified d sha256Hex cfg req ctx (t₁ ++ t₃ ++ t₅) ⟨scope, key, fingerprint⟩ := by
                  refine ⟨hkey, hscope, body, ?_, ?_⟩
                  · rcases hfound body rfl with hgiven | ⟨hnone, hmem⟩
                    · exact Or.inl hgiven
                    · exact Or.inr ⟨hnone, by simp [hmem]⟩
                  · have h' := hfingerprint fingerprint rfl
                    split at h'
                    · exact h'
                    · simp [h']
                simpa only [List.append_assoc] using
                  BridgeRun.ran _ _ _ _ _ _ _ _ hpre hop hrun hu hsettled
    · obtain ⟨r, rfl, rfl⟩ := runs_passThrough hrest
      exact .passed t₁ r hquiet (.skipped (hskipped rfl))

end

section

variable {cfg : BridgeConfig} {unreachable : E} {key : JsString} {degraded : HeaderFields} {s s' : BridgeState Res}
  {u : List (EngineEvent E)} {t : List (BridgeEvent E Res)}

/-! ## From the calls of the bridge to those of the engine -/

lemma Answered.engine_mem {c c' : EngineCall E} {r : EngineReply E c} {r' : EngineReply E c'}
    (h : Answered key degraded s c r t s') (hmem : ⟨.Engine c', r'⟩ ∈ t) : (⟨c', r'⟩ : EngineEvent E) = ⟨c, r⟩ := by
  cases h with
  | asked c r hrun hstore =>
      cases List.mem_singleton.mp hmem
      rfl
  | storeError op error r t ht =>
      rcases ht with rfl | rfl
      · simp at hmem
      · cases List.mem_singleton.mp hmem
        rfl
  | silent call hstore => simp at hmem
  | counted => simp at hmem
  | threw fence thrown => simp at hmem
  | uncaptured fence res thrown => simp at hmem
  | captured fence res r => simp at hmem

lemma Answered.asked_eq {c : EngineCall E} {r : EngineReply E c} (h : Answered key degraded s c r t s')
    (hshown : c.shown = true) (hrun : c.isRun = false) : t = [⟨.Engine c, r⟩] := by
  cases h with
  | asked c r hrun hstore => rfl
  | storeError op error r t ht => cases hshown
  | silent call hstore => cases hshown
  | counted => cases hshown
  | threw fence thrown => cases hrun
  | uncaptured fence res thrown => cases hrun
  | captured fence res r => cases hrun

lemma isStoreError_eq_false {c : EngineCall E} (hstore : ∀ op error, c ≠ .Hook (.OnStoreError op error)) :
    c.isStoreError = false := by
  unfold EngineCall.isStoreError
  split
  · exact absurd rfl (hstore _ _)
  · rfl

lemma Answered.degraded_eq {c : EngineCall E} {r : EngineReply E c} (h : Answered key degraded s c r t s') :
    s'.degraded = (s.degraded || c.isStoreError) := by
  cases h with
  | asked c r hrun hstore => simp [isStoreError_eq_false hstore]
  | silent call hstore =>
      simp [isStoreError_eq_false fun op error heq => hstore op error (EngineCall.Hook.inj heq)]
  | storeError op error r t ht => simp [EngineCall.isStoreError]
  | counted => simp [EngineCall.isStoreError]
  | threw fence thrown => simp [EngineCall.isStoreError]
  | uncaptured fence res thrown => simp [EngineCall.isStoreError]
  | captured fence res r => simp [EngineCall.isStoreError]

lemma Answered.capture_eq {c : EngineCall E} {r : EngineReply E c} (h : Answered key degraded s c r t s')
    (hrun : c.isRun = false) : s'.capture = s.capture := by
  cases h <;> first | rfl | cases hrun

lemma Answered.run_count {c : EngineCall E} {r : EngineReply E c} (h : Answered key degraded s c r t s') :
    t.countP (fun e => e.1.isRun) = if c.isRun then 1 else 0 := by
  cases h with
  | asked c r hrun hstore => simp [BridgeCall.isRun, hrun]
  | storeError op error r t ht => rcases ht with rfl | rfl <;> simp [BridgeCall.isRun, EngineCall.isRun]
  | silent call hstore => simp [EngineCall.isRun]
  | counted => simp [EngineCall.isRun]
  | threw fence thrown => simp [BridgeCall.isRun, EngineCall.isRun]
  | uncaptured fence res thrown => simp [BridgeCall.isRun, EngineCall.isRun]
  | captured fence res r => simp [BridgeCall.isRun, EngineCall.isRun]

/-- What the engine asked of the store and the policy, it asked itself. -/
lemma interpreted_engine (hu : Interpreted (bridgeAnswers cfg unreachable key) s u t s') {c : EngineCall E}
    {r : EngineReply E c} (hmem : ⟨.Engine c, r⟩ ∈ t) : ⟨c, r⟩ ∈ u := by
  obtain ⟨u₁, c', r', u₂, t₁, t₂, t₃, s₁, s₂, rfl, rfl, hmem', -, hcall, -⟩ := hu.mem hmem
  rw [(answered_of_runs hcall).engine_mem hmem']
  simp

/-- What it asked, it was answered. -/
lemma engine_interpreted (hu : Interpreted (bridgeAnswers cfg unreachable key) s u t s') {c : EngineCall E}
    {r : EngineReply E c} (hmem : ⟨c, r⟩ ∈ u) (hshown : c.shown = true) (hrun : c.isRun = false) :
    (⟨.Engine c, r⟩ : BridgeEvent E Res) ∈ t := by
  obtain ⟨u₁, u₂, rfl⟩ := List.append_of_mem hmem
  obtain ⟨t₁, t₂, t₃, s₁, s₂, rfl, -, hcall, -⟩ := hu.split
  rw [(answered_of_runs hcall).asked_eq hshown hrun]
  simp

/-- The response is degraded once a failure of the store was reported. -/
lemma interpreted_degraded (hu : Interpreted (bridgeAnswers cfg unreachable key) s u t s') :
    s'.degraded = (s.degraded || u.any fun e => e.1.isStoreError) := by
  induction hu with
  | nil s => simp
  | cons hcall hrest ih => rw [ih, (answered_of_runs hcall).degraded_eq, List.any_cons, Bool.or_assoc]

/-- Only a run of the handler captures. -/
lemma interpreted_capture (hu : Interpreted (bridgeAnswers cfg unreachable key) s u t s')
    (hrun : ∀ e ∈ u, e.1.isRun = false) : s'.capture = s.capture := by
  induction hu with
  | nil s => rfl
  | @cons s s₁ s₂ c r t₁ t₂ u hcall hrest ih =>
      rw [ih fun e he => hrun e (List.mem_cons_of_mem _ he),
        (answered_of_runs hcall).capture_eq (hrun _ List.mem_cons_self)]

lemma interpreted_run_count (hu : Interpreted (bridgeAnswers cfg unreachable key) s u t s') :
    t.countP (fun e => e.1.isRun) = u.countP fun e => e.1.isRun := by
  induction hu with
  | nil s => rfl
  | cons hcall hrest ih => rw [List.countP_append, ih, (answered_of_runs hcall).run_count, List.countP_cons, Nat.add_comm]

end

/-! ## Where the handler stands -/

/-- `begin` failed in this run. -/
def BeginFailed (t : List (BridgeEvent E Res)) : Prop :=
  ∃ op opts error, ⟨.Engine (.Begin op opts), .error error⟩ ∈ t

section

variable {cfg : BridgeConfig} {unreachable : E} {op : Operation} {u : List (EngineEvent E)}
  {out : Except E (ExecuteResult E)} {t : List (BridgeEvent E Res)} {s s' : BridgeState Res} {key : JsString}

lemma EngineCall.eq_run {E : Type} (c : EngineCall E) (h : c.isRun = true) : ∃ fence, c = .Run fence := by
  cases c with
  | Run fence => exact ⟨fence, rfl⟩
  | _ => cases h

/-- Without the handler the bridge asks only what the engine asks. -/
lemma interpreted_engine_only (hu : Interpreted (bridgeAnswers cfg unreachable key) s u t s')
    (hrun : ∀ e ∈ u, e.1.isRun = false) : ∀ e ∈ t, ∃ c, e.1 = BridgeCall.Engine c := by
  intro e he
  obtain ⟨u₁, c, r, u₂, t₁, t₂, t₃, s₁, s₂, rfl, rfl, he', -, hcall, -⟩ := hu.mem he
  have hc : c.isRun = false := hrun ⟨c, r⟩ (by simp)
  cases answered_of_runs hcall with
  | asked c r hrun hstore =>
      obtain rfl := List.mem_singleton.mp he'
      exact ⟨c, rfl⟩
  | storeError op error r t ht =>
      rcases ht with rfl | rfl
      · simp at he'
      · obtain rfl := List.mem_singleton.mp he'
        exact ⟨_, rfl⟩
  | silent call hstore => simp at he'
  | counted => simp at he'
  | threw fence thrown => cases hc
  | uncaptured fence res thrown => cases hc
  | captured fence res r => cases hc

lemma begin_failed_iff (hrun : Runs (executeCalls op cfg.policy.bridged) u out)
    (hu : Interpreted (bridgeAnswers cfg unreachable key) s u t s') : BeginFailed t ↔ BeginThrew u op := by
  constructor
  · rintro ⟨op', opts, error, hmem⟩
    have hmem' := interpreted_engine hu hmem
    obtain rfl := (execute_path hrun).operation (mem_visible.mpr ⟨hmem', rfl⟩) rfl
    exact ⟨opts, error, hmem'⟩
  · rintro ⟨opts, error, hmem⟩
    exact ⟨op, opts, error, engine_interpreted hu hmem rfl rfl⟩

/-- **The handler in a run of the engine**: it does not run, or it runs once, between what the engine asks before
and after. -/
lemma handler_run (hrun : Runs (executeCalls op cfg.policy.bridged) u out)
    (hu : Interpreted (bridgeAnswers cfg unreachable key) {} u t s) :
    ((∀ e ∈ u, e.1.isRun = false) ∧ (∀ e ∈ t, ∃ c, e.1 = BridgeCall.Engine c) ∧ s.capture = none)
    ∨ ∃ fence r t₁ t₂ t₃ s₁ s₂, ⟨.Run fence, r⟩ ∈ u ∧ t = t₁ ++ t₂ ++ t₃
      ∧ (∀ e ∈ t₁, ∃ c, e.1 = BridgeCall.Engine c) ∧ (∀ e ∈ t₃, ∃ c, e.1 = BridgeCall.Engine c)
      ∧ Answered key degradedHeaders s₁ (.Run fence) r t₂ s₂ ∧ s₁.capture = none ∧ s.capture = s₂.capture
      ∧ (s₁.degraded = true ↔ BeginFailed t)
      ∧ ∃ opts, ⟨.Engine (.Begin op opts), .ok (.Acquired fence)⟩ ∈ t₁
        ∨ ∃ error, ⟨.Engine (.Begin op opts), .error error⟩ ∈ t₁ ∧ cfg.policy.onStoreError = .FailOpen ∧ fence = 0 := by
  have hpath := execute_path hrun
  have hcount : u.countP (fun e => e.1.isRun) ≤ 1 := by
    rw [← countP_isRun_shown]
    exact hpath.run_once
  by_cases hnone : ∀ e ∈ u, e.1.isRun = false
  · exact Or.inl ⟨hnone, interpreted_engine_only hu hnone, interpreted_capture hu hnone⟩
  · obtain ⟨⟨c, r⟩, hmem, hc⟩ : ∃ e ∈ u, e.1.isRun = true := by simpa using hnone
    obtain ⟨fence, rfl⟩ := c.eq_run hc
    obtain ⟨u₁, u₂, rfl⟩ := List.append_of_mem hmem
    rw [List.countP_append, List.countP_cons_of_pos rfl] at hcount
    have hbefore : ∀ e ∈ u₁, e.1.isRun = false := by
      have hzero : u₁.countP (fun e => e.1.isRun) = 0 := by omega
      simpa using List.countP_eq_zero.mp hzero
    have hafter : ∀ e ∈ u₂, e.1.isRun = false := by
      have hzero : u₂.countP (fun e => e.1.isRun) = 0 := by omega
      simpa using List.countP_eq_zero.mp hzero
    obtain ⟨t₁, t₂, t₃, s₁, s₂, rfl, h₁, hcall, h₃⟩ := hu.split
    have hanswered := answered_of_runs hcall
    refine Or.inr ⟨fence, r, t₁, t₂, t₃, s₁, s₂, hmem, rfl, interpreted_engine_only h₁ hbefore,
      interpreted_engine_only h₃ hafter, hanswered, interpreted_capture h₁ hbefore, interpreted_capture h₃ hafter, ?_, ?_⟩
    · obtain ⟨k, hsteps, -⟩ := Steps.split hrun
      have hvisible := hpath
      rw [visible_append, visible_cons rfl] at hvisible
      have hthrew : BeginThrew (u₁ ++ ⟨.Run fence, r⟩ :: u₂) op ↔ BeginThrew u₁ op := by
        constructor
        · rintro ⟨opts, error, hbegin⟩
          rcases List.mem_append.mp hbegin with hbegin | hbegin
          · exact ⟨opts, error, hbegin⟩
          · rcases List.mem_cons.mp hbegin with heq | hbegin
            · cases heq
            · exact absurd (mem_visible.mpr ⟨hbegin, rfl⟩) (hvisible.begin_first rfl op opts _)
        · rintro ⟨opts, error, hbegin⟩
          exact ⟨opts, error, List.mem_append_left _ hbegin⟩
      rw [begin_failed_iff hrun hu, hthrew, ← steps_degraded rfl rfl hsteps, interpreted_degraded h₁]
      simp
    · rw [visible_append, visible_cons rfl] at hpath
      rcases hpath.run_under_claim rfl with ⟨opts, hacquired⟩ | ⟨⟨opts, error, hthrew⟩, hmode, hfence⟩
      · exact ⟨opts, Or.inl (engine_interpreted h₁ (mem_visible.mp hacquired).1 rfl rfl)⟩
      · exact ⟨opts, Or.inr ⟨error, engine_interpreted h₁ (mem_visible.mp hthrew).1 rfl rfl, hmode, hfence⟩⟩

/-! ## The response -/

/-- What the bridge answers, once the engine has returned. -/
def Responds (cfg : BridgeConfig) (unreachable : E) (s : BridgeState Res) (post : List (BridgeEvent E Res))
    (a : Except E (Answer Res)) : Except E (ExecuteResult E) → Prop
  | .ok (.Executed _ _) => a = match s.capture with
      | none => .error unreachable
      | some (res, extraHeaders) => .ok (.Captured res extraHeaders)
  | .ok (.Replayed record) => a = .ok (.Replayed record)
  | .ok (.Conflict leaseUntil) => ∃ now, ⟨.Engine .Clock, now⟩ ∈ post
      ∧ IsProblem cfg .Conflict none [(js "Retry-After", retryAfterSeconds leaseUntil now)] post a
  | .ok (.Mismatch _) => IsProblem cfg .FingerprintMismatch none [] post a
  | .ok (.StoreError _) => IsProblem cfg .StoreUnavailable none [(js "Retry-After", js "1")] post a
  | .error error => a = match s.capture with
      | none => .error error
      | some (res, extraHeaders) => .ok (.Captured res extraHeaders)

/-- Nothing but a clock reading and a problem rendered. -/
def AfterEngine (e : BridgeEvent E Res) : Prop := e.1.isQuiet = true ∨ e.1 = .Engine .Clock

lemma runs_settled {req : Request} {post : List (BridgeEvent E Res)} {a : Except E (Answer Res)}
    (h : Runs (settled (transportOf Prog.call unreachable) (cfg.options Prog.call) req (out, s)) post a) :
    (∀ e ∈ post, AfterEngine e) ∧ Responds cfg unreachable s post a out := by
  rcases out with error | (⟨result, stored⟩ | record | leaseUntil | record | error)
  · unfold settled at h
    cases hcapture : s.capture with
    | none =>
        simp only [hcapture] at h
        obtain ⟨rfl, rfl⟩ := runs_ret_iff.mp h
        simp [Responds, hcapture]
    | some captured =>
        simp only [hcapture] at h
        obtain ⟨rfl, rfl⟩ := runs_ret_iff.mp h
        simp [Responds, hcapture]
  · unfold settled at h
    cases hcapture : s.capture with
    | none =>
        simp only [hcapture] at h
        obtain ⟨rfl, rfl⟩ := runs_ret_iff.mp h
        simp [Responds, hcapture, transportOf]
    | some captured =>
        simp only [hcapture] at h
        obtain ⟨rfl, rfl⟩ := runs_ret_iff.mp h
        simp [Responds, hcapture]
  · obtain ⟨rfl, rfl⟩ := runs_ret_iff.mp h
    simp [Responds]
  · obtain ⟨now, post, rfl, hfail⟩ := runs_call_iff.mp h
    obtain ⟨hquiet, hproblem⟩ := runs_fail hfail
    refine ⟨?_, now, List.mem_cons_self, hproblem.mono fun e he => List.mem_cons_of_mem _ he⟩
    intro e he
    rcases List.mem_cons.mp he with rfl | he
    · exact Or.inr rfl
    · exact Or.inl (hquiet e he)
  · obtain ⟨hquiet, hproblem⟩ := runs_fail h
    exact ⟨fun e he => Or.inl (hquiet e he), hproblem⟩
  · obtain ⟨hquiet, hproblem⟩ := runs_fail h
    exact ⟨fun e he => Or.inl (hquiet e he), hproblem⟩

end

end

end Anyonce
