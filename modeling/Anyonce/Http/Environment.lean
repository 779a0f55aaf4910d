import Anyonce.Http.BridgeRun

/-!
# The bridge in any environment

`bridgeCalls` asks for everything.  Where its calls are answered by other programs, it is the bridge with the options
that these programs are.

* `runIdempotent_eq_interpret` — **a door that builds its options out of answers runs the bridge of an arbitrary
  environment**, so what holds of every run of that holds behind the door.
-/

namespace Anyonce

open Interaction Interaction.Lawful

section

variable {m : Type → Type} [Monad m] [LawfulMonad m] {E Res : Type}
  (answer : (c : BridgeCall E Res) → m (BridgeReply E Res c)) {cfg : BridgeConfig} {req : Request}

lemma interpret_fail (code : ProblemCode) (detail : Option JsString) (headers : HeaderFields) :
    ((cfg.options Prog.call).fail req code detail headers).interpret answer
      = (cfg.options answer).fail req code detail headers := by
  cases hon : cfg.onError with
  | false => simp [BridgeOptions.fail, BridgeConfig.options, hon]
  | true =>
      simp only [BridgeOptions.fail, BridgeConfig.options, hon, if_true, interpret_bind, interpret_call]
      refine bind_congr fun r => ?_
      cases r <;> rfl

lemma interpret_skips :
    ((cfg.options Prog.call).skips req).interpret answer = (cfg.options answer).skips req := by
  cases hskip : cfg.skip with
  | false => simp [BridgeOptions.skips, BridgeConfig.options, hskip]
  | true => simp [BridgeOptions.skips, BridgeConfig.options, hskip]

lemma interpret_bodyOf (unreachable : E) (ctx : RunContext) :
    (bodyOf (transportOf Prog.call unreachable) (cfg.options Prog.call) ctx).interpret answer
      = bodyOf (transportOf answer unreachable) (cfg.options answer) ctx := by
  unfold bodyOf
  cases ctx.body with
  | none => exact interpret_call answer (.ReadBody cfg.maxRequestBytes)
  | some body => rfl

lemma interpret_passThrough (unreachable : E) :
    (passThrough (transportOf Prog.call unreachable)).interpret answer = passThrough (transportOf answer unreachable) := by
  refine (interpret_bind answer _ _).trans ?_
  exact congrArg (· >>= _) (interpret_call answer (.Run none))

lemma interpret_requestFingerprint {F : Type} (d : NumberText.Doubles F) (sha256Hex : List UInt8 → JsString)
    (body : List UInt8) :
    (requestFingerprint d sha256Hex req body (cfg.options Prog.call).fingerprint).interpret answer
      = requestFingerprint d sha256Hex req body (cfg.options answer).fingerprint := by
  cases hfn : cfg.fingerprint with
  | none => simp [requestFingerprint, BridgeConfig.options, hfn]
  | some mode => simp [requestFingerprint, BridgeConfig.options, hfn]

lemma interpret_settled (unreachable : E) (out : Except E (ExecuteResult E) × BridgeState Res) :
    (settled (transportOf Prog.call unreachable) (cfg.options Prog.call) req out).interpret answer
      = settled (transportOf answer unreachable) (cfg.options answer) req out := by
  obtain ⟨out, degraded, capture⟩ := out
  rcases out with error | (⟨result, stored⟩ | record | leaseUntil | record | error)
  · cases capture <;> rfl
  · cases capture <;> rfl
  · rfl
  · refine (interpret_bind answer _ _).trans ?_
    refine (congrArg (· >>= _) (interpret_call answer (.Engine .Clock))).trans ?_
    exact bind_congr fun now => interpret_fail answer _ _ _
  · exact interpret_fail answer _ _ _
  · exact interpret_fail answer _ _ _

lemma interpret_stateLift {α : Type} (p : BridgeProg E Res α) (s : BridgeState Res) :
    ((StateT.lift p : BridgeM (BridgeProg E Res) Res α) s).interpret answer
      = (StateT.lift (p.interpret answer) : BridgeM m Res α) s :=
  interpret_bind answer p _

lemma interpret_ask (c : BridgeCall E Res) (s : BridgeState Res) :
    ((StateT.lift (Prog.call c) : BridgeM (BridgeProg E Res) Res (BridgeReply E Res c)) s).interpret answer
      = (StateT.lift (answer c) : BridgeM m Res (BridgeReply E Res c)) s := by
  rw [interpret_stateLift, interpret_call]

/-- A hook that is passed on, when it is installed. -/
lemma interpret_askHook (installed : Bool) (call : HookCall E) (s : BridgeState Res) :
    ((fire (if installed then some (StateT.lift (Prog.call (BridgeCall.Engine (.Hook call)))) else none) :
        BridgeM (BridgeProg E Res) Res (Except E Unit)) s).interpret answer
      = (fire (if installed then some (StateT.lift (answer (.Engine (.Hook call)))) else none) :
        BridgeM m Res (Except E Unit)) s := by
  cases installed with
  | false => rfl
  | true => exact interpret_ask answer _ s

lemma interpret_bindState {α β : Type} (x : BridgeM (BridgeProg E Res) Res α) (f : α → BridgeM (BridgeProg E Res) Res β)
    (s : BridgeState Res) :
    ((x >>= f) s).interpret answer = (x s).interpret answer >>= fun out => (f out.1 out.2).interpret answer :=
  interpret_bind answer _ _

lemma interpret_runCallback (unreachable : E) (key : JsString) (fence : ℤ) (s : BridgeState Res) :
    (runCallback (transportOf Prog.call unreachable) (cfg.options Prog.call) key fence s).interpret answer
      = runCallback (transportOf answer unreachable) (cfg.options answer) key fence s := by
  unfold runCallback
  rw [interpret_bindState]
  refine (congrArg (· >>= _) (interpret_ask answer (.Run (some ⟨key, fence⟩)) s)).trans (bind_congr fun out => ?_)
  obtain ⟨ran, s⟩ := out
  cases ran with
  | error thrown => rfl
  | ok res =>
      refine (interpret_bindState answer _ _ s).trans (bind_congr fun out => ?_)
      obtain ⟨st, s⟩ := out
      refine (interpret_bindState answer _ _ s).trans ?_
      refine (congrArg (· >>= _) (interpret_ask answer (.Capture res _) s)).trans (bind_congr fun out => ?_)
      obtain ⟨captured, s⟩ := out
      cases captured with
      | error thrown => rfl
      | ok u =>
          refine (interpret_bindState answer _ _ s).trans (bind_congr fun out => ?_)
          exact interpret_ask answer .Stored out.2

/-- The answers of the bridge to its engine, answered. -/
lemma interpret_bridgeAnswers (unreachable : E) (key : JsString) (c : EngineCall E) (s : BridgeState Res) :
    (bridgeAnswers cfg unreachable key c s).interpret answer
      = answers (cfg.options answer).store.lift (runCallback (transportOf answer unreachable) (cfg.options answer) key)
        (cfg.options answer).policy.lift c s := by
  cases c with
  | Begin op opts => exact interpret_ask answer _ s
  | Complete op fence payload now => exact interpret_ask answer _ s
  | Abandon op fence => exact interpret_ask answer _ s
  | Clock => exact interpret_ask answer _ s
  | StoreResult result => exact interpret_ask answer _ s
  | Run fence => exact interpret_runCallback answer unreachable key fence s
  | CountHookError =>
      simp only [bridgeAnswers, answers, ExecutePolicy.lift, BridgeConfig.options, PolicyConfig.policyOf, map_installed]
      cases cfg.policy.hookErrors with
      | false => rfl
      | true => exact interpret_ask answer _ s
  | Hook call =>
      simp only [bridgeAnswers, answers, ExecutePolicy.lift, BridgeConfig.options, PolicyConfig.policyOf, hooksOf_getD,
        Option.getD_some]
      cases call with
      | OnAcquired op =>
          simp only [ExecuteHooks.answer, hooksOf, map_installed]
          exact interpret_askHook answer _ _ s
      | OnReplayed op record =>
          simp only [ExecuteHooks.answer, hooksOf, map_installed]
          exact interpret_askHook answer _ _ s
      | OnConflict op leaseUntil =>
          simp only [ExecuteHooks.answer, hooksOf, map_installed]
          exact interpret_askHook answer _ _ s
      | OnMismatch op record =>
          simp only [ExecuteHooks.answer, hooksOf, map_installed]
          exact interpret_askHook answer _ _ s
      | OnStoreError op error =>
          simp only [ExecuteHooks.answer, hooksOf, map_installed, Option.map_some, fire]
          refine (interpret_bindState answer _ _ s).trans (bind_congr fun out => ?_)
          refine (interpret_stateLift answer _ out.2).trans ?_
          cases (cfg.policy.hooks.getD {}).onStoreError with
          | false => rfl
          | true =>
              rw [if_pos rfl, if_pos rfl]
              exact congrArg (fun p => (StateT.lift p : BridgeM m Res _) out.2) (interpret_call answer _)

lemma interpret_runOperation (unreachable : E) (op : Operation) :
    (runOperation (transportOf Prog.call unreachable) (cfg.options Prog.call) req op).interpret answer
      = runOperation (transportOf answer unreachable) (cfg.options answer) req op := by
  have hconfig : ((cfg.options Prog.call).policy.lift : ExecutePolicy (BridgeM (BridgeProg E Res) Res) E).config
      = ((cfg.options answer).policy.lift : ExecutePolicy (BridgeM m Res) E).config :=
    (lift_config cfg.policy _).trans (lift_config cfg.policy _).symm
  have hanswers : (fun c s => (bridgeAnswers cfg unreachable op.key c s).interpret answer)
      = answers (cfg.options answer).store.lift (runCallback (transportOf answer unreachable) (cfg.options answer) op.key)
        (cfg.options answer).policy.lift := by
    funext c s
    exact interpret_bridgeAnswers answer unreachable op.key c s
  unfold runOperation
  rw [interpret_bind, ← execute_eq_interpret, ← execute_eq_interpret, hconfig, ← hanswers]
  exact (congrArg (· >>= _) (interpret_interpret answer _ _)).trans
    (bind_congr fun out => interpret_settled answer unreachable out)

/-- **The bridge of an arbitrary environment, answered**, is the bridge with these answers for its options. -/
theorem runIdempotent_eq_interpret {F : Type} (d : NumberText.Doubles F) (sha256Hex : List UInt8 → JsString)
    (unreachable : E) (ctx : RunContext) :
    (bridgeCalls d sha256Hex unreachable cfg req ctx).interpret answer
      = runIdempotent d sha256Hex (transportOf answer unreachable) (cfg.options answer) req ctx := by
  unfold bridgeCalls runIdempotent
  rw [apply_ite (Prog.interpret answer)]
  refine ite_congr rfl (fun _ => interpret_passThrough answer unreachable) fun _ => ?_
  rw [interpret_bind, interpret_skips]
  refine bind_congr fun skipped => ?_
  rcases skipped with thrown | (_ | _)
  · rfl
  · simp only [options_headerName, options_keySyntax, options_required, options_scoping, options_docsUrl]
    cases ctx.keyLookup.getD (lookupKey req.headers cfg.headerName cfg.keySyntax) with
    | Missing =>
        refine (apply_ite (Prog.interpret answer) _ _ _).trans ?_
        exact ite_congr rfl (fun _ => interpret_fail answer _ _ _) fun _ => interpret_passThrough answer unreachable
    | Invalid reason => exact interpret_fail answer _ _ _
    | Ok key =>
        dsimp only
        cases resolveScope req cfg.scoping ctx.routeScope with
        | MissingPrincipal => exact interpret_fail answer _ _ _
        | Ok scope =>
            dsimp only
            rw [interpret_bind, interpret_bodyOf]
            refine bind_congr fun read => ?_
            rcases read with thrown | (_ | body)
            · rfl
            · exact interpret_fail answer _ _ _
            · dsimp only
              rw [interpret_bind, interpret_requestFingerprint]
              refine bind_congr fun hashed => ?_
              cases hashed with
              | error thrown => rfl
              | ok fingerprint => exact interpret_runOperation answer unreachable _
  · exact interpret_passThrough answer unreachable

end

end Anyonce
