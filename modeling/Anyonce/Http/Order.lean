import Anyonce.Core.Guarded
import Anyonce.Http.Discipline

/-!
# What comes before what

The order in which the engine and the bridge ask, as rules that every partial run keeps.

* `execute_guarded` — the engine asks the store about its one operation, and reports a mismatch after `begin` told
  of it.
* `bridge_guarded` — so does the bridge, and it asks the store about nothing that it has not identified.
* `mismatch_hooked` — a mismatch is reported to the hook that is installed.
-/

namespace Anyonce

open Interaction

section

variable {E : Type} {op : Operation} {cfg : PolicyConfig}

/-! ## The engine -/

/-- Only `op` is asked about, and a mismatch is reported only when `begin` told of it. -/
def EngineRule (op : Operation) (u : List (EngineEvent E)) (c : EngineCall E) : Prop :=
  (∀ op', c.operation = some op' → op' = op)
    ∧ ∀ op' record, c = .Hook (.OnMismatch op' record) → op' = op ∧ ∃ opts, ⟨.Begin op opts, .ok (.Mismatch record)⟩ ∈ u

/-- The commands that are always allowed. -/
def EngineCall.Plain (op : Operation) (c : EngineCall E) : Prop :=
  (∀ op', c.operation = some op' → op' = op) ∧ ∀ op' record, c ≠ .Hook (.OnMismatch op' record)

lemma EngineCall.Plain.allowed {c : EngineCall E} (h : c.Plain op) (u : List (EngineEvent E)) : EngineRule op u c :=
  ⟨h.1, fun op' record heq => absurd heq (h.2 op' record)⟩

/-- A command that names no operation, or `op`. -/
lemma plain {c : EngineCall E} (hop : ∀ op', c.operation = some op' → op' = op := by simp [EngineCall.operation])
    (hcall : ∀ op' record, c ≠ .Hook (.OnMismatch op' record) := by simp) : c.Plain op := ⟨hop, hcall⟩

lemma only_plain {c : EngineCall E} (hop : ∀ op', c.operation = some op' → op' = op := by simp [EngineCall.operation])
    (hcall : ∀ op' record, c ≠ .Hook (.OnMismatch op' record) := by simp) : (ask c).Only (EngineCall.Plain op) :=
  ⟨⟨hop, hcall⟩, fun _ => trivial⟩

/-- A hook of the engine, when it is installed. -/
lemma only_plain_hook {call : HookCall E} {installed : Bool} (hcall : ∀ op' record, call ≠ .OnMismatch op' record) :
    (safely cfg.policy (fire (if installed then some (ask (.Hook call)) else none))).Only (EngineCall.Plain op) := by
  refine only_safely_hook cfg ?_ plain
  cases installed with
  | false => exact only_ret _
  | true => exact ⟨plain (by simp [EngineCall.operation]) (by simpa using hcall), fun _ => trivial⟩

lemma only_plain_storeError (installed : Installed) (error : E) :
    (safely cfg.policy (fire ((hookCalls installed).onStoreError.map fun hook => hook op error))).Only
      (EngineCall.Plain op) := by
  simp only [hookCalls, map_installed]
  exact only_plain_hook (by simp)

lemma only_plain_abandon (installed : Installed) (fence : ℤ) :
    (abandonQuietly callStore op fence (hookCalls installed) (cfg.policy (E := E))).Only (EngineCall.Plain op) := by
  refine only_bind only_plain fun r => ?_
  cases r with
  | ok status => exact only_ret _
  | error error => exact only_plain_storeError installed error

lemma policy_hooks : (cfg.policy (E := E)).hooks.getD {} = hookCalls (cfg.hooks.getD {}) := by
  cases hhooks : cfg.hooks with
  | none => simp [PolicyConfig.policy, hhooks, hookCalls]
  | some installed => simp [PolicyConfig.policy, hhooks]

/-- **The engine keeps the rule.** -/
lemma execute_guarded : (executeCalls (E := E) op cfg).Guarded (EngineRule op) := by
  unfold executeCalls execute
  rw [policy_hooks]
  generalize cfg.hooks.getD {} = installed
  refine ⟨by simp [EngineRule, EngineCall.operation], fun now => ?_⟩
  refine ⟨by simp [EngineRule, EngineCall.operation], fun begun => ?_⟩
  simp only [Prog.bind]
  rcases begun with error | (fence | leaseUntil | record | record)
  · refine guarded_of_only (Q := EngineCall.Plain op) ?_ fun u c hc => hc.allowed _
    refine only_bind (only_plain_storeError installed error) fun _ => ?_
    split
    · exact only_ret _
    · refine only_bind only_plain fun ran => ?_
      cases ran <;> exact only_ret _
  · refine guarded_of_only (Q := EngineCall.Plain op) ?_ fun u c hc => hc.allowed _
    refine only_bind ?_ fun _ => only_bind only_plain fun ran => ?_
    · simp only [hookCalls, map_installed]
      exact only_plain_hook (by simp)
    · cases ran with
      | error thrown => exact only_bind (only_plain_abandon installed fence) fun _ => only_ret _
      | ok result =>
          refine only_bind only_plain fun kept => ?_
          rcases kept with thrown | (_ | _)
          · exact only_ret _
          · exact only_bind (only_plain_abandon installed fence) fun _ => only_ret _
          · refine only_bind only_plain fun now => only_bind only_plain fun completed => ?_
            cases completed with
            | error error => exact only_bind (only_plain_storeError installed error) fun _ => only_ret _
            | ok status => exact only_ret _
  · refine guarded_of_only (Q := EngineCall.Plain op) (only_bind ?_ fun _ => only_ret _) fun u c hc => hc.allowed _
    simp only [hookCalls, map_installed]
    exact only_plain_hook (by simp)
  · refine guarded_of_only (Q := EngineCall.Plain op) (only_bind ?_ fun _ => only_ret _) fun u c hc => hc.allowed _
    simp only [hookCalls, map_installed]
    exact only_plain_hook (by simp)
  · refine guarded_bind (guarded_of_only (Q := fun c => c = .CountHookError ∨ c = .Hook (.OnMismatch op record)) ?_ ?_)
      fun _ _ _ => trivial
    · refine only_safely_hook cfg ?_ (Or.inl rfl)
      simp only [hookCalls, map_installed]
      cases installed.onMismatch with
      | false => exact only_ret _
      | true => exact ⟨Or.inr rfl, fun _ => trivial⟩
    · rintro u c (rfl | rfl)
      · simp [EngineRule, EngineCall.operation]
      · simp [EngineRule, EngineCall.operation]

/-- **A mismatch is reported** to the hook that is installed. -/
lemma mismatch_hooked (hinstalled : (cfg.hooks.getD {}).onMismatch = true) {u : List (EngineEvent E)}
    {out : Except E (ExecuteResult E)} (hrun : Runs (executeCalls op cfg) u out) {opts : BeginOptions}
    {record : IdempotencyRecord} (hmem : ⟨.Begin op opts, .ok (.Mismatch record)⟩ ∈ u) :
    ∃ r, ⟨.Hook (.OnMismatch op record), r⟩ ∈ u := by
  have hpath := execute_path hrun
  obtain ⟨hout, hnoRun⟩ := hpath.follows (mem_visible.mpr ⟨hmem, rfl⟩)
  obtain ⟨now, u', rfl, hbegin⟩ := runs_call_iff.mp hrun
  obtain ⟨begun, u'', rfl, hrest⟩ := runs_call_iff.mp hbegin
  simp only [Prog.bind] at hrest
  have hbegun := hpath.follows (mem_visible.mpr ⟨List.mem_cons_of_mem _ List.mem_cons_self, rfl⟩)
  rcases begun with error | (fence | leaseUntil | record' | record')
  · dsimp only [PathFollows] at hbegun
    split at hbegun
    · rw [hout] at hbegun
      cases hbegun.1
    · obtain ⟨r, hran⟩ := hbegun
      cases hnoRun _ hran
  · obtain ⟨r, hran⟩ := hbegun
    cases hnoRun _ hran
  · rw [hout] at hbegun
    cases hbegun.1
  · rw [hout] at hbegun
    cases hbegun.1
  · rw [hout] at hbegun
    cases hbegun.1
    obtain ⟨t₁, t₂, x, rfl, hhook, -⟩ := runs_bind_iff.mp hrest
    simp only [policy_hooks, hookCalls, hinstalled, if_true, Option.map_some, fire, safely] at hhook
    obtain ⟨r, t₃, rfl, -⟩ := runs_call_iff.mp hhook
    exact ⟨r, by simp⟩

end

section

variable {E Res : Type} {F : Type} {d : NumberText.Doubles F} {sha256Hex : List UInt8 → JsString} {unreachable : E}
  {cfg : BridgeConfig} {req : Request} {ctx : RunContext}

/-! ## The bridge -/

/-- The operation of a store call. -/
def BridgeCall.operation : BridgeCall E Res → Option Operation
  | .Engine c => c.operation
  | _ => none

/-- An operation is asked about once it is identified, and a mismatch is reported only when `begin` told of it. -/
def BridgeRule (d : NumberText.Doubles F) (sha256Hex : List UInt8 → JsString) (cfg : BridgeConfig) (req : Request)
    (ctx : RunContext) (t : List (BridgeEvent E Res)) (c : BridgeCall E Res) : Prop :=
  (∀ op, c.operation = some op → Identified d sha256Hex cfg req ctx t op)
    ∧ ∀ op record, c = .Engine (.Hook (.OnMismatch op record)) →
      ∃ opts, ⟨.Engine (.Begin op opts), .ok (.Mismatch record)⟩ ∈ t

/-- What is no call of the engine is always allowed. -/
lemma bridgeRule_of_outside {c : BridgeCall E Res} (hc : ∀ c', c ≠ .Engine c') (t : List (BridgeEvent E Res)) :
    BridgeRule d sha256Hex cfg req ctx t c := by
  cases c with
  | Engine c' => exact absurd rfl (hc c')
  | _ => simp [BridgeRule, BridgeCall.operation]

lemma bridgeRule_of_after {e : BridgeEvent E Res} (he : AfterEngine e) (t : List (BridgeEvent E Res)) :
    BridgeRule d sha256Hex cfg req ctx t e.1 := by
  obtain ⟨c, r⟩ := e
  rcases he with hquiet | hclock
  · exact bridgeRule_of_outside (by rintro c' rfl; cases hquiet) t
  · obtain rfl : c = .Engine .Clock := hclock
    simp [BridgeRule, BridgeCall.operation, EngineCall.operation]

instance [Nonempty E] (c : BridgeCall E Res) : Nonempty (BridgeReply E Res c) := by
  obtain ⟨e⟩ := (inferInstance : Nonempty E)
  cases c with
  | Engine c => exact (inferInstance : Nonempty (EngineReply E c))
  | _ => exact ⟨.error e⟩

/-- What the bridge answers a command of the engine with. -/
lemma answers_guarded {op : Operation} {pre t : List (BridgeEvent E Res)} {u : List (EngineEvent E)} {s : BridgeState Res}
    (hop : Identified d sha256Hex cfg req ctx pre op)
    (hu : Interpreted (bridgeAnswers cfg unreachable op.key) {} u t s) {c : EngineCall E} (hc : EngineRule op u c) :
    (bridgeAnswers cfg unreachable op.key c s).Guarded fun v => BridgeRule d sha256Hex cfg req ctx (pre ++ (t ++ v)) := by
  have : Nonempty E := ⟨unreachable⟩
  refine guarded_of_runs fun t' ⟨reply, s'⟩ hrun => ?_
  cases answered_of_runs hrun with
  | asked c r hrun hstore =>
      refine everywhere_cons_iff.mpr ⟨⟨?_, ?_⟩, everywhere_nil⟩
      · intro op' hop'
        obtain rfl := hc.1 op' hop'
        exact hop.mono fun e he => List.mem_append_left _ he
      · rintro op' record heq
        obtain ⟨rfl, opts, hbegin⟩ := hc.2 op' record (BridgeCall.Engine.inj heq)
        refine ⟨opts, List.mem_append_right _ ?_⟩
        simpa using engine_interpreted hu hbegin rfl rfl
  | storeError op' error r t ht =>
      rcases ht with rfl | rfl
      · exact everywhere_nil
      · refine everywhere_cons_iff.mpr ⟨?_, everywhere_nil⟩
        simp [BridgeRule, BridgeCall.operation, EngineCall.operation]
  | silent call hstore => exact everywhere_nil
  | counted => exact everywhere_nil
  | threw fence thrown => exact everywhere_of_forall fun e he u => bridgeRule_of_outside (by simp_all) _
  | uncaptured fence res thrown =>
      refine everywhere_of_forall fun e he u => bridgeRule_of_outside ?_ _
      simp only [List.mem_cons, List.not_mem_nil, or_false] at he
      rcases he with rfl | rfl <;> simp
  | captured fence res r =>
      refine everywhere_of_forall fun e he u => bridgeRule_of_outside ?_ _
      simp only [List.mem_cons, List.not_mem_nil, or_false] at he
      rcases he with rfl | rfl | rfl <;> simp

/-- An installed mismatch hook is called. -/
lemma runs_onMismatch {key : JsString} {s s' : BridgeState Res} {t : List (BridgeEvent E Res)} {op : Operation}
    {record : IdempotencyRecord} {r : Except E Unit} (hinstalled : (cfg.policy.hooks.getD {}).onMismatch = true)
    (h : Runs (bridgeAnswers cfg unreachable key (.Hook (.OnMismatch op record)) s) t (r, s')) :
    t = [⟨.Engine (.Hook (.OnMismatch op record)), r⟩] := by
  simp only [bridgeAnswers, answers, BridgeConfig.options, ExecutePolicy.lift, PolicyConfig.policyOf, hooksOf_getD,
    Option.getD_some, ExecuteHooks.answer, hooksOf, hinstalled, if_true, Option.map_some, fire] at h
  exact runs_prog_call_iff.mp (runs_lift_iff.mp h).1

/-- What the store told of a mismatch, the hook is told. -/
lemma bridge_mismatch (hinstalled : (cfg.policy.hooks.getD {}).onMismatch = true) {t : List (BridgeEvent E Res)}
    {a : Except E (Answer Res)} (h : Runs (bridgeCalls d sha256Hex unreachable cfg req ctx) t a) {op : Operation}
    {opts : BeginOptions} {record : IdempotencyRecord}
    (hmem : ⟨.Engine (.Begin op opts), .ok (.Mismatch record)⟩ ∈ t) :
    ∃ r, ⟨.Engine (.Hook (.OnMismatch op record)), r⟩ ∈ t := by
  cases bridge_run h with
  | passed pre r hpre => cases mem_passed hpre hmem rfl
  | refused t a ht ha => cases ht _ hmem
  | ran pre t post op' u out s a hpre hop hengine hu hpost =>
      have hmem' := interpreted_engine hu (mem_ran hpre (runs_settled hpost).1 hmem rfl (by simp))
      obtain rfl : op = op' := (execute_path hengine).operation (mem_visible.mpr ⟨hmem', rfl⟩) rfl
      obtain ⟨r, hhook⟩ := mismatch_hooked (by exact hinstalled) hengine hmem'
      obtain ⟨u₁, u₂, rfl⟩ := List.append_of_mem hhook
      obtain ⟨t₁, t₂, t₃, s₁, s₂, rfl, -, hcall, -⟩ := hu.split
      rw [runs_onMismatch hinstalled hcall]
      exact ⟨r, by simp⟩

/-- **The bridge keeps the rule.** -/
lemma bridge_guarded : (bridgeCalls d sha256Hex unreachable cfg req ctx).Guarded
    (BridgeRule d sha256Hex cfg req ctx : List (BridgeEvent E Res) → BridgeCall E Res → Prop) := by
  have : Nonempty E := ⟨unreachable⟩
  refine guarded_of_runs fun t a hrun => ?_
  have hquiet : ∀ {t : List (BridgeEvent E Res)}, (∀ e ∈ t, e.1.isQuiet = true) →
      Everywhere (BridgeRule d sha256Hex cfg req ctx) t :=
    fun ht => everywhere_of_forall fun e he u => bridgeRule_of_after (Or.inl (ht e he)) u
  cases bridge_run hrun with
  | passed pre r hpre =>
      refine everywhere_append_iff.mpr ⟨hquiet hpre, everywhere_cons_iff.mpr ⟨?_, everywhere_nil⟩⟩
      exact bridgeRule_of_outside (by simp) _
  | refused t a ht ha => exact hquiet ht
  | ran pre t post op u out s a hpre hop hengine ht hpost =>
      refine everywhere_append_iff.mpr ⟨everywhere_append_iff.mpr ⟨hquiet hpre, ?_⟩, ?_⟩
      · exact ht.everywhere (hengine.guarded execute_guarded) fun u t s' c hu hc => answers_guarded hop hu hc
      · exact everywhere_of_forall fun e he u => bridgeRule_of_after ((runs_settled hpost).1 e he) _

end

end Anyonce
