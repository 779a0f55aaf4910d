import Anyonce.Engine.Execute

/-!
# Settlement

What `execute` does between its two store calls, for every store, handler, predicate, clock and set
of hooks.

* `Path` — the complete list of the things a run can do, hook calls left out: eleven shapes.
* `execute_path` — every run of the engine is one of them, whatever hooks are installed and whatever
  they do.
* `path_execute` — without hooks each of them is a run.  Together: hooks change neither the calls nor
  the outcome.

Every statement about the engine is then read off the eleven shapes.
-/

namespace Anyonce

open Interaction

variable {E : Type}

/-- Hook calls and the counting of their failures are hidden; everything else is shown. -/
def EngineCall.shown : EngineCall E → Bool
  | .Hook _ => false
  | .CountHookError => false
  | _ => true

/-- The two calls every run starts with: a clock reading, and the `begin` that carries it. -/
def opening (op : Operation) (cfg : PolicyConfig) (now : ℤ)
    (r : Except E (BeginOutcome IdempotencyRecord)) : List (EngineEvent E) :=
  [⟨.Clock, now⟩, ⟨.Begin op ⟨cfg.leaseMs, cfg.ttlMs, now⟩, r⟩]

/-- Everything a run of the engine can do, and how it ends. -/
inductive Path (op : Operation) (cfg : PolicyConfig) :
    List (EngineEvent E) → Except E (ExecuteResult E) → Prop
  | failClosed (now : ℤ) (error : E) (hmode : cfg.onStoreError = .FailClosed) :
      Path op cfg (opening op cfg now (.error error)) (.ok (.StoreError error))
  | failOpenThrew (now : ℤ) (error thrown : E) (hmode : cfg.onStoreError = .FailOpen) :
      Path op cfg (opening op cfg now (.error error) ++ [⟨.Run 0, .error thrown⟩]) (.error thrown)
  | failOpenRan (now : ℤ) (error : E) (result : StoredResult)
      (hmode : cfg.onStoreError = .FailOpen) :
      Path op cfg (opening op cfg now (.error error) ++ [⟨.Run 0, .ok result⟩])
        (.ok (.Executed result false))
  | replayed (now : ℤ) (record : IdempotencyRecord) :
      Path op cfg (opening op cfg now (.ok (.Completed record))) (.ok (.Replayed record))
  | conflict (now leaseUntil : ℤ) :
      Path op cfg (opening op cfg now (.ok (.InFlight leaseUntil))) (.ok (.Conflict leaseUntil))
  | mismatch (now : ℤ) (record : IdempotencyRecord) :
      Path op cfg (opening op cfg now (.ok (.Mismatch record))) (.ok (.Mismatch record))
  | threw (now fence : ℤ) (thrown : E) (r : Except E CompleteStatus) :
      Path op cfg (opening op cfg now (.ok (.Acquired fence))
        ++ [⟨.Run fence, .error thrown⟩, ⟨.Abandon op fence, r⟩]) (.error thrown)
  | predicateThrew (now fence : ℤ) (result : StoredResult) (thrown : E) :
      Path op cfg (opening op cfg now (.ok (.Acquired fence))
        ++ [⟨.Run fence, .ok result⟩, ⟨.StoreResult result, .error thrown⟩]) (.error thrown)
  | refused (now fence : ℤ) (result : StoredResult) (r : Except E CompleteStatus) :
      Path op cfg (opening op cfg now (.ok (.Acquired fence))
        ++ [⟨.Run fence, .ok result⟩, ⟨.StoreResult result, .ok false⟩, ⟨.Abandon op fence, r⟩])
        (.ok (.Executed result false))
  | completeThrew (now fence : ℤ) (result : StoredResult) (now' : ℤ) (error : E) :
      Path op cfg (opening op cfg now (.ok (.Acquired fence))
        ++ [⟨.Run fence, .ok result⟩, ⟨.StoreResult result, .ok true⟩, ⟨.Clock, now'⟩,
          ⟨.Complete op fence (payloadOf cfg.maxResultBytes result) now', .error error⟩])
        (.ok (.Executed result false))
  | completed (now fence : ℤ) (result : StoredResult) (now' : ℤ) (status : CompleteStatus) :
      Path op cfg (opening op cfg now (.ok (.Acquired fence))
        ++ [⟨.Run fence, .ok result⟩, ⟨.StoreResult result, .ok true⟩, ⟨.Clock, now'⟩,
          ⟨.Complete op fence (payloadOf cfg.maxResultBytes result) now', .ok status⟩])
        (.ok (.Executed result (status = .Ok)))

/-! ## Hooks are hidden -/

/-- No call of the program is shown. -/
abbrev IsHidden {α : Type} (p : EngineProg E α) : Prop := Hidden EngineCall.shown p

lemma hidden_safely (cfg : PolicyConfig) {fn : EngineProg E (Except E Unit)} (hfn : IsHidden fn) :
    IsHidden (safely cfg.policy fn) := by
  refine hidden_bind hfn ?_
  intro r
  cases r with
  | ok u => exact hidden_ret ()
  | error e =>
      cases hc : cfg.hookErrors with
      | false => simpa [PolicyConfig.policy, hc] using hidden_ret ()
      | true => simpa [PolicyConfig.policy, hc] using hidden_call rfl

/-- No hook of the environment makes a shown call. -/
structure HooksHidden (hooks : ExecuteHooks (EngineProg E) E) : Prop where
  onAcquired : ∀ op, IsHidden (fire (hooks.onAcquired.map fun hook => hook op))
  onReplayed : ∀ op rec, IsHidden (fire (hooks.onReplayed.map fun hook => hook op rec))
  onConflict : ∀ op n, IsHidden (fire (hooks.onConflict.map fun hook => hook op n))
  onMismatch : ∀ op rec, IsHidden (fire (hooks.onMismatch.map fun hook => hook op rec))
  onStoreError : ∀ op e, IsHidden (fire (hooks.onStoreError.map fun hook => hook op e))

lemma hooksHidden_calls (installed : Installed) : HooksHidden (hookCalls installed (E := E)) := by
  constructor
  · intro op
    unfold hookCalls
    cases installed.onAcquired
    · exact hidden_ret _
    · exact hidden_call rfl
  · intro op rec
    unfold hookCalls
    cases installed.onReplayed
    · exact hidden_ret _
    · exact hidden_call rfl
  · intro op n
    unfold hookCalls
    cases installed.onConflict
    · exact hidden_ret _
    · exact hidden_call rfl
  · intro op rec
    unfold hookCalls
    cases installed.onMismatch
    · exact hidden_ret _
    · exact hidden_call rfl
  · intro op e
    unfold hookCalls
    cases installed.onStoreError
    · exact hidden_ret _
    · exact hidden_call rfl

lemma hooksHidden (cfg : PolicyConfig) :
    HooksHidden ((cfg.policy (E := E)).hooks.getD {}) := by
  show HooksHidden ((cfg.hooks.map hookCalls).getD {})
  cases cfg.hooks with
  | none => exact ⟨fun _ => hidden_ret _, fun _ _ => hidden_ret _, fun _ _ => hidden_ret _,
      fun _ _ => hidden_ret _, fun _ _ => hidden_ret _⟩
  | some installed => exact hooksHidden_calls installed

/-! ## Every run is one of the paths -/

/-- Abandoning quietly is one shown call, whatever becomes of it. -/
lemma runs_abandonQuietly {op : Operation} {fence : ℤ} {cfg : PolicyConfig} {β : Type}
    {f : Unit → EngineProg E β} {t : List (EngineEvent E)} {b : β}
    (h : Runs (abandonQuietly callStore op fence (cfg.policy.hooks.getD {}) cfg.policy >>= f) t b) :
    ∃ r t', visible EngineCall.shown t = ⟨.Abandon op fence, r⟩ :: visible EngineCall.shown t'
      ∧ Runs (f ()) t' b := by
  obtain ⟨t₁, t₂, u, rfl, h₁, h₂⟩ := runs_bind_iff.mp h
  obtain ⟨r, t', rfl, hquiet⟩ := runs_call_iff.mp h₁
  refine ⟨r, t₂, ?_, h₂⟩
  rw [visible_append, visible_cons rfl]
  have hrest : visible EngineCall.shown t' = [] := by
    cases r with
    | ok status => exact hidden_ret () t' u hquiet
    | error e => exact hidden_safely cfg ((hooksHidden cfg).onStoreError op e) t' u hquiet
  rw [hrest, List.singleton_append]

/-- **Every run of the engine is one of the paths**, whatever hooks are installed. -/
theorem execute_path {op : Operation} {cfg : PolicyConfig} {t : List (EngineEvent E)}
    {out : Except E (ExecuteResult E)} (h : Runs (executeCalls op cfg) t out) :
    Path op cfg (visible EngineCall.shown t) out := by
  obtain ⟨now, t, rfl, hbegin⟩ := runs_call_iff.mp h
  obtain ⟨begun, t, rfl, hrest⟩ := runs_call_iff.mp hbegin
  rw [visible_cons rfl, visible_cons rfl]
  have hooks := hooksHidden (E := E) cfg
  cases begun with
  | error error =>
      obtain ⟨t', u, ht, hmoded⟩ :=
        runs_hidden_bind (hidden_safely cfg (hooks.onStoreError op error)) hrest
      rw [ht]
      cases hmode : cfg.onStoreError with
      | FailClosed =>
          simp only [PolicyConfig.policy, hmode] at hmoded
          obtain ⟨rfl, rfl⟩ := runs_ret_iff.mp hmoded
          exact Path.failClosed now error hmode
      | FailOpen =>
          simp only [PolicyConfig.policy, hmode] at hmoded
          obtain ⟨ran, t, rfl, hran⟩ := runs_call_iff.mp hmoded
          cases ran with
          | error thrown =>
              obtain ⟨rfl, rfl⟩ := runs_ret_iff.mp hran
              exact Path.failOpenThrew now error thrown hmode
          | ok result =>
              obtain ⟨rfl, rfl⟩ := runs_ret_iff.mp hran
              exact Path.failOpenRan now error result hmode
  | ok outcome =>
      cases outcome with
      | Completed record =>
          obtain ⟨t', u, ht, hret⟩ :=
            runs_hidden_bind (hidden_safely cfg (hooks.onReplayed op record)) hrest
          obtain ⟨rfl, rfl⟩ := runs_ret_iff.mp hret
          rw [ht]
          exact Path.replayed now record
      | InFlight leaseUntil =>
          obtain ⟨t', u, ht, hret⟩ :=
            runs_hidden_bind (hidden_safely cfg (hooks.onConflict op leaseUntil)) hrest
          obtain ⟨rfl, rfl⟩ := runs_ret_iff.mp hret
          rw [ht]
          exact Path.conflict now leaseUntil
      | Mismatch record =>
          obtain ⟨t', u, ht, hret⟩ :=
            runs_hidden_bind (hidden_safely cfg (hooks.onMismatch op record)) hrest
          obtain ⟨rfl, rfl⟩ := runs_ret_iff.mp hret
          rw [ht]
          exact Path.mismatch now record
      | Acquired fence =>
          obtain ⟨t', u, ht, hacquired⟩ :=
            runs_hidden_bind (hidden_safely cfg (hooks.onAcquired op)) hrest
          obtain ⟨ran, t, rfl, hran⟩ := runs_call_iff.mp hacquired
          rw [ht, visible_cons rfl]
          cases ran with
          | error thrown =>
              obtain ⟨r, t', ht, hret⟩ := runs_abandonQuietly hran
              obtain ⟨rfl, rfl⟩ := runs_ret_iff.mp hret
              rw [ht]
              exact Path.threw now fence thrown r
          | ok result =>
              obtain ⟨kept, t, rfl, hkept⟩ := runs_call_iff.mp hran
              rw [visible_cons rfl]
              match kept, hkept with
              | .error thrown, hkept =>
                  obtain ⟨rfl, rfl⟩ := runs_ret_iff.mp hkept
                  exact Path.predicateThrew now fence result thrown
              | .ok false, hkept =>
                  obtain ⟨r, t', ht, hret⟩ := runs_abandonQuietly hkept
                  obtain ⟨rfl, rfl⟩ := runs_ret_iff.mp hret
                  rw [ht]
                  exact Path.refused now fence result r
              | .ok true, hkept =>
                  obtain ⟨now', t, rfl, hclock⟩ := runs_call_iff.mp hkept
                  obtain ⟨done, t, rfl, hdone⟩ := runs_call_iff.mp hclock
                  rw [visible_cons rfl, visible_cons rfl]
                  cases done with
                  | error error =>
                      obtain ⟨t', u, ht, hret⟩ :=
                        runs_hidden_bind (hidden_safely cfg (hooks.onStoreError op error)) hdone
                      obtain ⟨rfl, rfl⟩ := runs_ret_iff.mp hret
                      rw [ht]
                      exact Path.completeThrew now fence result now' error
                  | ok status =>
                      obtain ⟨rfl, rfl⟩ := runs_ret_iff.mp hdone
                      exact Path.completed now fence result now' status

/-- The policy with no hooks. -/
def PolicyConfig.withoutHooks (cfg : PolicyConfig) : PolicyConfig := { cfg with hooks := none }

/-- **Without hooks every path is a run.** -/
theorem path_execute {op : Operation} {cfg : PolicyConfig} {t : List (EngineEvent E)}
    {out : Except E (ExecuteResult E)} (h : Path op cfg t out) :
    Runs (executeCalls op cfg.withoutHooks) t out := by
  cases h with
  | failClosed now error hmode =>
      obtain ⟨leaseMs, ttlMs, maxResultBytes, mode, hooks, hookErrors⟩ := cfg
      obtain rfl : mode = .FailClosed := hmode
      refine Steps.call _ ?_
      refine Steps.call _ ?_
      exact Steps.refl _
  | failOpenThrew now error thrown hmode =>
      obtain ⟨leaseMs, ttlMs, maxResultBytes, mode, hooks, hookErrors⟩ := cfg
      obtain rfl : mode = .FailOpen := hmode
      refine Steps.call _ ?_
      refine Steps.call _ ?_
      refine Steps.call _ ?_
      exact Steps.refl _
  | failOpenRan now error result hmode =>
      obtain ⟨leaseMs, ttlMs, maxResultBytes, mode, hooks, hookErrors⟩ := cfg
      obtain rfl : mode = .FailOpen := hmode
      refine Steps.call _ ?_
      refine Steps.call _ ?_
      refine Steps.call _ ?_
      exact Steps.refl _
  | replayed now record => exact Steps.call _ (Steps.call _ (Steps.refl _))
  | conflict now leaseUntil => exact Steps.call _ (Steps.call _ (Steps.refl _))
  | mismatch now record => exact Steps.call _ (Steps.call _ (Steps.refl _))
  | threw now fence thrown r =>
      refine Steps.call _ ?_
      refine Steps.call _ ?_
      refine Steps.call _ ?_
      refine Steps.call _ ?_
      cases r <;> exact Steps.refl _
  | predicateThrew now fence result thrown =>
      refine Steps.call _ ?_
      refine Steps.call _ ?_
      refine Steps.call _ ?_
      refine Steps.call _ ?_
      exact Steps.refl _
  | refused now fence result r =>
      refine Steps.call _ ?_
      refine Steps.call _ ?_
      refine Steps.call _ ?_
      refine Steps.call _ ?_
      refine Steps.call _ ?_
      cases r <;> exact Steps.refl _
  | completeThrew now fence result now' error =>
      refine Steps.call _ ?_
      refine Steps.call _ ?_
      refine Steps.call _ ?_
      refine Steps.call _ ?_
      refine Steps.call _ ?_
      refine Steps.call _ ?_
      exact Steps.refl _
  | completed now fence result now' status =>
      refine Steps.call _ ?_
      refine Steps.call _ ?_
      refine Steps.call _ ?_
      refine Steps.call _ ?_
      refine Steps.call _ ?_
      refine Steps.call _ ?_
      exact Steps.refl _

/-! ## The discipline -/

/-- A run of the handler. -/
def EngineCall.isRun : EngineCall E → Bool
  | .Run _ => true
  | _ => false

/-- The fence a settlement call carries. -/
def EngineCall.settles : EngineCall E → Option (Operation × ℤ)
  | .Complete op fence _ _ => some (op, fence)
  | .Abandon op fence => some (op, fence)
  | _ => none

/-- The settlement calls of a run: which operation, which fence. -/
def settlements (t : List (EngineEvent E)) : List (Operation × ℤ) :=
  t.filterMap fun ev => ev.1.settles

/-- `begin` granted the claim `fence` in this run. -/
def Acquired (t : List (EngineEvent E)) (op : Operation) (fence : ℤ) : Prop :=
  ∃ opts, ⟨.Begin op opts, .ok (.Acquired fence)⟩ ∈ t

/-- `begin` threw in this run. -/
def BeginThrew (t : List (EngineEvent E)) (op : Operation) : Prop :=
  ∃ opts error, ⟨.Begin op opts, .error error⟩ ∈ t

/-- What is promised of a run of the engine, over its calls `t` and its outcome `out`. -/
structure SettlementDiscipline (op : Operation) (cfg : PolicyConfig) (t : List (EngineEvent E))
    (out : Except E (ExecuteResult E)) : Prop where
  /-- The handler runs at most once. -/
  run_once : t.countP (fun ev => ev.1.isRun) ≤ 1
  /-- It runs only under the claim it was granted, or under no claim after `begin` threw. -/
  run_under_claim : ∀ t₁ fence r t₂, t = t₁ ++ ⟨.Run fence, r⟩ :: t₂ →
    Acquired t₁ op fence ∨ (BeginThrew t₁ op ∧ cfg.onStoreError = .FailOpen ∧ fence = 0)
  /-- A granted claim is settled once, under its fence. -/
  settled_once : ∀ fence, Acquired t op fence → settlements t = [(op, fence)]
  /-- Without a claim nothing is settled. -/
  not_settled : (∀ fence, ¬ Acquired t op fence) → settlements t = []
  /-- `stored` is said exactly when `complete` was called and answered `ok`. -/
  stored_iff : (∃ result, out = .ok (.Executed result true))
    ↔ ∃ op' fence payload now, ⟨.Complete op' fence payload now, .ok .Ok⟩ ∈ t
  /-- The caller gets the handler's own value. -/
  own_value : ∀ fence result, ⟨.Run fence, .ok result⟩ ∈ t →
    ∃ stored, out = .ok (.Executed result stored)
  /-- The caller gets the handler's own error. -/
  own_error : ∀ fence thrown, ⟨.Run fence, .error thrown⟩ ∈ t → out = .error thrown
  /-- An execution is reported only for a handler that returned that value. -/
  executed_ran : ∀ result stored, out = .ok (.Executed result stored) →
    ∃ fence, ⟨.Run fence, .ok result⟩ ∈ t
  /-- The engine throws only what the handler threw. -/
  threw_ran : ∀ thrown, out = .error thrown → ∃ fence, ⟨.Run fence, .error thrown⟩ ∈ t
  /-- Hooks change neither the other calls, in their order and with their arguments, nor the
  outcome: without hooks the same answers give the same run. -/
  hooks_neutral : Runs (executeCalls op cfg.withoutHooks) (visible EngineCall.shown t) out

/-! ### Read off the paths -/

section Paths

variable {op : Operation} {cfg : PolicyConfig} {t : List (EngineEvent E)}
variable {out : Except E (ExecuteResult E)}

lemma Path.run_once (h : Path op cfg t out) : t.countP (fun ev => ev.1.isRun) ≤ 1 := by
  cases h <;> simp [opening, EngineCall.isRun]

lemma Path.run_under_claim (h : Path op cfg t out) {t₁ t₂ : List (EngineEvent E)} {fence : ℤ}
    {r : Except E StoredResult} (ht : t = t₁ ++ ⟨.Run fence, r⟩ :: t₂) :
    Acquired t₁ op fence ∨ (BeginThrew t₁ op ∧ cfg.onStoreError = .FailOpen ∧ fence = 0) := by
  -- the handler call stands right after the opening, so `t₁` is the opening
  cases h <;> simp [opening, List.cons_eq_append_iff] at ht
  all_goals
    obtain ⟨rfl, ⟨rfl, -⟩, -⟩ := ht
    simp_all [Acquired, BeginThrew]

lemma Path.complete_under_claim (h : Path op cfg t out) {t₁ t₂ : List (EngineEvent E)}
    {op' : Operation} {fence : ℤ} {payload : Completion} {now : ℤ} {r : Except E CompleteStatus}
    (ht : t = t₁ ++ ⟨.Complete op' fence payload now, r⟩ :: t₂) :
    op' = op ∧ Acquired t₁ op fence := by
  cases h <;> simp [opening, List.cons_eq_append_iff] at ht
  all_goals
    obtain ⟨rfl, ⟨⟨rfl, rfl, -⟩, -⟩, -⟩ := ht
    simp [Acquired]

lemma Path.settlements_of_acquired (h : Path op cfg t out)
    (hpred : ∀ result thrown, ⟨.StoreResult result, .error thrown⟩ ∉ t) {fence : ℤ}
    (ha : Acquired t op fence) : settlements t = [(op, fence)] := by
  obtain ⟨opts, ha⟩ := ha
  cases h <;> simp_all [opening, settlements, EngineCall.settles]

lemma Path.settlements_of_not_acquired (h : Path op cfg t out)
    (ha : ∀ fence, ¬ Acquired t op fence) : settlements t = [] := by
  cases h <;> simp_all [opening, settlements, EngineCall.settles, Acquired]

lemma Path.stored_iff (h : Path op cfg t out) : (∃ result, out = .ok (.Executed result true))
    ↔ ∃ op' fence payload now, ⟨.Complete op' fence payload now, .ok .Ok⟩ ∈ t := by
  cases h <;> simp [opening, eq_comm]

lemma Path.own_value (h : Path op cfg t out)
    (hpred : ∀ result thrown, ⟨.StoreResult result, .error thrown⟩ ∉ t) {fence : ℤ}
    {result : StoredResult} (hrun : ⟨.Run fence, .ok result⟩ ∈ t) :
    ∃ stored, out = .ok (.Executed result stored) := by
  cases h <;> simp_all [opening]

lemma Path.own_error (h : Path op cfg t out) {fence : ℤ} {thrown : E}
    (hrun : ⟨.Run fence, .error thrown⟩ ∈ t) : out = .error thrown := by
  cases h <;> simp_all [opening]

lemma Path.executed_ran (h : Path op cfg t out) {result : StoredResult} {stored : Bool}
    (hout : out = .ok (.Executed result stored)) : ∃ fence, ⟨.Run fence, .ok result⟩ ∈ t := by
  cases h <;> simp_all [opening]

lemma Path.threw_ran (h : Path op cfg t out)
    (hpred : ∀ result thrown, ⟨.StoreResult result, .error thrown⟩ ∉ t) {thrown : E}
    (hout : out = .error thrown) : ∃ fence, ⟨.Run fence, .error thrown⟩ ∈ t := by
  cases h <;> simp_all [opening]

lemma Path.replayed_begin {record : IdempotencyRecord}
    (h : Path op cfg t (.ok (.Replayed record))) :
    ∃ opts, ⟨.Begin op opts, .ok (.Completed record)⟩ ∈ t := by
  cases h with
  | replayed now record => exact ⟨_, List.mem_cons_of_mem _ List.mem_cons_self⟩

lemma Path.stored_complete {result : StoredResult}
    (h : Path op cfg t (.ok (.Executed result true))) :
    ∃ fence payload now, ⟨.Complete op fence payload now, .ok .Ok⟩ ∈ t := by
  generalize hout : (.ok (.Executed result true) : Except E (ExecuteResult E)) = out at h
  cases h <;> simp at hout
  obtain ⟨rfl, rfl⟩ := hout
  simp [opening]

end Paths

/-! ### From the shown calls to all calls -/

lemma acquired_shown {t : List (EngineEvent E)} {op : Operation} {fence : ℤ} :
    Acquired (visible EngineCall.shown t) op fence ↔ Acquired t op fence := by
  simp [Acquired, EngineCall.shown]

lemma beginThrew_shown {t : List (EngineEvent E)} {op : Operation} :
    BeginThrew (visible EngineCall.shown t) op ↔ BeginThrew t op := by
  simp [BeginThrew, EngineCall.shown]

lemma countP_isRun_shown (t : List (EngineEvent E)) :
    (visible EngineCall.shown t).countP (fun ev => ev.1.isRun) = t.countP fun ev => ev.1.isRun := by
  rw [visible, List.countP_filter]
  refine List.countP_congr fun ev _ => ?_
  obtain ⟨c, r⟩ := ev
  cases c <;> simp [EngineCall.isRun, EngineCall.shown]

lemma settlements_shown (t : List (EngineEvent E)) :
    settlements (visible EngineCall.shown t) = settlements t := by
  rw [settlements, visible, List.filterMap_filter, settlements]
  congr 1
  funext ev
  obtain ⟨c, r⟩ := ev
  cases c <;> rfl

/-- **The settlement discipline of the engine.**  Whatever the store, the handler, the clock, the cap
and the hooks do, a run whose `storeResult` returns keeps it. -/
theorem execute_disciplined (op : Operation) (cfg : PolicyConfig) (t : List (EngineEvent E))
    (out : Except E (ExecuteResult E)) (h : Runs (executeCalls op cfg) t out)
    (hpred : ∀ result thrown, ⟨.StoreResult result, .error thrown⟩ ∉ t) :
    SettlementDiscipline op cfg t out := by
  have hpath := execute_path h
  have hpred' : ∀ result thrown,
      ⟨.StoreResult result, .error thrown⟩ ∉ visible EngineCall.shown t := by
    intro result thrown hmem
    exact hpred result thrown (mem_visible.mp hmem).1
  refine ⟨?_, ?_, ?_, ?_, ?_, ?_, ?_, ?_, ?_, path_execute hpath⟩
  · rw [← countP_isRun_shown]
    exact hpath.run_once
  · rintro t₁ fence r t₂ rfl
    rw [visible_append, visible_cons rfl] at hpath
    rw [← acquired_shown, ← beginThrew_shown]
    exact hpath.run_under_claim rfl
  · intro fence ha
    rw [← settlements_shown]
    exact hpath.settlements_of_acquired hpred' (acquired_shown.mpr ha)
  · intro ha
    rw [← settlements_shown]
    exact hpath.settlements_of_not_acquired fun fence h => ha fence (acquired_shown.mp h)
  · simpa [EngineCall.shown] using hpath.stored_iff
  · intro fence result hrun
    exact hpath.own_value hpred' (mem_visible.mpr ⟨hrun, rfl⟩)
  · intro fence thrown hrun
    exact hpath.own_error (mem_visible.mpr ⟨hrun, rfl⟩)
  · intro result stored hout
    obtain ⟨fence, hrun⟩ := hpath.executed_ran hout
    exact ⟨fence, (mem_visible.mp hrun).1⟩
  · intro thrown hout
    obtain ⟨fence, hrun⟩ := hpath.threw_ran hpred' hout
    exact ⟨fence, (mem_visible.mp hrun).1⟩

/-- A run with a hook that throws: the claim 7 is granted, the hook's failure is counted, and the
result is stored. -/
def paymentRun (op : Operation) (result : StoredResult) : List (EngineEvent Unit) :=
  [⟨.Clock, 123⟩, ⟨.Begin op ⟨30, 86400, 123⟩, .ok (.Acquired 7)⟩,
    ⟨.Hook (.OnAcquired op), .error ()⟩, ⟨.CountHookError, ()⟩, ⟨.Run 7, .ok result⟩,
    ⟨.StoreResult result, .ok true⟩, ⟨.Clock, 124⟩,
    ⟨.Complete op 7 (payloadOf 1024 result) 124, .ok .Ok⟩]

theorem execute_disciplined_payment :
    SettlementDiscipline ⟨js "POST /payments", js "k1", js "p"⟩
      ⟨30, 86400, 1024, .FailClosed, some { onAcquired := true }, true⟩
      (paymentRun ⟨js "POST /payments", js "k1", js "p"⟩ { kind := .Http, status := some 201 })
      (.ok (.Executed { kind := .Http, status := some 201 } true)) := by
  refine execute_disciplined _ _ _ _ ?_ (by simp [paymentRun])
  refine Steps.call _ ?_
  refine Steps.call _ ?_
  refine Steps.call _ ?_
  refine Steps.call _ ?_
  refine Steps.call _ ?_
  refine Steps.call _ ?_
  refine Steps.call _ ?_
  refine Steps.call _ ?_
  exact Steps.refl _

/-! ## What failing user code leaves behind -/

/-- The user's code: the handler, given its fence, and the `storeResult` predicate. -/
structure UserCode (E : Type) where
  handler : ℤ → Except E StoredResult
  storeResult : StoredResult → Except E Bool

/-- In this run the handler and the predicate behaved as `u` says. -/
def UserCode.Answers (u : UserCode E) (t : List (EngineEvent E)) : Prop :=
  (∀ fence r, ⟨.Run fence, r⟩ ∈ t → u.handler fence = r)
    ∧ ∀ result r, ⟨.StoreResult result, r⟩ ∈ t → u.storeResult result = r

/-- The handler returned, and the predicate threw at what it returned. -/
def UserCode.PredicateFails (u : UserCode E) (fence : ℤ) : Prop :=
  ∃ result thrown, u.handler fence = .ok result ∧ u.storeResult result = .error thrown

lemma UserCode.answers_shown {u : UserCode E} {t : List (EngineEvent E)} (h : u.Answers t) :
    u.Answers (visible EngineCall.shown t) :=
  ⟨fun fence r hmem => h.1 fence r (mem_visible.mp hmem).1,
    fun result r hmem => h.2 result r (mem_visible.mp hmem).1⟩

/-- **A granted claim is settled unless the predicate threw.** -/
lemma execute_settles_iff {op : Operation} {cfg : PolicyConfig} {t : List (EngineEvent E)}
    {out : Except E (ExecuteResult E)} (h : Runs (executeCalls op cfg) t out) {u : UserCode E}
    (hu : u.Answers t) {fence : ℤ} (ha : Acquired t op fence) :
    (op, fence) ∈ settlements t ↔ ¬ u.PredicateFails fence := by
  have hpath := execute_path h
  rw [← settlements_shown]
  rw [← acquired_shown] at ha
  obtain ⟨hhandler, hpredicate⟩ := u.answers_shown hu
  generalize visible EngineCall.shown t = seen at hpath ha hhandler hpredicate
  obtain ⟨opts, ha⟩ := ha
  cases hpath <;>
    simp_all [opening, settlements, EngineCall.settles, UserCode.PredicateFails]

end Anyonce
