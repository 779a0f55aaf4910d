import Anyonce.Core.Bisimulation
import Anyonce.Engine.Execute
import Anyonce.Go.Door

/-!
# The TypeScript and the Go engine are one machine

Both engines over an environment that answers anything, compared call by call.  The error models
differ (exceptions against returned errors, a union against zero values and a wrapped error), so
`engineParity` says which calls, replies and results of the two correspond.  Strings, error values and
records pass through both engines unread, so any relations between those of the two languages will do;
a Go time is the number of nanoseconds of the TypeScript milliseconds.

* `Go.executeCalls` — the Go engine in an arbitrary environment with a live context.
* `SameResult`, `SamePayload` — corresponding results, and what `complete` is given for them.
* `engines_same_machine` — in corresponding environments the engines do the same.
-/

namespace Anyonce

open Interaction

/-! ## The Go engine in an arbitrary environment -/

namespace Go

/-- Everything the Go engine asks of its surroundings. -/
inductive EngineCall
  | Begin (ctx : Context) (op : Operation) (opts : BeginOptions)
  | Complete (ctx : Context) (op : Operation) (fence : ℤ) (payload : StoredResult) (now : ℤ)
  | Abandon (ctx : Context) (op : Operation) (fence : ℤ)
  | Now
  | Run (fence : ℤ)
  | StoreResult (result : StoredResult)
  | Hook (call : HookCall)
  | CountHookError

abbrev EngineReply (V : Type) : EngineCall → Type
  | .Begin _ _ _ => Except GoError (BeginOutcome Record)
  | .Complete _ _ _ _ _ => Except GoError CompleteStatus
  | .Abandon _ _ _ => Except GoError CompleteStatus
  | .Now => ℤ
  | .Run _ => Except V (Except GoError StoredResult)
  | .StoreResult _ => Except V Bool
  | .Hook _ => Except V Unit
  | .CountHookError => Unit

abbrev EngineProg (V : Type) : Type → Type := Prog EngineCall (EngineReply V)

/-- The data of a policy; its functions are the environment's. -/
structure PolicyConfig where
  lease : ℤ
  ttl : ℤ
  maxResultBytes : ℤ
  storeResult : Bool
  onStoreError : StoreErrorMode
  hooks : Installed := {}
  hookErrors : Bool := false

variable {V : Type}

/-- The store whose every answer is the environment's. -/
def callStore : Store (EngineProg V) where
  begin ctx op opts := Prog.call (EngineCall.Begin ctx op opts)
  complete ctx op fence payload now := Prog.call (EngineCall.Complete ctx op fence payload now)
  abandon ctx op fence := Prog.call (EngineCall.Abandon ctx op fence)

def hookCalls (installed : Installed) : Hooks (EngineProg V) V where
  onAcquired :=
    if installed.onAcquired then some fun op => Prog.call (EngineCall.Hook (.OnAcquired op))
    else none
  onReplayed :=
    if installed.onReplayed then
      some fun op record => Prog.call (EngineCall.Hook (.OnReplayed op record))
    else none
  onConflict :=
    if installed.onConflict then some fun op t => Prog.call (EngineCall.Hook (.OnConflict op t))
    else none
  onMismatch :=
    if installed.onMismatch then
      some fun op record => Prog.call (EngineCall.Hook (.OnMismatch op record))
    else none
  onStoreError :=
    if installed.onStoreError then
      some fun op err => Prog.call (EngineCall.Hook (.OnStoreError op err))
    else none

/-- The policy whose functions are the environment's. -/
def PolicyConfig.policy (cfg : PolicyConfig) : Policy (EngineProg V) V where
  lease := cfg.lease
  ttl := cfg.ttl
  maxResultBytes := cfg.maxResultBytes
  storeResult :=
    if cfg.storeResult then some fun result => Prog.call (EngineCall.StoreResult result) else none
  onStoreError := cfg.onStoreError
  now := Prog.call EngineCall.Now
  hooks := hookCalls cfg.hooks
  hookErrors := if cfg.hookErrors then some (Prog.call EngineCall.CountHookError) else none

/-- `Execute` in an arbitrary environment, with a live context. -/
def executeCalls (op : Operation) (cfg : PolicyConfig) :
    EngineProg V (Except V (Result × Option GoError)) :=
  execute (pure none) callStore op (fun fence => Prog.call (EngineCall.Run fence)) cfg.policy

end Go

/-! ## What corresponds -/

/-- A time or a duration in Go. -/
def nanos (ms : ℤ) : ℤ := ms * 1000000

def ResultKind.toGo : ResultKind → Go.Kind
  | .Http => .Http
  | .Message => .Message

def StoreErrorMode.toGo : StoreErrorMode → Go.StoreErrorMode
  | .FailClosed => .FailClosed
  | .FailOpen => .FailOpen

section

variable {E V : Type}
variable (text : JsString → Go.GoString → Prop) (failure : E → Go.GoError → Prop)
variable (sameRecord : IdempotencyRecord → Go.Record → Prop)

structure SameOperation (op : Operation) (g : Go.Operation) : Prop where
  scope : text op.scope g.scope
  key : text op.key g.key
  fingerprint : text op.fingerprint g.fingerprint

/-- Header lists, name by name and value by value. -/
def SameHeaders : Option (List (JsString × JsString)) →
    Option (List (Go.GoString × Go.GoString)) → Prop :=
  Option.Rel (List.Forall₂ fun h g => text h.1 g.1 ∧ text h.2 g.2)

/-- A status that is absent in TypeScript is zero in Go. -/
structure SameResult (r : StoredResult) (g : Go.StoredResult) : Prop where
  kind : g.kind = r.kind.toGo
  status : g.status = r.status.getD 0
  headers : SameHeaders text r.headers g.headers
  body : g.body = r.body
  outcome : g.outcome = r.outcome
  error : Option.Rel (fun e h => text e.name h.name ∧ text e.message h.message) r.error g.error
  omitted : g.omitted = false

/-- The omitted form: the body, the outcome and the error are gone. -/
structure SameOmitted (r : OmittedResult) (g : Go.StoredResult) : Prop where
  kind : g.kind = r.kind.toGo
  status : g.status = r.status.getD 0
  headers : SameHeaders text r.headers g.headers
  body : g.body = none
  outcome : g.outcome = none
  error : g.error = none
  omitted : g.omitted = true

/-- The same full result, or the same omitted one. -/
def SamePayload : Completion → Go.StoredResult → Prop
  | .Stored r, g => SameResult text r g
  | .Omitted r, g => SameOmitted text r g

structure SamePolicy (cfg : PolicyConfig) (g : Go.PolicyConfig) : Prop where
  lease : g.lease = nanos cfg.leaseMs
  leasePos : 0 < cfg.leaseMs
  ttl : g.ttl = nanos cfg.ttlMs
  ttlPos : 0 < cfg.ttlMs
  maxResultBytes : g.maxResultBytes = cfg.maxResultBytes
  maxResultBytesPos : 0 < cfg.maxResultBytes
  storeResult : g.storeResult = true
  onStoreError : g.onStoreError = cfg.onStoreError.toGo
  hooks : g.hooks = cfg.hooks.getD {}
  hookErrors : g.hookErrors = cfg.hookErrors

def SameOutcome : BeginOutcome IdempotencyRecord → BeginOutcome Go.Record → Prop
  | .Acquired fence, .Acquired fence' => fence' = fence
  | .InFlight t, .InFlight t' => t' = nanos t
  | .Completed r, .Completed g => sameRecord r g
  | .Mismatch r, .Mismatch g => sameRecord r g
  | _, _ => False

/-- A store call that threw in one language returned an error in the other. -/
def SameReply {A B : Type} (same : A → B → Prop) : Except E A → Except Go.GoError B → Prop
  | .ok a, .ok b => same a b
  | .error e, .error err => failure e err
  | _, _ => False

/-- A handler that threw in one language returned an error in the other. -/
def SameRun : Except E StoredResult → Except V (Except Go.GoError Go.StoredResult) → Prop
  | .ok r, .ok (.ok g) => SameResult text r g
  | .error e, .ok (.error err) => failure e err
  | _, _ => False

/-- The predicate returned, with the same answer. -/
def SamePredicate : Except E Bool → Except V Bool → Prop
  | .ok b, .ok b' => b' = b
  | _, _ => False

/-- A hook that threw in one language panicked in the other. -/
def SameHook : Except E Unit → Except V Unit → Prop
  | .ok _, .ok _ => True
  | .error _, .error _ => True
  | _, _ => False

def SameHookCall : HookCall E → Go.HookCall → Prop
  | .OnAcquired op, .OnAcquired g => SameOperation text op g
  | .OnReplayed op r, .OnReplayed g r' => SameOperation text op g ∧ sameRecord r r'
  | .OnConflict op t, .OnConflict g t' => SameOperation text op g ∧ t' = nanos t
  | .OnMismatch op r, .OnMismatch g r' => SameOperation text op g ∧ sameRecord r r'
  | .OnStoreError op e, .OnStoreError g err => SameOperation text op g ∧ failure e err
  | _, _ => False

/-- **Corresponding calls and replies of the two engines.** -/
def engineParity : Correspondence (EngineCall E) (EngineReply E) Go.EngineCall (Go.EngineReply V) where
  cmd
    | .Begin op opts, .Begin _ g opts' =>
        SameOperation text op g ∧ opts'.lease = nanos opts.leaseMs ∧ opts'.ttl = nanos opts.ttlMs
          ∧ opts'.now = nanos opts.now
    | .Complete op fence payload now, .Complete _ g fence' payload' now' =>
        SameOperation text op g ∧ fence' = fence ∧ SamePayload text payload payload'
          ∧ now' = nanos now
    | .Abandon op fence, .Abandon _ g fence' => SameOperation text op g ∧ fence' = fence
    | .Clock, .Now => True
    | .Run fence, .Run fence' => fence' = fence
    | .StoreResult r, .StoreResult g => SameResult text r g
    | .Hook call, .Hook call' => SameHookCall text failure sameRecord call call'
    | .CountHookError, .CountHookError => True
    | _, _ => False
  reply
    | .Begin _ _, .Begin _ _ _, r, r' => SameReply failure (SameOutcome sameRecord) r r'
    | .Complete _ _ _ _, .Complete _ _ _ _ _, r, r' => SameReply failure (fun s s' => s' = s) r r'
    | .Abandon _ _, .Abandon _ _ _, r, r' => SameReply failure (fun s s' => s' = s) r r'
    | .Clock, .Now, t, t' => t' = nanos t
    | .Run _, .Run _, r, r' => SameRun text failure r r'
    | .StoreResult _, .StoreResult _, r, r' => SamePredicate r r'
    | .Hook _, .Hook _, r, r' => SameHook r r'
    | _, _, _, _ => True

/-- **Corresponding results**: what TypeScript throws, Go returns wrapped beside `Result{}`. -/
def SameExecute : Except E (ExecuteResult E) → Except V (Go.Result × Option Go.GoError) → Prop
  | .error e, .ok (.Zero, some (.HandlerFailed err)) => failure e err
  | .ok (.Executed r stored), .ok (.Executed g stored', none) =>
      SameResult text r g ∧ stored' = stored
  | .ok (.Replayed r), .ok (.Replayed g, none) => sameRecord r g
  | .ok (.Conflict t), .ok (.Conflict t', none) => t' = nanos t
  | .ok (.Mismatch r), .ok (.Mismatch g, none) => sameRecord r g
  | .ok (.StoreError e), .ok (.StoreError (.StoreUnavailable err), some (.StoreUnavailable err')) =>
      failure e err ∧ err' = err
  | _, _ => False

/-! ## The engines, side by side -/

variable {text failure sameRecord}

/-- A policy of positive terms and a known mode needs no defaults. -/
lemma SamePolicy.normalized_eq {cfg : PolicyConfig} {g : Go.PolicyConfig} (hp : SamePolicy cfg g) :
    (g.policy (V := V)).normalized = g.policy := by
  have hlease : ¬ g.lease ≤ 0 := by
    rw [hp.lease, nanos]
    have := hp.leasePos
    omega
  have httl : ¬ g.ttl ≤ 0 := by
    rw [hp.ttl, nanos]
    have := hp.ttlPos
    omega
  have hmax : ¬ g.maxResultBytes ≤ 0 := by
    rw [hp.maxResultBytes]
    exact not_le.mpr hp.maxResultBytesPos
  have hmode : g.onStoreError ≠ .Unset := by
    rw [hp.onStoreError]
    cases cfg.onStoreError <;> simp [StoreErrorMode.toGo]
  simp [Go.Policy.normalized, Go.PolicyConfig.policy, hlease, httl, hmax, hmode, hp.storeResult]

/-- The hooks of the TypeScript policy, absent ones as hooks that are not installed. -/
lemma hooks_getD (cfg : PolicyConfig) :
    (cfg.policy (E := E)).hooks.getD {} = hookCalls (cfg.hooks.getD {}) := by
  simp only [PolicyConfig.policy]
  cases cfg.hooks <;> rfl

section

variable {cfg : PolicyConfig} {g : Go.PolicyConfig} {op : Operation} {gop : Go.Operation}

/-- **A hook call** is made on both sides or on neither, and a hook that fails is counted on both. -/
lemma safely_bisim (hp : SamePolicy cfg g) (b : Bool) {call : HookCall E} {call' : Go.HookCall}
    (hc : SameHookCall text failure sameRecord call call') :
    Bisim (engineParity (V := V) text failure sameRecord) (fun _ _ => True)
      (safely cfg.policy (fire (if b then some (ask (.Hook call)) else none)))
      (g.policy.safely (if b then some (Prog.call (Go.EngineCall.Hook call')) else none)) := by
  cases b with
  | false => exact Bisim.ret trivial
  | true =>
      refine Bisim.call hc fun r r' hr => ?_
      match r, r', hr with
      | .ok _, .ok _, _ => exact Bisim.ret trivial
      | .error _, .error _, _ =>
          simp only [PolicyConfig.policy, Go.PolicyConfig.policy, hp.hookErrors]
          cases cfg.hookErrors with
          | false => exact Bisim.ret trivial
          | true => exact Bisim.call trivial fun _ _ _ => Bisim.ret trivial

section Hooks

variable (hp : SamePolicy cfg g) (hop : SameOperation text op gop)

include hp hop

lemma onAcquired_bisim :
    Bisim (engineParity (E := E) (V := V) text failure sameRecord) (fun _ _ => True)
      (safely cfg.policy (fire ((hookCalls (cfg.hooks.getD {})).onAcquired.map fun hook => hook op)))
      (g.policy.safely (g.policy.hooks.onAcquired.map fun hook => hook gop)) := by
  simp only [hookCalls, Go.PolicyConfig.policy, Go.hookCalls, map_installed, hp.hooks]
  exact safely_bisim hp _ hop

lemma onReplayed_bisim {r : IdempotencyRecord} {r' : Go.Record} (hr : sameRecord r r') :
    Bisim (engineParity (E := E) (V := V) text failure sameRecord) (fun _ _ => True)
      (safely cfg.policy (fire ((hookCalls (cfg.hooks.getD {})).onReplayed.map fun hook =>
        hook op r)))
      (g.policy.safely (g.policy.hooks.onReplayed.map fun hook => hook gop r')) := by
  simp only [hookCalls, Go.PolicyConfig.policy, Go.hookCalls, map_installed, hp.hooks]
  exact safely_bisim hp _ ⟨hop, hr⟩

lemma onConflict_bisim (t : ℤ) :
    Bisim (engineParity (E := E) (V := V) text failure sameRecord) (fun _ _ => True)
      (safely cfg.policy (fire ((hookCalls (cfg.hooks.getD {})).onConflict.map fun hook =>
        hook op t)))
      (g.policy.safely (g.policy.hooks.onConflict.map fun hook => hook gop (nanos t))) := by
  simp only [hookCalls, Go.PolicyConfig.policy, Go.hookCalls, map_installed, hp.hooks]
  exact safely_bisim hp _ ⟨hop, rfl⟩

lemma onMismatch_bisim {r : IdempotencyRecord} {r' : Go.Record} (hr : sameRecord r r') :
    Bisim (engineParity (E := E) (V := V) text failure sameRecord) (fun _ _ => True)
      (safely cfg.policy (fire ((hookCalls (cfg.hooks.getD {})).onMismatch.map fun hook =>
        hook op r)))
      (g.policy.safely (g.policy.hooks.onMismatch.map fun hook => hook gop r')) := by
  simp only [hookCalls, Go.PolicyConfig.policy, Go.hookCalls, map_installed, hp.hooks]
  exact safely_bisim hp _ ⟨hop, hr⟩

lemma storeError_bisim {e : E} {err : Go.GoError} (he : failure e err) :
    Bisim (engineParity (V := V) text failure sameRecord) (fun _ _ => True)
      (safely cfg.policy (fire ((hookCalls (cfg.hooks.getD {})).onStoreError.map fun hook =>
        hook op e)))
      (g.policy.storeError gop err) := by
  simp only [hookCalls, Go.Policy.storeError, Go.PolicyConfig.policy, Go.hookCalls, map_installed,
    hp.hooks]
  exact safely_bisim hp _ ⟨hop, he⟩

end Hooks

lemma abandon_bisim (hp : SamePolicy cfg g) (hop : SameOperation text op gop) (fence : ℤ) :
    Bisim (engineParity (V := V) text failure sameRecord) (fun _ _ => True)
      (abandonQuietly callStore op fence (hookCalls (cfg.hooks.getD {})) cfg.policy)
      (Go.abandonQuietly Go.callStore gop fence g.policy) := by
  refine Bisim.call ⟨hop, rfl⟩ fun r r' hr => ?_
  match r, r', hr with
  | .ok _, .ok _, _ => exact Bisim.ret trivial
  | .error _, .error _, he => exact storeError_bisim hp hop he

end

/-- **The cap falls on the same side**, so both pass the full result on, or both its omitted form. -/
lemma samePayload {r : StoredResult} {g : Go.StoredResult} (h : SameResult text r g) (cap : ℤ) :
    SamePayload text (payloadOf cap r)
      (if (Go.resultSize g : ℤ) > cap then Go.omitBody g else g) := by
  have hsize : Go.resultSize g = resultSize r := by rw [Go.resultSize, resultSize, h.body]
  rw [payloadOf, hsize]
  split_ifs with hcap
  · exact ⟨h.kind, h.status, h.headers, rfl, rfl, rfl, rfl⟩
  · exact h

section

variable {cfg : PolicyConfig} {g : Go.PolicyConfig} {op : Operation} {gop : Go.Operation}

/-- After the handler has returned: the predicate, the cap, and the settlement. -/
lemma settle_bisim (hp : SamePolicy cfg g) (hop : SameOperation text op gop) (fence : ℤ)
    {r : StoredResult} {gr : Go.StoredResult} (hr : SameResult text r gr) :
    Bisim (engineParity (E := E) (V := V) text failure sameRecord)
      (SameExecute text failure sameRecord)
      (do
        match ← (cfg.policy (E := E)).storeResult r with
        | .error thrown => pure (.error thrown)
        | .ok false =>
            abandonQuietly callStore op fence (hookCalls (cfg.hooks.getD {})) cfg.policy
            pure (.ok (.Executed r false))
        | .ok true =>
            let payload := payloadOf (cfg.policy (E := E)).maxResultBytes r
            let now ← (cfg.policy (E := E)).clock
            match ← (callStore (E := E)).complete op fence payload now with
            | .error error =>
                safely cfg.policy (fire ((hookCalls (cfg.hooks.getD {})).onStoreError.map fun hook =>
                  hook op error))
                pure (.ok (.Executed r false))
            | .ok status => pure (.ok (.Executed r (status = .Ok))))
      ((g.policy (V := V)).keep gr >>= Go.settle Go.callStore gop fence gr g.policy) := by
  have hkeep : (g.policy (V := V)).keep gr = Prog.call (Go.EngineCall.StoreResult gr) := by
    simp [Go.Policy.keep, Go.PolicyConfig.policy, hp.storeResult]
  rw [hkeep]
  refine Bisim.call hr fun b b' hb => ?_
  match b, b', hb with
  | .ok false, .ok _, rfl =>
      refine (abandon_bisim hp hop fence).bind fun _ _ _ => ?_
      exact Bisim.ret ⟨hr, rfl⟩
  | .ok true, .ok _, rfl =>
      refine Bisim.call trivial fun now now' hnow => ?_
      have hpay : SamePayload text (payloadOf cfg.maxResultBytes r)
          (if (Go.resultSize gr : ℤ) > g.maxResultBytes then Go.omitBody gr else gr) := by
        rw [hp.maxResultBytes]
        exact samePayload hr cfg.maxResultBytes
      refine Bisim.call ⟨hop, rfl, hpay, hnow⟩ fun st st' hst => ?_
      match st, st', hst with
      | .ok status, .ok _, rfl => exact Bisim.ret ⟨hr, rfl⟩
      | .error _, .error _, he =>
          refine (storeError_bisim hp hop he).bind fun _ _ _ => ?_
          exact Bisim.ret ⟨hr, rfl⟩

/-- What a `begin` can answer on the two sides. -/
lemma begin_cases {out : Except E (BeginOutcome IdempotencyRecord)}
    {out' : Except Go.GoError (BeginOutcome Go.Record)}
    (h : SameReply failure (SameOutcome sameRecord) out out') :
    (∃ e err, out = .error e ∧ out' = .error err ∧ failure e err)
      ∨ (∃ r r', out = .ok (.Completed r) ∧ out' = .ok (.Completed r') ∧ sameRecord r r')
      ∨ (∃ t, out = .ok (.InFlight t) ∧ out' = .ok (.InFlight (nanos t)))
      ∨ (∃ r r', out = .ok (.Mismatch r) ∧ out' = .ok (.Mismatch r') ∧ sameRecord r r')
      ∨ ∃ fence, out = .ok (.Acquired fence) ∧ out' = .ok (.Acquired fence) := by
  cases out with
  | error e =>
      cases out' with
      | error err => exact Or.inl ⟨e, err, rfl, rfl, h⟩
      | ok o' => exact False.elim h
  | ok o =>
      cases out' with
      | error err => exact False.elim h
      | ok o' =>
          change SameOutcome sameRecord o o' at h
          cases o <;> cases o' <;> simp only [SameOutcome] at h
          · exact Or.inr (Or.inr (Or.inr (Or.inr ⟨_, rfl, by rw [h]⟩)))
          · exact Or.inr (Or.inr (Or.inl ⟨_, rfl, by rw [h]⟩))
          · exact Or.inr (Or.inl ⟨_, _, rfl, rfl, h⟩)
          · exact Or.inr (Or.inr (Or.inr (Or.inl ⟨_, _, rfl, rfl, h⟩)))

/-- What a handler can do on the two sides. -/
lemma run_cases {out : Except E StoredResult} {out' : Except V (Except Go.GoError Go.StoredResult)}
    (h : SameRun text failure out out') :
    (∃ e err, out = .error e ∧ out' = .ok (.error err) ∧ failure e err)
      ∨ ∃ r r', out = .ok r ∧ out' = .ok (.ok r') ∧ SameResult text r r' := by
  match out, out', h with
  | .error e, .ok (.error err), he => exact Or.inl ⟨e, err, rfl, rfl, he⟩
  | .ok r, .ok (.ok r'), hr => exact Or.inr ⟨r, r', rfl, rfl, hr⟩

/-- **The engines make corresponding calls and return corresponding results.** -/
theorem execute_bisim (hp : SamePolicy cfg g) (hop : SameOperation text op gop) :
    Bisim (engineParity (E := E) (V := V) text failure sameRecord)
      (SameExecute text failure sameRecord) (executeCalls op cfg) (Go.executeCalls gop g) := by
  have hgo : Go.executeCalls (V := V) gop g = Go.executeNormalized Go.callStore gop
      (fun fence => Prog.call (Go.EngineCall.Run fence)) g.policy := by
    simp only [Go.executeCalls, Go.execute, Prog.pure_eq, Prog.ret_bind, hp.normalized_eq]
  rw [hgo, executeCalls, execute, Go.executeNormalized]
  simp only [hooks_getD]
  refine Bisim.call trivial fun now now' hnow => ?_
  refine Bisim.call ⟨hop, hp.lease, hp.ttl, hnow⟩ fun out out' hout => ?_
  rcases begin_cases hout with ⟨e, err, rfl, rfl, he⟩ | ⟨r, r', rfl, rfl, hr⟩ | ⟨t, rfl, rfl⟩
    | ⟨r, r', rfl, rfl, hr⟩ | ⟨fence, rfl, rfl⟩
  · refine (storeError_bisim hp hop he).bind ?_
    intro _ _ _
    simp only [PolicyConfig.policy, Go.PolicyConfig.policy, hp.onStoreError]
    cases cfg.onStoreError with
    | FailClosed => exact Bisim.ret ⟨he, rfl⟩
    | FailOpen =>
        refine Bisim.call rfl fun out out' hout => ?_
        rcases run_cases hout with ⟨e, err, rfl, rfl, he⟩ | ⟨r, r', rfl, rfl, hr⟩
        · exact Bisim.ret he
        · exact Bisim.ret ⟨hr, rfl⟩
  · refine (onReplayed_bisim hp hop hr).bind ?_
    intro _ _ _
    exact Bisim.ret hr
  · refine (onConflict_bisim hp hop t).bind ?_
    intro _ _ _
    exact Bisim.ret rfl
  · refine (onMismatch_bisim hp hop hr).bind ?_
    intro _ _ _
    exact Bisim.ret hr
  · refine (onAcquired_bisim hp hop).bind ?_
    intro _ _ _
    refine Bisim.call rfl fun out out' hout => ?_
    rcases run_cases hout with ⟨e, err, rfl, rfl, he⟩ | ⟨r, r', rfl, rfl, hr⟩
    · refine (abandon_bisim hp hop fence).bind ?_
      intro _ _ _
      exact Bisim.ret he
    · exact settle_bisim hp hop fence hr

end

end

/-- **The TypeScript and the Go engine are the same machine.**  Under corresponding policies with
positive terms, for every two environments that answer corresponding calls alike (the store with any
outcome or error on each call, the handler with a value or an error, the predicate with an answer, the
hooks as they like), `execute` and `Execute` make corresponding calls in the same order and return
corresponding results.  The calls are those of the store, with their fences and payloads, the runs of
the handler, the predicate, the clock and the hooks. -/
theorem engines_same_machine {E V : Type} (text : JsString → Go.GoString → Prop)
    (failure : E → Go.GoError → Prop) (sameRecord : IdempotencyRecord → Go.Record → Prop)
    (cfg : PolicyConfig) (g : Go.PolicyConfig) (hp : SamePolicy cfg g) (op : Operation)
    (gop : Go.Operation) (hop : SameOperation text op gop) (env : Env (EngineCall E) (EngineReply E))
    (env' : Env Go.EngineCall (Go.EngineReply V))
    (henv : (engineParity text failure sameRecord).env env env') :
    List.Forall₂ (engineParity text failure sameRecord).event
        ((executeCalls op cfg).play env []).1 ((Go.executeCalls gop g).play env' []).1
      ∧ SameExecute text failure sameRecord
        ((executeCalls op cfg).play env []).2 ((Go.executeCalls gop g).play env' []).2 :=
  (execute_bisim hp hop).play henv List.Forall₂.nil

/-! ## A run on both sides -/

/-- An environment that grants fence 3, whose handler writes five bytes, and whose `complete` fails. -/
def flakyEnv : Env (EngineCall Unit) (EngineReply Unit)
  | _, .Begin _ _ => .ok (.Acquired 3)
  | _, .Complete _ _ _ _ => .error ()
  | _, .Abandon _ _ => .ok .Ok
  | _, .Clock => 7
  | _, .Run _ => .ok { kind := .Http, status := some 201, body := some [1, 2, 3, 4, 5] }
  | _, .StoreResult _ => .ok true
  | _, .Hook _ => .error ()
  | _, .CountHookError => ()

def Go.flakyEnv : Env Go.EngineCall (Go.EngineReply Unit)
  | _, .Begin _ _ _ => .ok (.Acquired 3)
  | _, .Complete _ _ _ _ _ => .error (.Opaque (Go.ascii "down"))
  | _, .Abandon _ _ _ => .ok .Ok
  | _, .Now => nanos 7
  | _, .Run _ => .ok (.ok { kind := .Http, status := 201, body := some [1, 2, 3, 4, 5] })
  | _, .StoreResult _ => .ok true
  | _, .Hook _ => .error ()
  | _, .CountHookError => ()

/-- A cap of four bytes, a hook on store errors that fails, and a counter for it. -/
def flakyPolicy : PolicyConfig := ⟨10, 100, 4, .FailClosed, some { onStoreError := true }, true⟩

def Go.flakyPolicy : Go.PolicyConfig :=
  ⟨nanos 10, nanos 100, 4, true, .FailClosed, { onStoreError := true }, true⟩

/-- ASCII strings of the two languages. -/
def sameAscii (s : JsString) (g : Go.GoString) : Prop := g = s.map UInt16.toUInt8

/-- Both engines make the same eight calls, the omitted form among them, and say that the result was
not stored. -/
theorem engines_same_machine_flaky :
    List.Forall₂ (engineParity (V := Unit) sameAscii (fun _ _ => True) fun _ _ => True).event
        ((executeCalls ⟨js "POST /exports", js "k1", js "p"⟩ flakyPolicy).play flakyEnv []).1
        ((Go.executeCalls ⟨Go.ascii "POST /exports", Go.ascii "k1", Go.ascii "p"⟩
          Go.flakyPolicy).play Go.flakyEnv []).1
      ∧ ((executeCalls ⟨js "POST /exports", js "k1", js "p"⟩ flakyPolicy).play flakyEnv []).1.length
        = 8 := by
  have hpolicy : SamePolicy flakyPolicy Go.flakyPolicy := by
    constructor <;> first | rfl | decide
  have hop : SameOperation sameAscii ⟨js "POST /exports", js "k1", js "p"⟩
      ⟨Go.ascii "POST /exports", Go.ascii "k1", Go.ascii "p"⟩ := by
    constructor <;> rfl
  have hresult : SameResult sameAscii
      { kind := .Http, status := some 201, body := some [1, 2, 3, 4, 5] }
      { kind := .Http, status := 201, body := some [1, 2, 3, 4, 5] } := by
    constructor <;> first | rfl | exact Option.Rel.none
  refine ⟨(engines_same_machine sameAscii (fun _ _ => True) (fun _ _ => True) flakyPolicy
    Go.flakyPolicy hpolicy _ _ hop flakyEnv Go.flakyEnv ?_).1, rfl⟩
  intro past past' _ c c' hc
  cases c <;> cases c' <;> first | exact hc.elim | exact hresult | trivial

end Anyonce
