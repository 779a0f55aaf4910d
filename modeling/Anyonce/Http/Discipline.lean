import Anyonce.Http.BridgeRun

/-!
# What a request comes to

What `runIdempotent` promises of a request, for every store, handler, clock, set of options and hooks.

* `Follows` — what follows from the answer of `begin`.
* `BridgeDiscipline` — what is promised of a request.
* `bridge_disciplined` — **every request keeps it**.
-/

namespace Anyonce

open Interaction

section

variable {E Res : Type}

/-! ## What a request comes to -/

/-- The handler does not run. -/
def NoRun (t : List (BridgeEvent E Res)) : Prop := ∀ e ∈ t, e.1.isRun = false

/-- What follows from the answer of `begin`. -/
def Follows (cfg : BridgeConfig) (t : List (BridgeEvent E Res)) (a : Except E (Answer Res)) (key : JsString) :
    Except E (BeginOutcome IdempotencyRecord) → Prop
  | .ok (.Acquired fence) => ∃ r, ⟨.Run (some ⟨key, fence⟩), r⟩ ∈ t
  | .ok (.Completed record) => a = .ok (.Replayed record) ∧ NoRun t
  | .ok (.InFlight leaseUntil) => NoRun t ∧ ∃ now, ⟨.Engine .Clock, now⟩ ∈ t
      ∧ IsProblem cfg .Conflict none [(js "Retry-After", retryAfterSeconds leaseUntil now)] t a
  | .ok (.Mismatch _) => NoRun t ∧ IsProblem cfg .FingerprintMismatch none [] t a
  | .error _ => match cfg.policy.onStoreError with
      | .FailClosed => NoRun t ∧ IsProblem cfg .StoreUnavailable none [(js "Retry-After", js "1")] t a
      | .FailOpen => ∃ r, ⟨.Run (some ⟨key, 0⟩), r⟩ ∈ t

/-- A request that is answered before the store is asked: a function of the environment threw, or the request is
refused. -/
def AnsweredEarly (cfg : BridgeConfig) (req : Request) (ctx : RunContext) (t : List (BridgeEvent E Res))
    (a : Except E (Answer Res)) : Prop :=
  NoRun t ∧ (∀ c r, ⟨.Engine c, r⟩ ∉ t)
    ∧ ((∃ thrown, a = .error thrown ∧ ∃ e ∈ t, Throws thrown e)
      ∨ ∃ code detail headers, Refused cfg req ctx t code detail headers ∧ IsProblem cfg code detail headers t a)

/-- **What is promised of a request**, over the calls `t` of the bridge and what it answers.  By `course` every
request comes to one of three ends; `passed` says how the first is answered, and for the last `follows` says how,
unless the handler runs: then `own_response`, `captured` and `own_error` do. -/
structure BridgeDiscipline {F : Type} (d : NumberText.Doubles F) (sha256Hex : List UInt8 → JsString)
    (cfg : BridgeConfig) (req : Request) (ctx : RunContext) (t : List (BridgeEvent E Res))
    (a : Except E (Answer Res)) : Prop where
  /-- The handler runs at most once. -/
  run_once : t.countP (fun e => e.1.isRun) ≤ 1
  /-- The request passes by the layer, or the store is asked, or it is answered before. -/
  course : (∃ r, ⟨.Run none, r⟩ ∈ t) ∨ (∃ op opts r, ⟨.Engine (.Begin op opts), r⟩ ∈ t) ∨ AnsweredEarly cfg req ctx t a
  /-- A request that passes by the layer has a reason to, it is answered by the handler, and the store is not
  asked. -/
  passed : ∀ r, ⟨.Run none, r⟩ ∈ t → Passes cfg req ctx t ∧ a = r.map .Passed ∧ ∀ c r', ⟨.Engine c, r'⟩ ∉ t
  /-- Every store call is about the operation that the request is. -/
  identified : ∀ c r op, ⟨.Engine c, r⟩ ∈ t → c.operation = some op → Identified d sha256Hex cfg req ctx t op
  /-- The handler runs under the claim it was granted, or under none after `begin` failed. -/
  run_under_claim : ∀ info r, ⟨.Run (some info), r⟩ ∈ t → ∃ t₁ t₂ op opts,
    t = t₁ ++ ⟨.Run (some info), r⟩ :: t₂ ∧ op.key = info.key
      ∧ (⟨.Engine (.Begin op opts), .ok (.Acquired info.fence)⟩ ∈ t₁
        ∨ ∃ error, ⟨.Engine (.Begin op opts), .error error⟩ ∈ t₁ ∧ cfg.policy.onStoreError = .FailOpen
          ∧ info.fence = 0)
  /-- A response is marked degraded exactly when `begin` failed. -/
  degraded : ∀ res extraHeaders r, ⟨.Capture res extraHeaders, r⟩ ∈ t →
    extraHeaders = degradedHeaders ∧ BeginFailed t ∨ extraHeaders = [] ∧ ¬ BeginFailed t
  /-- A response the handler returned under a claim is captured. -/
  own_response : ∀ info res, ⟨.Run (some info), .ok res⟩ ∈ t → ∃ extraHeaders r, ⟨.Capture res extraHeaders, r⟩ ∈ t
  /-- The client gets the response that was captured, whatever becomes of the claim; and the request throws what its
  capture throws. -/
  captured : ∀ res extraHeaders r, ⟨.Capture res extraHeaders, r⟩ ∈ t → a = r.map fun _ => .Captured res extraHeaders
  /-- It gets no response of a handler that did not give it. -/
  captured_ran : ∀ res extraHeaders, a = .ok (.Captured res extraHeaders) → ∃ info, ⟨.Run (some info), .ok res⟩ ∈ t
  /-- The request throws what the handler throws. -/
  own_error : ∀ info thrown, ⟨.Run info, .error thrown⟩ ∈ t → a = .error thrown
  /-- It throws nothing of its own. -/
  rejects : ∀ thrown, a = .error thrown → ∃ e ∈ t, Throws thrown e
  /-- What the store answers decides the rest. -/
  follows : ∀ op opts r, ⟨.Engine (.Begin op opts), r⟩ ∈ t → Follows cfg t a op.key r

section

variable {F : Type} {d : NumberText.Doubles F} {sha256Hex : List UInt8 → JsString} {unreachable : E}
  {cfg : BridgeConfig} {req : Request} {ctx : RunContext} {t : List (BridgeEvent E Res)} {a : Except E (Answer Res)}

/-! ## Every request keeps it -/

lemma Identified.mono {op : Operation} {t' : List (BridgeEvent E Res)} (h : Identified d sha256Hex cfg req ctx t op)
    (ht : ∀ e ∈ t, e ∈ t') : Identified d sha256Hex cfg req ctx t' op := by
  obtain ⟨hkey, hscope, body, hbody, hfingerprint⟩ := h
  refine ⟨hkey, hscope, body, hbody.imp_right fun h => ⟨h.1, ht _ h.2⟩, ?_⟩
  split at hfingerprint
  · exact hfingerprint
  · exact ht _ hfingerprint

/-- A problem is no response of the handler, and no replay. -/
lemma IsProblem.not_response {code : ProblemCode} {detail : Option JsString} {headers : HeaderFields}
    (h : IsProblem cfg code detail headers t a) (res : Res) (extraHeaders : HeaderFields) :
    a ≠ .ok (.Captured res extraHeaders) := by
  unfold IsProblem at h
  split_ifs at h
  · obtain ⟨r, -, rfl⟩ := h
    cases r <;> simp [Except.map]
  · simp [h]

/-- It throws what `onError` throws. -/
lemma IsProblem.throws {code : ProblemCode} {detail : Option JsString} {headers : HeaderFields} {thrown : E}
    (h : IsProblem cfg code detail headers t a) (ha : a = .error thrown) : ∃ e ∈ t, Throws thrown e := by
  unfold IsProblem at h
  split_ifs at h
  · obtain ⟨r, hmem, rfl⟩ := h
    cases r with
    | error thrown' => exact ⟨_, hmem, by simpa [Except.map, Throws] using ha⟩
    | ok res => cases ha
  · rw [h] at ha
    cases ha

lemma Passes.mono {t' : List (BridgeEvent E Res)} (h : Passes cfg req ctx t) (ht : ∀ e ∈ t, e ∈ t') :
    Passes cfg req ctx t' := by
  cases h with
  | method hmethod => exact .method hmethod
  | skipped hskip => exact .skipped (ht _ hskip)
  | keyless hkey hoptional => exact .keyless hkey hoptional

lemma AfterEngine.not_run {e : BridgeEvent E Res} (h : AfterEngine e) : e.1.isRun = false := by
  obtain ⟨c, r⟩ := e
  rcases h with hquiet | hclock
  · cases c with
    | Run info => cases hquiet
    | _ => rfl
  · cases c with
    | Run info => cases hclock
    | _ => rfl

lemma countP_isRun_after (ht : ∀ e ∈ t, AfterEngine e) : t.countP (fun e => e.1.isRun) = 0 :=
  List.countP_eq_zero.mpr fun e he => by simp [(ht e he).not_run]

lemma countP_isRun_quiet (ht : ∀ e ∈ t, e.1.isQuiet = true) : t.countP (fun e => e.1.isRun) = 0 :=
  countP_isRun_after fun e he => Or.inl (ht e he)

/-- The one call of a request that passes by the layer. -/
lemma mem_passed {pre : List (BridgeEvent E Res)} (hpre : ∀ e ∈ pre, e.1.isQuiet = true) {r : Except E Res}
    {c : BridgeCall E Res} {r' : BridgeReply E Res c} (hmem : ⟨c, r'⟩ ∈ pre ++ [⟨.Run none, r⟩])
    (hc : c.isQuiet = false) : (⟨c, r'⟩ : BridgeEvent E Res) = ⟨.Run none, r⟩ := by
  rcases List.mem_append.mp hmem with hmem | hmem
  · have hquiet := hpre _ hmem
    rw [hc] at hquiet
    cases hquiet
  · exact List.mem_singleton.mp hmem

lemma discipline_passed {pre : List (BridgeEvent E Res)} (hpre : ∀ e ∈ pre, e.1.isQuiet = true)
    (hpasses : Passes cfg req ctx pre) (r : Except E Res) :
    BridgeDiscipline d sha256Hex cfg req ctx (pre ++ [⟨.Run none, r⟩]) (r.map .Passed) where
  run_once := by
    rw [List.countP_append, countP_isRun_quiet hpre]
    simp [BridgeCall.isRun]
  course := Or.inl ⟨r, by simp⟩
  passed := by
    intro r' hmem
    cases mem_passed hpre hmem rfl
    refine ⟨hpasses.mono fun e he => List.mem_append_left _ he, rfl, fun c r'' hmem' => ?_⟩
    cases mem_passed hpre hmem' rfl
  identified := by
    intro c r' op hmem
    cases mem_passed hpre hmem rfl
  run_under_claim := by
    intro info r' hmem
    cases mem_passed hpre hmem rfl
  degraded := by
    intro res extraHeaders r' hmem
    cases mem_passed hpre hmem rfl
  own_response := by
    intro info res hmem
    cases mem_passed hpre hmem rfl
  captured := by
    intro res extraHeaders r' hmem
    cases mem_passed hpre hmem rfl
  captured_ran := by
    intro res extraHeaders ha
    cases r <;> simp [Except.map] at ha
  own_error := by
    intro info thrown hmem
    cases mem_passed hpre hmem rfl
    rfl
  rejects := by
    intro thrown ha
    refine ⟨⟨.Run none, r⟩, by simp, ?_⟩
    cases r with
    | error thrown' => simpa [Except.map, Throws] using ha
    | ok res => cases ha
  follows := by
    intro op opts r' hmem
    cases mem_passed hpre hmem rfl

lemma not_quiet {c : BridgeCall E Res} {r : BridgeReply E Res c} (ht : ∀ e ∈ t, e.1.isQuiet = true)
    (hc : c.isQuiet = false) : ⟨c, r⟩ ∉ t := by
  intro hmem
  have hquiet := ht _ hmem
  rw [hc] at hquiet
  cases hquiet

lemma discipline_refused (ht : ∀ e ∈ t, e.1.isQuiet = true)
    (ha : (∃ thrown, a = .error thrown ∧ ∃ e ∈ t, Throws thrown e)
      ∨ ∃ code detail headers, Refused cfg req ctx t code detail headers ∧ IsProblem cfg code detail headers t a) :
    BridgeDiscipline d sha256Hex cfg req ctx t a where
  run_once := by simp [countP_isRun_quiet ht]
  course := Or.inr (Or.inr ⟨fun e he => AfterEngine.not_run (Or.inl (ht e he)), fun c r hmem => not_quiet ht rfl hmem, ha⟩)
  passed := fun r hmem => absurd hmem (not_quiet ht rfl)
  identified := fun c r op hmem => absurd hmem (not_quiet ht rfl)
  run_under_claim := fun info r hmem => absurd hmem (not_quiet ht rfl)
  degraded := fun res extraHeaders r hmem => absurd hmem (not_quiet ht rfl)
  own_response := fun info res hmem => absurd hmem (not_quiet ht rfl)
  captured := fun res extraHeaders r hmem => absurd hmem (not_quiet ht rfl)
  captured_ran := by
    intro res extraHeaders hcaptured
    rcases ha with ⟨thrown, rfl, -⟩ | ⟨code, detail, headers, -, hproblem⟩
    · cases hcaptured
    · exact absurd hcaptured (hproblem.not_response res extraHeaders)
  own_error := fun info thrown hmem => absurd hmem (not_quiet ht rfl)
  rejects := by
    intro thrown hthrown
    rcases ha with ⟨thrown', rfl, hthrows⟩ | ⟨code, detail, headers, -, hproblem⟩
    · obtain rfl := Except.error.inj hthrown
      exact hthrows
    · exact hproblem.throws hthrown
  follows := fun op opts r hmem => absurd hmem (not_quiet ht rfl)

section Ran

variable {pre post : List (BridgeEvent E Res)} {op : Operation} {u : List (EngineEvent E)}
  {out : Except E (ExecuteResult E)} {s s₁ s₂ : BridgeState Res}

/-- What is neither quiet nor a clock reading belongs to the engine's run. -/
lemma mem_ran (hpre : ∀ e ∈ pre, e.1.isQuiet = true) (hpost : ∀ e ∈ post, AfterEngine e) {c : BridgeCall E Res}
    {r : BridgeReply E Res c} (hmem : ⟨c, r⟩ ∈ pre ++ t ++ post) (hquiet : c.isQuiet = false)
    (hclock : c ≠ .Engine .Clock) : ⟨c, r⟩ ∈ t := by
  rcases List.mem_append.mp hmem with hmem | hmem
  · rcases List.mem_append.mp hmem with hmem | hmem
    · exact absurd hmem (not_quiet hpre hquiet)
    · exact hmem
  · rcases hpost _ hmem with hq | hc
    · rw [show c.isQuiet = true from hq] at hquiet
      cases hquiet
    · exact absurd hc hclock

/-- What is not asked for the engine belongs to the run of the handler. -/
lemma mem_handler {t₁ t₂ t₃ : List (BridgeEvent E Res)} (h₁ : ∀ e ∈ t₁, ∃ c, e.1 = BridgeCall.Engine c)
    (h₃ : ∀ e ∈ t₃, ∃ c, e.1 = BridgeCall.Engine c) {e : BridgeEvent E Res} (hmem : e ∈ t₁ ++ t₂ ++ t₃)
    (he : ∀ c, e.1 ≠ .Engine c) : e ∈ t₂ := by
  rcases List.mem_append.mp hmem with hmem | hmem
  · rcases List.mem_append.mp hmem with hmem | hmem
    · obtain ⟨c, hc⟩ := h₁ e hmem
      exact absurd hc (he c)
    · exact hmem
  · obtain ⟨c, hc⟩ := h₃ e hmem
    exact absurd hc (he c)

/-- A handler that runs has a response captured, with its headers, or the engine fails with its error. -/
lemma Answered.of_run {fence : ℤ} {r : Except E StoredResult} {key : JsString}
    (h : Answered key degradedHeaders s₁ (.Run fence) r t s₂) :
    (∃ thrown, r = .error thrown ∧ s₂ = s₁ ∧ (∃ e ∈ t, Throws thrown e)
        ∧ (∀ res extraHeaders, ⟨.Capture res extraHeaders, .ok ()⟩ ∉ t)
        ∧ ∀ info thrown', ⟨.Run info, .error thrown'⟩ ∈ t → thrown' = thrown)
    ∨ ∃ res extraHeaders, s₂.capture = some (res, extraHeaders)
        ∧ (∀ res' extraHeaders', ⟨.Capture res' extraHeaders', .ok ()⟩ ∈ t → res' = res ∧ extraHeaders' = extraHeaders)
        ∧ ⟨.Run (some ⟨key, fence⟩), .ok res⟩ ∈ t ∧ ∀ info thrown, ⟨.Run info, .error thrown⟩ ∉ t := by
  cases h with
  | asked c r hrun hstore => cases hrun
  | threw fence thrown =>
      refine Or.inl ⟨thrown, rfl, rfl, ⟨_, List.mem_cons_self, rfl⟩, by simp, ?_⟩
      intro info thrown' hmem
      cases List.mem_singleton.mp hmem
      rfl
  | uncaptured fence res thrown =>
      refine Or.inl ⟨thrown, rfl, rfl, ⟨_, List.mem_cons_of_mem _ List.mem_cons_self, rfl⟩, by simp, by simp⟩
  | captured fence res r =>
      refine Or.inr ⟨res, _, rfl, ?_, List.mem_cons_self, by simp⟩
      simp +contextual

/-- The response of a handler is captured, or its capture fails and so does the engine. -/
lemma Answered.capture_answer {fence : ℤ} {r : Except E StoredResult} {key : JsString}
    (h : Answered key degradedHeaders s₁ (.Run fence) r t s₂) {res : Res} {extraHeaders : HeaderFields}
    {r' : Except E Unit} (hmem : ⟨.Capture res extraHeaders, r'⟩ ∈ t) :
    (r' = .ok () ∧ s₂.capture = some (res, extraHeaders)) ∨ ∃ thrown, r' = .error thrown ∧ r = .error thrown ∧ s₂ = s₁ := by
  cases h with
  | asked c r hrun hstore => cases hrun
  | threw fence thrown => simp at hmem
  | uncaptured fence res thrown =>
      simp at hmem
      exact Or.inr ⟨thrown, hmem.2, rfl, rfl⟩
  | captured fence res r =>
      simp at hmem
      obtain ⟨⟨rfl, rfl⟩, rfl⟩ := hmem
      exact Or.inl ⟨rfl, rfl⟩

lemma Answered.captures {fence : ℤ} {r : Except E StoredResult} {key : JsString}
    (h : Answered key degradedHeaders s₁ (.Run fence) r t s₂) {info : Option IdempotencyInfo} {res : Res}
    (hmem : ⟨.Run info, .ok res⟩ ∈ t) : ∃ extraHeaders r', ⟨.Capture res extraHeaders, r'⟩ ∈ t := by
  cases h with
  | asked c r hrun hstore => cases hrun
  | threw fence thrown => simp at hmem
  | uncaptured fence res thrown =>
      simp at hmem
      obtain ⟨rfl, rfl⟩ := hmem
      exact ⟨_, _, List.mem_cons_of_mem _ List.mem_cons_self⟩
  | captured fence res r =>
      simp at hmem
      obtain ⟨rfl, rfl⟩ := hmem
      exact ⟨_, _, List.mem_cons_of_mem _ List.mem_cons_self⟩

lemma Answered.run_mem {fence : ℤ} {r : Except E StoredResult} {key : JsString}
    (h : Answered key degradedHeaders s₁ (.Run fence) r t s₂) :
    ∃ r' rest, t = ⟨.Run (some ⟨key, fence⟩), r'⟩ :: rest ∧ rest.countP (fun e => e.1.isRun) = 0 := by
  cases h with
  | asked c r hrun hstore => cases hrun
  | threw fence thrown => exact ⟨_, _, rfl, rfl⟩
  | uncaptured fence res thrown => exact ⟨_, _, rfl, rfl⟩
  | captured fence res r => exact ⟨_, _, rfl, rfl⟩

lemma Answered.capture_mem {fence : ℤ} {r : Except E StoredResult} {key : JsString}
    (h : Answered key degradedHeaders s₁ (.Run fence) r t s₂) {res : Res} {extraHeaders : HeaderFields}
    {r' : Except E Unit} (hmem : ⟨.Capture res extraHeaders, r'⟩ ∈ t) :
    extraHeaders = if s₁.degraded then degradedHeaders else [] := by
  cases h with
  | asked c r hrun hstore => cases hrun
  | threw fence thrown => simp at hmem
  | uncaptured fence res thrown =>
      simp at hmem
      exact hmem.1.2
  | captured fence res r =>
      simp at hmem
      exact hmem.1.2

lemma mem_ran_of_mem {e : BridgeEvent E Res} (hmem : e ∈ t) : e ∈ pre ++ t ++ post :=
  List.mem_append_left _ (List.mem_append_right _ hmem)

lemma beginFailed_ran (hpre : ∀ e ∈ pre, e.1.isQuiet = true) (hpost : ∀ e ∈ post, AfterEngine e) :
    BeginFailed (pre ++ t ++ post) ↔ BeginFailed t := by
  constructor
  · rintro ⟨op, opts, error, hmem⟩
    exact ⟨op, opts, error, mem_ran hpre hpost hmem rfl (by simp)⟩
  · rintro ⟨op, opts, error, hmem⟩
    exact ⟨op, opts, error, mem_ran_of_mem hmem⟩

/-- What `begin` answered decides what the engine's run leads to. -/
lemma follows_ran (hpre : ∀ e ∈ pre, e.1.isQuiet = true) (hpost : ∀ e ∈ post, AfterEngine e)
    (hrun : Runs (executeCalls op cfg.policy.bridged) u out)
    (hu : Interpreted (bridgeAnswers cfg unreachable op.key) {} u t s) (hresponds : Responds cfg unreachable s post a out)
    {opts : BeginOptions} {r : Except E (BeginOutcome IdempotencyRecord)} (hmem : ⟨.Begin op opts, r⟩ ∈ u) :
    Follows cfg (pre ++ t ++ post) a op.key r := by
  have hfollows := (execute_path hrun).follows (mem_visible.mpr ⟨hmem, rfl⟩)
  have hran : ∀ fence r, ⟨.Run fence, r⟩ ∈ visible EngineCall.shown u →
      ∃ r', (⟨.Run (some ⟨op.key, fence⟩), r'⟩ : BridgeEvent E Res) ∈ pre ++ t ++ post := by
    intro fence r hmem
    obtain ⟨u₁, u₂, rfl⟩ := List.append_of_mem (mem_visible.mp hmem).1
    obtain ⟨t₁, t₂, t₃, s₁, s₂, rfl, -, hcall, -⟩ := hu.split
    obtain ⟨r', rest, rfl, -⟩ := (answered_of_runs hcall).run_mem
    exact ⟨r', mem_ran_of_mem (by simp)⟩
  have hnone : (∀ e ∈ visible EngineCall.shown u, e.1.isRun = false) → NoRun (pre ++ t ++ post) := by
    intro hvisible
    have hengine := interpreted_engine_only hu fun e he => by
      by_contra hr
      obtain ⟨c, r⟩ := e
      obtain ⟨fence, rfl⟩ := c.eq_run (by simpa using hr)
      exact absurd (hvisible _ (mem_visible.mpr ⟨he, rfl⟩)) (by simp [EngineCall.isRun])
    intro e he
    rcases List.mem_append.mp he with he | he
    · rcases List.mem_append.mp he with he | he
      · exact AfterEngine.not_run (Or.inl (hpre e he))
      · obtain ⟨c, r⟩ := e
        obtain ⟨c', rfl⟩ := hengine _ he
        rfl
    · exact (hpost e he).not_run
  have hmono : ∀ e ∈ post, e ∈ pre ++ t ++ post := fun e he => List.mem_append_right _ he
  rcases r with error | (fence | leaseUntil | record | record)
  · cases hmode : cfg.policy.onStoreError with
    | FailClosed =>
        have hbridged : cfg.policy.bridged.onStoreError = .FailClosed := hmode
        simp only [PathFollows, hbridged] at hfollows
        obtain ⟨rfl, hvisible⟩ := hfollows
        simp only [Follows, hmode]
        exact ⟨hnone hvisible, IsProblem.mono hresponds hmono⟩
    | FailOpen =>
        have hbridged : cfg.policy.bridged.onStoreError = .FailOpen := hmode
        simp only [PathFollows, hbridged] at hfollows
        obtain ⟨r, hmem'⟩ := hfollows
        simp only [Follows, hmode]
        exact hran 0 r hmem'
  · obtain ⟨r, hmem'⟩ := hfollows
    exact hran fence r hmem'
  · obtain ⟨rfl, hvisible⟩ := hfollows
    obtain ⟨now, hclock, hproblem⟩ := hresponds
    exact ⟨hnone hvisible, now, hmono _ hclock, hproblem.mono hmono⟩
  · obtain ⟨rfl, hvisible⟩ := hfollows
    exact ⟨hresponds, hnone hvisible⟩
  · obtain ⟨rfl, hvisible⟩ := hfollows
    exact ⟨hnone hvisible, IsProblem.mono hresponds hmono⟩

lemma Responds.captured {res : Res} {extraHeaders : HeaderFields} (h : Responds cfg unreachable s post a out)
    (ha : a = .ok (.Captured res extraHeaders)) : s.capture = some (res, extraHeaders) := by
  rcases out with error | (⟨result, stored⟩ | record | leaseUntil | record | error)
  · cases hcapture : s.capture <;> simp_all [Responds]
  · cases hcapture : s.capture <;> simp_all [Responds]
  · simp_all [Responds]
  · obtain ⟨now, -, hproblem⟩ := h
    exact absurd ha (hproblem.not_response res extraHeaders)
  · exact absurd ha (IsProblem.not_response h res extraHeaders)
  · exact absurd ha (IsProblem.not_response h res extraHeaders)

lemma Responds.throws {thrown : E} (h : Responds cfg unreachable s post a out) (ha : a = .error thrown) :
    (∃ e ∈ post, Throws thrown e)
      ∨ s.capture = none ∧ ((∃ result stored, out = .ok (.Executed result stored)) ∨ out = .error thrown) := by
  rcases out with error | (⟨result, stored⟩ | record | leaseUntil | record | error)
  · cases hcapture : s.capture <;> simp_all [Responds]
  · cases hcapture : s.capture <;> simp_all [Responds]
  · simp_all [Responds]
  · obtain ⟨now, -, hproblem⟩ := h
    exact Or.inl (hproblem.throws ha)
  · exact Or.inl (IsProblem.throws h ha)
  · exact Or.inl (IsProblem.throws h ha)

/-- **A response that was captured is the answer**, whatever the engine returned. -/
lemma Responds.own {res : Res} {extraHeaders : HeaderFields} (h : Responds cfg unreachable s post a out)
    (hcapture : s.capture = some (res, extraHeaders))
    (hout : (∃ result stored, out = .ok (.Executed result stored)) ∨ ∃ thrown, out = .error thrown) :
    a = .ok (.Captured res extraHeaders) := by
  rcases hout with ⟨result, stored, rfl⟩ | ⟨thrown, rfl⟩
  · simpa [Responds, hcapture] using h
  · simpa [Responds, hcapture] using h

/-- Without a handler the engine neither reports an execution nor throws. -/
lemma no_handler_outcome (hrun : Runs (executeCalls op cfg.policy.bridged) u out)
    (hnone : ∀ e ∈ u, e.1.isRun = false) :
    ¬ ((∃ result stored, out = .ok (.Executed result stored)) ∨ ∃ thrown, out = .error thrown) := by
  have hpath := execute_path hrun
  rintro (⟨result, stored, hout⟩ | ⟨thrown, hout⟩)
  · obtain ⟨fence, hmem⟩ := hpath.executed_ran hout
    exact absurd (hnone _ (mem_visible.mp hmem).1) (by simp [EngineCall.isRun])
  · obtain ⟨fence, r, hmem, -⟩ := hpath.threw_or_ran hout
    exact absurd (hnone _ (mem_visible.mp hmem).1) (by simp [EngineCall.isRun])

/-- **What holds of a request for which the engine runs**, whether the handler does or not. -/
structure Asked {F : Type} (d : NumberText.Doubles F) (sha256Hex : List UInt8 → JsString) (cfg : BridgeConfig)
    (req : Request) (ctx : RunContext) (t : List (BridgeEvent E Res)) (a : Except E (Answer Res)) : Prop where
  run_once : t.countP (fun e => e.1.isRun) ≤ 1
  begun : ∃ op opts r, ⟨.Engine (.Begin op opts), r⟩ ∈ t
  identified : ∀ c r op, ⟨.Engine c, r⟩ ∈ t → c.operation = some op → Identified d sha256Hex cfg req ctx t op
  follows : ∀ op opts r, ⟨.Engine (.Begin op opts), r⟩ ∈ t → Follows cfg t a op.key r

/-- A store call is one of the engine's run, about its operation. -/
lemma operation_ran (hpre : ∀ e ∈ pre, e.1.isQuiet = true) (hpost : ∀ e ∈ post, AfterEngine e)
    (hrun : Runs (executeCalls op cfg.policy.bridged) u out)
    (hu : Interpreted (bridgeAnswers cfg unreachable op.key) {} u t s) {c : EngineCall E} {r : EngineReply E c}
    {op' : Operation} (hmem : ⟨.Engine c, r⟩ ∈ pre ++ t ++ post) (hc : c.operation = some op') :
    op' = op ∧ ⟨c, r⟩ ∈ u := by
  have hshown : c.shown = true := by
    cases c <;> first | rfl | cases hc
  have hclock : c ≠ .Clock := by
    rintro rfl
    cases hc
  have hmem' := interpreted_engine hu (mem_ran hpre hpost hmem rfl fun heq => hclock (BridgeCall.Engine.inj heq))
  exact ⟨(execute_path hrun).operation (mem_visible.mpr ⟨hmem', hshown⟩) hc, hmem'⟩

lemma asked_ran (hpre : ∀ e ∈ pre, e.1.isQuiet = true) (hop : Identified d sha256Hex cfg req ctx pre op)
    (hpost : ∀ e ∈ post, AfterEngine e) (hrun : Runs (executeCalls op cfg.policy.bridged) u out)
    (hu : Interpreted (bridgeAnswers cfg unreachable op.key) {} u t s) (hresponds : Responds cfg unreachable s post a out) :
    Asked d sha256Hex cfg req ctx (pre ++ t ++ post) a where
  run_once := by
    rw [List.countP_append, List.countP_append, countP_isRun_quiet hpre, countP_isRun_after hpost,
      interpreted_run_count hu, ← countP_isRun_shown, Nat.zero_add, Nat.add_zero]
    exact (execute_path hrun).run_once
  begun := by
    obtain ⟨opts, r, hmem⟩ := (execute_path hrun).begun
    have hasked := engine_interpreted hu (mem_visible.mp hmem).1 rfl rfl
    exact ⟨op, opts, r, mem_ran_of_mem hasked⟩
  identified := by
    intro c r op' hmem hc
    obtain ⟨rfl, -⟩ := operation_ran hpre hpost hrun hu hmem hc
    exact hop.mono fun e he => List.mem_append_left _ (List.mem_append_left _ he)
  follows := by
    intro op' opts r hmem
    obtain ⟨rfl, hmem'⟩ := operation_ran hpre hpost hrun hu hmem rfl
    exact follows_ran hpre hpost hrun hu hresponds hmem'

/-- The engine runs, and the handler does not. -/
lemma discipline_unhandled (hpre : ∀ e ∈ pre, e.1.isQuiet = true) (hpost : ∀ e ∈ post, AfterEngine e)
    (hrun : Runs (executeCalls op cfg.policy.bridged) u out) (hresponds : Responds cfg unreachable s post a out)
    (hasked : Asked d sha256Hex cfg req ctx (pre ++ t ++ post) a) (hnone : ∀ e ∈ u, e.1.isRun = false)
    (hengine : ∀ e ∈ t, ∃ c, e.1 = BridgeCall.Engine c) (hcapture : s.capture = none) :
    BridgeDiscipline d sha256Hex cfg req ctx (pre ++ t ++ post) a := by
  have hnot : ∀ c r, c.isQuiet = false → (∀ c', c ≠ .Engine c') → ⟨c, r⟩ ∉ pre ++ t ++ post := by
    intro c r hquiet hc hmem
    obtain ⟨c', heq⟩ := hengine _ (mem_ran hpre hpost hmem hquiet (hc _))
    exact hc c' heq
  exact {
    run_once := hasked.run_once
    course := Or.inr (Or.inl hasked.begun)
    passed := fun r hmem => absurd hmem (hnot _ _ rfl (by simp))
    identified := hasked.identified
    run_under_claim := fun info r hmem => absurd hmem (hnot _ _ rfl (by simp))
    degraded := fun res extraHeaders r hmem => absurd hmem (hnot _ _ rfl (by simp))
    own_response := fun info res hmem => absurd hmem (hnot _ _ rfl (by simp))
    captured := fun res extraHeaders r hmem => absurd hmem (hnot _ _ rfl (by simp))
    captured_ran := by
      intro res extraHeaders ha
      rw [hresponds.captured ha] at hcapture
      cases hcapture
    own_error := fun info thrown hmem => absurd hmem (hnot _ _ rfl (by simp))
    rejects := by
      intro thrown ha
      rcases hresponds.throws ha with ⟨e, he, hthrows⟩ | ⟨-, hout⟩
      · exact ⟨e, List.mem_append_right _ he, hthrows⟩
      · exact absurd (hout.imp_right fun h => ⟨thrown, h⟩) (no_handler_outcome hrun hnone)
    follows := hasked.follows }

section Handled

variable {fence : ℤ} {r : Except E StoredResult} {t₁ t₂ t₃ : List (BridgeEvent E Res)}

/-- What the handler's run makes of the engine, where the handler or its capture threw. -/
lemma Responds.own_throw {thrown : E} (h : Responds cfg unreachable s post a out)
    (hpath : Path op cfg.policy.bridged (visible EngineCall.shown u) out) (hran : ⟨.Run fence, .error thrown⟩ ∈ u)
    (hcapture : s.capture = none) : a = .error thrown := by
  have hout := hpath.own_error (mem_visible.mpr ⟨hran, rfl⟩)
  subst hout
  simpa [Responds, hcapture] using h

/-- The engine runs, and the handler in it. -/
lemma discipline_handled (hpre : ∀ e ∈ pre, e.1.isQuiet = true) (hpost : ∀ e ∈ post, AfterEngine e)
    (hpath : Path op cfg.policy.bridged (visible EngineCall.shown u) out) (hresponds : Responds cfg unreachable s post a out)
    (hasked : Asked d sha256Hex cfg req ctx (pre ++ (t₁ ++ t₂ ++ t₃) ++ post) a) (hran : ⟨.Run fence, r⟩ ∈ u)
    (h₁ : ∀ e ∈ t₁, ∃ c, e.1 = BridgeCall.Engine c) (h₃ : ∀ e ∈ t₃, ∃ c, e.1 = BridgeCall.Engine c)
    (hanswered : Answered op.key degradedHeaders s₁ (.Run fence) r t₂ s₂) (hs₁ : s₁.capture = none)
    (hs : s.capture = s₂.capture) (hdegraded : s₁.degraded = true ↔ BeginFailed (t₁ ++ t₂ ++ t₃))
    {opts : BeginOptions} (hclaim : ⟨.Engine (.Begin op opts), .ok (.Acquired fence)⟩ ∈ t₁
      ∨ ∃ error, ⟨.Engine (.Begin op opts), .error error⟩ ∈ t₁ ∧ cfg.policy.onStoreError = .FailOpen ∧ fence = 0) :
    BridgeDiscipline d sha256Hex cfg req ctx (pre ++ (t₁ ++ t₂ ++ t₃) ++ post) a := by
  have hhandler : ∀ c r, c.isQuiet = false → (∀ c', c ≠ .Engine c') →
      ⟨c, r⟩ ∈ pre ++ (t₁ ++ t₂ ++ t₃) ++ post → ⟨c, r⟩ ∈ t₂ := by
    intro c r hquiet hc hmem
    exact mem_handler h₁ h₃ (mem_ran hpre hpost hmem hquiet (hc _)) hc
  have hmiddle : ∀ e ∈ t₂, e ∈ pre ++ (t₁ ++ t₂ ++ t₃) ++ post := fun e he => mem_ran_of_mem (by simp [he])
  obtain ⟨r₀, rest, hhead, hnoMore⟩ := hanswered.run_mem
  have honly : ∀ {info r'}, ⟨.Run info, r'⟩ ∈ pre ++ (t₁ ++ t₂ ++ t₃) ++ post → info = some ⟨op.key, fence⟩ ∧ r' = r₀ := by
    intro info r' hmem
    have hmem' := hhandler _ _ rfl (by simp) hmem
    rw [hhead] at hmem'
    rcases List.mem_cons.mp hmem' with heq | hmem'
    · cases heq
      exact ⟨rfl, rfl⟩
    · exact absurd rfl (List.countP_eq_zero.mp hnoMore _ hmem')
  exact {
    run_once := hasked.run_once
    course := Or.inr (Or.inl hasked.begun)
    passed := fun r' hmem => by cases (honly hmem).1
    identified := hasked.identified
    run_under_claim := by
      intro info r' hmem
      obtain ⟨hinfo, rfl⟩ := honly hmem
      obtain rfl := Option.some.inj hinfo
      refine ⟨pre ++ t₁, rest ++ t₃ ++ post, op, opts, by simp [hhead], rfl, ?_⟩
      rcases hclaim with hacquired | ⟨error, hthrew, hmode, hfence⟩
      · exact Or.inl (List.mem_append_right _ hacquired)
      · exact Or.inr ⟨error, List.mem_append_right _ hthrew, hmode, hfence⟩
    degraded := by
      intro res extraHeaders r' hmem
      rw [hanswered.capture_mem (hhandler _ _ rfl (by simp) hmem), beginFailed_ran hpre hpost, ← hdegraded]
      cases s₁.degraded <;> simp
    own_response := by
      intro info res hmem
      obtain ⟨extraHeaders, r', hcapture⟩ := hanswered.captures (hhandler _ _ rfl (by simp) hmem)
      exact ⟨extraHeaders, r', hmiddle _ hcapture⟩
    captured := by
      intro res extraHeaders r' hmem
      rcases hanswered.capture_answer (hhandler _ _ rfl (by simp) hmem) with ⟨rfl, hcaptured⟩ | ⟨thrown, rfl, rfl, rfl⟩
      · have houtcome := hpath.ran_outcome (mem_visible.mpr ⟨hran, rfl⟩)
        exact hresponds.own (hs.trans hcaptured)
          (houtcome.imp_left fun ⟨result, stored, _, hout⟩ => ⟨result, stored, hout⟩)
      · exact hresponds.own_throw hpath hran (hs.trans hs₁)
    captured_ran := by
      intro res extraHeaders ha
      have hcapture := hs.symm.trans (hresponds.captured ha)
      rcases hanswered.of_run with ⟨thrown, -, rfl, -, -, -⟩ | ⟨res', extraHeaders', hcaptured, -, hrunMem, -⟩
      · rw [hs₁] at hcapture
        cases hcapture
      · rw [hcaptured] at hcapture
        cases hcapture
        exact ⟨_, hmiddle _ hrunMem⟩
    own_error := by
      intro info thrown hmem
      rcases hanswered.of_run with ⟨thrown', rfl, rfl, -, -, hsame⟩ | ⟨res', extraHeaders', -, -, -, hno⟩
      · obtain rfl := hsame _ _ (hhandler _ _ rfl (by simp) hmem)
        exact hresponds.own_throw hpath hran (hs.trans hs₁)
      · exact absurd (hhandler _ _ rfl (by simp) hmem) (hno info thrown)
    rejects := by
      intro thrown ha
      rcases hresponds.throws ha with ⟨e, he, hthrows⟩ | ⟨hcapture, -⟩
      · exact ⟨e, List.mem_append_right _ he, hthrows⟩
      · rcases hanswered.of_run with ⟨thrown', rfl, rfl, ⟨e, he, hthrows⟩, -, -⟩ | ⟨res', extraHeaders', hcaptured, -⟩
        · obtain rfl := Except.error.inj (ha.symm.trans (hresponds.own_throw hpath hran hcapture))
          exact ⟨e, hmiddle e he, hthrows⟩
        · rw [hs, hcaptured] at hcapture
          cases hcapture
    follows := hasked.follows }

end Handled

lemma discipline_ran (hpre : ∀ e ∈ pre, e.1.isQuiet = true) (hop : Identified d sha256Hex cfg req ctx pre op)
    (hrun : Runs (executeCalls op cfg.policy.bridged) u out)
    (hu : Interpreted (bridgeAnswers cfg unreachable op.key) {} u t s)
    (hpost : Runs (settled (transportOf Prog.call unreachable) (cfg.options Prog.call) req (out, s)) post a) :
    BridgeDiscipline d sha256Hex cfg req ctx (pre ++ t ++ post) a := by
  obtain ⟨hafter, hresponds⟩ := runs_settled hpost
  have hasked := asked_ran hpre hop hafter hrun hu hresponds
  rcases handler_run hrun hu with ⟨hnone, hengine, hcapture⟩
    | ⟨fence, r, t₁, t₂, t₃, s₁, s₂, hran, rfl, h₁, h₃, hanswered, hs₁, hs, hdegraded, opts, hclaim⟩
  · exact discipline_unhandled hpre hafter hrun hresponds hasked hnone hengine hcapture
  · exact discipline_handled hpre hafter (execute_path hrun) hresponds hasked hran h₁ h₃ hanswered hs₁ hs hdegraded hclaim

end Ran

/-- Every request keeps the discipline. -/
lemma bridge_discipline (h : Runs (bridgeCalls d sha256Hex unreachable cfg req ctx) t a) :
    BridgeDiscipline d sha256Hex cfg req ctx t a := by
  cases bridge_run h with
  | passed pre r hpre hpasses => exact discipline_passed hpre hpasses r
  | refused t a ht ha => exact discipline_refused ht ha
  | ran pre t post op u out s a hpre hop hrun ht hpost => exact discipline_ran hpre hop hrun ht hpost

def transferRequest : Request where
  method := js "POST"
  token := List.all_iff_forall_prop.mp (by decide +kernel)
  url := ⟨js "/transfers", [], List.all_iff_forall_prop.mp (by decide +kernel)⟩
  headers := ⟨[]⟩
  body := some [0x31]

/-- A door that fails open, with a fingerprint of its own. -/
def openDoor : BridgeConfig where
  methods := [js "POST"]
  headerName := js "Idempotency-Key"
  required := true
  keySyntax := .Lenient
  scoping := {}
  fingerprint := none
  maxRequestBytes := 1024
  storeHeaders := []
  policy := ⟨30, 86400, 1024, .FailOpen, none, false⟩
  problemBaseUri := js "urn:"
  docsUrl := js "urn:"
  problemTitles := fun _ => none

/-- The store is down, and the handler runs without a claim. -/
def openRun : List (BridgeEvent Unit Unit) :=
  [⟨.ReadBody 1024, .ok (some [0x31])⟩, ⟨.Fingerprint [0x31], .ok (js "f")⟩, ⟨.Engine .Clock, 5⟩,
    ⟨.Engine (.Begin ⟨js "POST /transfers", js "k1", js "f"⟩ ⟨30, 86400, 5⟩), .error ()⟩,
    ⟨.Run (some ⟨js "k1", 0⟩), .ok ()⟩, ⟨.Capture () degradedHeaders, .ok ()⟩,
    ⟨.Stored, .ok { kind := .Http, status := some 201 }⟩]

end

end

end Anyonce
