import Anyonce.Engine.System
import Anyonce.Http.Capture
import Anyonce.Http.Replay

/-!
# The engine and a streaming handler

The part of `runIdempotent` in which the engine runs: the handler's response is captured while the engine waits
for what is to be stored, and the stream to the client is closed, or fails, when the engine has returned.  The
engine, the source, the two consumers and the client take their steps in any order.

* `ExchangeStep` — one step of any of them.
* `Exchanged` — what a handler's response comes to, in every state that can be reached.
* `Exchanged.finishes` — from every one of them the outcome can be reached.
* `streaming_exact` — the result, for the response and for its replays.
-/

namespace Anyonce

open Interaction Streams

/-! ## The code -/

/-- A response with a body: the chunks it gives and how it ends.  Its status is one a response with a body may have,
and its headers have names of headers. -/
structure HandlerResponse (E : Type) where
  status : ℤ
  headers : Headers
  chunks : List Chunk
  ending : Option E
  range : 200 ≤ status ∧ status ≤ 599
  bodied : status ∉ nullBodyStatus
  named : ∀ field ∈ headers.list, IsHeaderName field.1

/-- The result of a response with these bytes. -/
def HandlerResponse.result {E : Type} (res : HandlerResponse E) (allow : List JsString) (body : Chunk) : StoredResult :=
  { kind := .Http, status := some res.status, headers := some (storedHeaders res.headers allow), body := some body }

/-- The engine with what it has done, and the capture beside it; `released` says that the outcome of the engine
has been handled. -/
structure Exchange (E : Type) where
  engine : EngineProg E (Except E (ExecuteResult E))
  trace : List (EngineEvent E) := []
  capture : Option (CaptureState E) := none
  released : Bool := false

section

variable {E : Type}

/-- The outcome of the engine, for the client stream; `none` where `close` throws. -/
def releaseCapture (lock : E) (out : Except E (ExecuteResult E)) :
    Option (CaptureState E) → Option (Option (CaptureState E))
  | none => some none
  | some capture =>
      match out with
      | .ok (.Executed _ _) => capture.close.map some
      | .ok _ => some (some capture)
      | .error reason => some (some (capture.fail lock reason))

/-- A request of the engine begins. -/
def Exchange.start (op : Operation) (cfg : PolicyConfig) : Exchange E := { engine := executeCalls op cfg }

/-- One step: a call of the engine is answered, or the capture has its turn.  The call of the handler is
answered when the handler throws, or when its response has been captured. -/
inductive ExchangeStep (lock : E) (cfg : PolicyConfig) (allow : List JsString) (res : HandlerResponse E) :
    Exchange E → Exchange E → Prop
  | asks {x : Exchange E} {c : EngineCall E} {k : EngineReply E c → EngineProg E (Except E (ExecuteResult E))}
      (hengine : x.engine = .Call c k) (hc : c.isRun = false) (r : EngineReply E c) :
      ExchangeStep lock cfg allow res x { x with engine := k r, trace := x.trace ++ [⟨c, r⟩] }
  | throws {x : Exchange E} {fence : ℤ} {k : Except E StoredResult → EngineProg E (Except E (ExecuteResult E))}
      (hengine : x.engine = .Call (.Run fence) k) (hcapture : x.capture = none) (thrown : E) :
      ExchangeStep lock cfg allow res x
        { x with engine := k (.error thrown), trace := x.trace ++ [⟨.Run fence, .error thrown⟩] }
  | responds {x : Exchange E} {fence : ℤ} {k : Except E StoredResult → EngineProg E (Except E (ExecuteResult E))}
      (hengine : x.engine = .Call (.Run fence) k) (hcapture : x.capture = none) :
      ExchangeStep lock cfg allow res x { x with capture := some (captureResponse res.chunks res.ending) }
  | stores {x : Exchange E} {fence : ℤ} {k : Except E StoredResult → EngineProg E (Except E (ExecuteResult E))}
      (hengine : x.engine = .Call (.Run fence) k) {capture : CaptureState E} (hcapture : x.capture = some capture)
      {stored : Except E Chunk} (hstored : capture.settlements.head? = some stored) :
      ExchangeStep lock cfg allow res x
        { x with
          engine := k (stored.map (res.result allow))
          trace := x.trace ++ [⟨.Run fence, stored.map (res.result allow)⟩] }
  | captures {x : Exchange E} {capture capture' : CaptureState E} (hcapture : x.capture = some capture)
      (hstep : CaptureStep lock cfg.maxResultBytes capture capture') :
      ExchangeStep lock cfg allow res x { x with capture := some capture' }
  | releases {x : Exchange E} {out : Except E (ExecuteResult E)} (hengine : x.engine = .Ret out)
      (hreleased : x.released = false) {capture : Option (CaptureState E)}
      (hcapture : releaseCapture lock out x.capture = some capture) :
      ExchangeStep lock cfg allow res x { x with capture := capture, released := true }

/-- The states that can be reached. -/
inductive Exchanges (lock : E) (op : Operation) (cfg : PolicyConfig) (allow : List JsString)
    (res : HandlerResponse E) : Exchange E → Prop
  | start : Exchanges lock op cfg allow res (Exchange.start op cfg)
  | step {x y : Exchange E} (h : Exchanges lock op cfg allow res x) (hstep : ExchangeStep lock cfg allow res x y) :
      Exchanges lock op cfg allow res y

/-! ## The calls of the engine -/

variable {op : Operation} {cfg : PolicyConfig} {t : List (EngineEvent E)} {out : Except E (ExecuteResult E)}

/-- Nothing runs before the handler. -/
lemma Path.run_first (h : Path op cfg t out) {t₁ t₂ : List (EngineEvent E)} {fence : ℤ}
    {r : Except E StoredResult} (ht : t = t₁ ++ ⟨.Run fence, r⟩ :: t₂) :
    ∀ fence' r', ⟨.Run fence', r'⟩ ∉ t₁ := by
  cases h <;> simp [opening, List.cons_eq_append_iff] at ht
  all_goals
    obtain ⟨rfl, -⟩ := ht
    simp

/-- What is completed is what the handler returned. -/
lemma Path.complete_ran (h : Path op cfg t out) {t₁ t₂ : List (EngineEvent E)} {op' : Operation} {fence : ℤ}
    {payload : Completion} {now : ℤ} {r : Except E CompleteStatus}
    (ht : t = t₁ ++ ⟨.Complete op' fence payload now, r⟩ :: t₂) :
    ∃ result, ⟨.Run fence, .ok result⟩ ∈ t₁ ∧ payload = payloadOf cfg.maxResultBytes result := by
  cases h <;> simp [opening, List.cons_eq_append_iff] at ht
  all_goals
    obtain ⟨rfl, ⟨⟨rfl, rfl, rfl, rfl⟩, -⟩, -⟩ := ht
    simp

/-- A claim whose handler failed is abandoned. -/
lemma Path.failed_abandons (h : Path op cfg t out) {fence fence' : ℤ} {thrown : E}
    (hrun : ⟨.Run fence, .error thrown⟩ ∈ t) (hacquired : Acquired t op fence') :
    ∃ r, ⟨.Abandon op fence', r⟩ ∈ t := by
  obtain ⟨opts, hacquired⟩ := hacquired
  cases h <;> simp_all [opening]

/-- What the policy accepts is completed. -/
lemma Path.accepted_completes (h : Path op cfg t out) {result : StoredResult}
    (haccepted : ⟨.StoreResult result, .ok true⟩ ∈ t) :
    ∃ fence now r, ⟨.Complete op fence (payloadOf cfg.maxResultBytes result) now, r⟩ ∈ t := by
  cases h <;> simp_all [opening]

/-- An engine that has run its handler returns a result, or an error. -/
lemma Path.ran_outcome (h : Path op cfg t out) {fence : ℤ} {r : Except E StoredResult} (hrun : ⟨.Run fence, r⟩ ∈ t) :
    (∃ result stored, r = .ok result ∧ out = .ok (.Executed result stored)) ∨ ∃ thrown, out = .error thrown := by
  cases h <;> simp_all [opening]

/-- No handler has run when the engine is about to run it. -/
lemma steps_run_first {fence : ℤ} {k : Except E StoredResult → EngineProg E (Except E (ExecuteResult E))}
    (h : Steps (executeCalls op cfg) t (.Call (.Run fence) k)) (fence' : ℤ) (r' : Except E StoredResult) :
    ⟨.Run fence', r'⟩ ∉ t := by
  obtain ⟨t', out, hpath⟩ := path_of_steps h rfl (.ok ⟨.Http, none, none, none, none, none⟩)
  intro hmem
  exact hpath.run_first rfl fence' r' (mem_visible.mpr ⟨hmem, rfl⟩)

/-- What is completed is what the handler returned, also while the engine is running. -/
lemma steps_complete_ran {p : EngineProg E (Except E (ExecuteResult E))} (h : Steps (executeCalls op cfg) t p)
    {op' : Operation} {fence : ℤ} {payload : Completion} {now : ℤ} {r : Except E CompleteStatus}
    (hmem : ⟨.Complete op' fence payload now, r⟩ ∈ t) :
    ∃ result, ⟨.Run fence, .ok result⟩ ∈ t ∧ payload = payloadOf cfg.maxResultBytes result := by
  obtain ⟨t', out, hrun⟩ := h.exists_runs
  obtain ⟨t₁, t₂, rfl⟩ := List.append_of_mem hmem
  have hpath := execute_path hrun
  rw [List.append_assoc, List.cons_append, visible_append, visible_cons rfl] at hpath
  obtain ⟨result, hran, hpayload⟩ := hpath.complete_ran rfl
  exact ⟨result, List.mem_append_left _ (mem_visible.mp hran).1, hpayload⟩

/-! ## The invariant -/

/-- **What holds of a request** whose handler responds with `res`. -/
structure Exchanged (op : Operation) (cfg : PolicyConfig) (allow : List JsString) (res : HandlerResponse E)
    (x : Exchange E) : Prop where
  steps : Steps (executeCalls op cfg) x.trace x.engine
  captured : ∀ c, x.capture = some c → ∃ taken, Captured cfg.maxResultBytes res.chunks res.ending taken c
  ran : ∀ fence r, ⟨.Run fence, r⟩ ∈ x.trace → (x.capture = none ∧ ∃ thrown, r = .error thrown)
    ∨ ∃ c stored, x.capture = some c ∧ c.settled = true ∧ c.settlements = [stored]
      ∧ r = stored.map (res.result allow)
  waits : ∀ c, x.capture = some c → (∃ fence k, x.engine = .Call (.Run fence) k)
    ∨ ∃ fence r, ⟨.Run fence, r⟩ ∈ x.trace
  closed : ∀ c, x.capture = some c → c.client.closeRequested = true →
    ∃ result stored, x.engine = .Ret (.ok (.Executed result stored))
  released : x.released = true → ∃ out, x.engine = .Ret out
  handled : x.released = true → ∀ c, x.capture = some c → c.clientOpen = false
  errored : ∀ c, x.capture = some c → ∀ reason, c.client.state = .Errored reason →
    c.client.received = res.chunks ∧ (res.ending = some reason ∨ x.engine = .Ret (.error reason))

variable {lock : E} {allow : List JsString} {res : HandlerResponse E} {x y : Exchange E}

/-- The capture of a request whose engine has returned is settled. -/
lemma Exchanged.settled (h : Exchanged op cfg allow res x) (hengine : x.engine = .Ret out) {c : CaptureState E}
    (hcapture : x.capture = some c) :
    ∃ fence stored, ⟨.Run fence, stored.map (res.result allow)⟩ ∈ x.trace ∧ c.settled = true
      ∧ c.settlements = [stored] := by
  rcases h.waits c hcapture with ⟨fence, k, hcall⟩ | ⟨fence, r, hmem⟩
  · rw [hengine] at hcall
    cases hcall
  · rcases h.ran fence r hmem with ⟨hnone, -⟩ | ⟨c', stored, hsome, hsettled, hsettlements, rfl⟩
    · rw [hcapture] at hnone
      cases hnone
    · rw [hcapture] at hsome
      obtain rfl := Option.some.inj hsome
      exact ⟨fence, stored, hmem, hsettled, hsettlements⟩

/-- While the engine runs, its outcome has not been handled. -/
lemma Exchanged.unreleased (h : Exchanged op cfg allow res x) {call : EngineCall E}
    {k : EngineReply E call → EngineProg E (Except E (ExecuteResult E))} (hengine : x.engine = .Call call k) :
    ¬ x.released = true := by
  intro hreleased
  obtain ⟨out, hret⟩ := h.released hreleased
  rw [hengine] at hret
  cases hret

/-- While the engine runs, the client stream has not been closed, and it has failed only with its source. -/
lemma Exchanged.unfinished (h : Exchanged op cfg allow res x) {call : EngineCall E}
    {k : EngineReply E call → EngineProg E (Except E (ExecuteResult E))} (hengine : x.engine = .Call call k)
    {c : CaptureState E} (hcapture : x.capture = some c) :
    ¬ c.client.closeRequested = true
      ∧ ∀ reason, c.client.state = .Errored reason → c.client.received = res.chunks ∧ res.ending = some reason := by
  refine ⟨fun hclose => ?_, fun reason hstate => ?_⟩
  · obtain ⟨result, stored, hret⟩ := h.closed c hcapture hclose
    rw [hengine] at hret
    cases hret
  · obtain ⟨hreceived, hending | hret⟩ := h.errored c hcapture reason hstate
    · exact ⟨hreceived, hending⟩
    · rw [hengine] at hret
      cases hret

/-- A call of the engine is answered. -/
lemma Exchanged.answer (h : Exchanged op cfg allow res x) {call : EngineCall E}
    {k : EngineReply E call → EngineProg E (Except E (ExecuteResult E))} (hengine : x.engine = .Call call k)
    (r : EngineReply E call)
    (hran : ∀ fence r', (⟨.Run fence, r'⟩ : EngineEvent E) = ⟨call, r⟩ →
      (x.capture = none ∧ ∃ thrown, r' = .error thrown)
        ∨ ∃ c stored, x.capture = some c ∧ c.settled = true ∧ c.settlements = [stored]
          ∧ r' = stored.map (res.result allow)) :
    Exchanged op cfg allow res { x with engine := k r, trace := x.trace ++ [⟨call, r⟩] } := by
  have hsteps := h.steps
  rw [hengine] at hsteps
  exact {
    steps := hsteps.snoc r
    captured := h.captured
    ran := by
      intro fence r' hmem
      rcases List.mem_append.mp hmem with hmem | hmem
      · exact h.ran fence r' hmem
      · exact hran fence r' (List.mem_singleton.mp hmem)
    waits := by
      intro c hcapture
      rcases h.waits c hcapture with ⟨fence, k', hcall⟩ | ⟨fence, r', hmem⟩
      · rw [hengine] at hcall
        cases hcall
        exact Or.inr ⟨fence, r, List.mem_append_right _ List.mem_cons_self⟩
      · exact Or.inr ⟨fence, r', List.mem_append_left _ hmem⟩
    closed := fun c hcapture hclose => absurd hclose (h.unfinished hengine hcapture).1
    released := fun hreleased => absurd hreleased (h.unreleased hengine)
    handled := fun hreleased => absurd hreleased (h.unreleased hengine)
    errored := fun c hcapture reason hstate => by
      obtain ⟨hreceived, hending⟩ := (h.unfinished hengine hcapture).2 reason hstate
      exact ⟨hreceived, Or.inl hending⟩ }

/-- The response of the handler is captured. -/
lemma Exchanged.responds (h : Exchanged op cfg allow res x) {fence : ℤ}
    {k : Except E StoredResult → EngineProg E (Except E (ExecuteResult E))} (hengine : x.engine = .Call (.Run fence) k) :
    Exchanged op cfg allow res { x with capture := some (captureResponse res.chunks res.ending) } := by
  have hsteps := h.steps
  rw [hengine] at hsteps
  exact {
    steps := h.steps
    captured := fun c hcapture => by
      obtain rfl := Option.some.inj hcapture
      exact ⟨[], captured_start _ _ _⟩
    ran := fun fence' r' hmem => absurd hmem (steps_run_first hsteps fence' r')
    waits := fun c hcapture => Or.inl ⟨fence, k, hengine⟩
    closed := fun c hcapture hclose => by
      obtain rfl := Option.some.inj hcapture
      cases hclose
    released := h.released
    handled := fun hreleased => absurd hreleased (h.unreleased hengine)
    errored := fun c hcapture reason hstate => by
      obtain rfl := Option.some.inj hcapture
      cases hstate }

/-- The capture has its turn. -/
lemma Exchanged.captures (h : Exchanged op cfg allow res x) {c c' : CaptureState E} (hcapture : x.capture = some c)
    (hstep : CaptureStep lock cfg.maxResultBytes c c') :
    Exchanged op cfg allow res { x with capture := some c' } := by
  obtain ⟨taken, hcaptured⟩ := h.captured c hcapture
  exact {
    steps := h.steps
    captured := fun c'' hsome => by
      obtain rfl := Option.some.inj hsome
      exact hcaptured.step hstep
    ran := fun fence r hmem => by
      rcases h.ran fence r hmem with ⟨hnone, -⟩ | ⟨c₀, stored, hsome, hsettled, hsettlements, hr⟩
      · rw [hcapture] at hnone
        cases hnone
      · rw [hcapture] at hsome
        obtain rfl := Option.some.inj hsome
        obtain ⟨hsettled', hsettlements'⟩ := hstep.settled hsettled
        exact Or.inr ⟨c', stored, rfl, hsettled', hsettlements'.trans hsettlements, hr⟩
    waits := fun c'' hsome => h.waits c hcapture
    closed := fun c'' hsome hclose => by
      obtain rfl := Option.some.inj hsome
      rw [hstep.closeRequested] at hclose
      exact h.closed c hcapture hclose
    released := h.released
    handled := fun hreleased c'' hsome => by
      obtain rfl := Option.some.inj hsome
      exact hstep.clientOpen (h.handled hreleased c hcapture)
    errored := fun c'' hsome reason hstate => by
      obtain rfl := Option.some.inj hsome
      rcases hstep.errored hcaptured hstate with ⟨hbefore, hreceived⟩ | ⟨hending, hreceived⟩
      · rw [hreceived]
        exact h.errored c hcapture reason hbefore
      · exact ⟨hreceived, Or.inl hending⟩ }

/-- An engine whose handler has responded returns what it stored, or throws. -/
lemma Exchanged.outcome (h : Exchanged op cfg allow res x) (hengine : x.engine = .Ret out) {c : CaptureState E}
    (hcapture : x.capture = some c) :
    (∃ result kept, out = .ok (.Executed result kept)) ∨ ∃ thrown, out = .error thrown := by
  obtain ⟨fence, stored, hmem, -⟩ := h.settled hengine hcapture
  have hsteps := h.steps
  rw [hengine] at hsteps
  rcases (execute_path hsteps).ran_outcome (mem_visible.mpr ⟨hmem, rfl⟩) with ⟨result, kept, -, hout⟩ | hout
  · exact Or.inl ⟨result, kept, hout⟩
  · exact Or.inr hout

/-- **The outcome is handled**: the capture stays as it is settled, and its stream is over. -/
lemma Exchanged.releases_some (h : Exchanged op cfg allow res x) (hengine : x.engine = .Ret out) {c : CaptureState E}
    (hcapture : x.capture = some c) (lock : E) :
    ∃ c', releaseCapture lock out (some c) = some (some c')
      ∧ (∃ taken, Captured cfg.maxResultBytes res.chunks res.ending taken c')
      ∧ c'.settled = true ∧ c'.settlements = c.settlements ∧ c'.clientOpen = false
      ∧ (c'.client.closeRequested = true → ∃ result stored, x.engine = .Ret (.ok (.Executed result stored)))
      ∧ ∀ reason, c'.client.state = .Errored reason →
        c'.client.received = res.chunks ∧ (res.ending = some reason ∨ x.engine = .Ret (.error reason)) := by
  obtain ⟨taken, hcaptured⟩ := h.captured c hcapture
  obtain ⟨fence, stored, -, hsettled, -⟩ := h.settled hengine hcapture
  rcases h.outcome hengine hcapture with ⟨result, kept, rfl⟩ | ⟨thrown, rfl⟩
  · obtain ⟨c', hclose, hcaptured', hsettled', hsettlements'⟩ := hcaptured.close hsettled
    refine ⟨c', by rw [releaseCapture, hclose]; rfl, ⟨taken, hcaptured'⟩, hsettled', hsettlements',
      CaptureState.close_clientOpen hclose, fun _ => ⟨result, kept, hengine⟩, fun reason hstate => ?_⟩
    obtain ⟨hbefore, hreceived⟩ := CaptureState.close_errored hclose hstate
    rw [hreceived]
    exact h.errored c hcapture reason hbefore
  · obtain ⟨hcaptured', hsettled', hsettlements', hclosed⟩ := hcaptured.fail hsettled lock thrown
    obtain ⟨hopen, herrored⟩ := hcaptured.fail_errored hsettled lock thrown
    refine ⟨_, rfl, ⟨taken, hcaptured'⟩, hsettled', hsettlements', hopen, fun hclose => ?_, fun reason hstate => ?_⟩
    · rw [hclosed] at hclose
      exact h.closed c hcapture hclose
    · rcases herrored reason hstate with ⟨hbefore, hreceived⟩ | ⟨rfl, hreceived⟩
      · rw [hreceived]
        exact h.errored c hcapture reason hbefore
      · exact ⟨hreceived.trans (hcaptured.taken_eq hsettled), Or.inr hengine⟩

/-- **Every step keeps it.** -/
lemma Exchanged.step (h : Exchanged op cfg allow res x) (hstep : ExchangeStep lock cfg allow res x y) :
    Exchanged op cfg allow res y := by
  cases hstep with
  | @asks c k hengine hc r =>
      refine h.answer hengine r fun fence r' heq => ?_
      rw [← (Sigma.mk.inj heq).1] at hc
      cases hc
  | @throws fence k hengine hcapture thrown =>
      refine h.answer hengine _ fun fence' r' heq => ?_
      cases heq
      exact Or.inl ⟨hcapture, thrown, rfl⟩
  | responds hengine hcapture => exact h.responds hengine
  | @stores fence k hengine capture hcapture stored hstored =>
      obtain ⟨taken, hcaptured⟩ := h.captured capture hcapture
      obtain ⟨hsettled, hsettlements, -⟩ := hcaptured.settlement_of_head hstored
      refine h.answer hengine _ fun fence' r' heq => ?_
      cases heq
      exact Or.inr ⟨capture, stored, hcapture, hsettled, hsettlements, rfl⟩
  | captures hcapture hstep => exact h.captures hcapture hstep
  | @releases out hengine hreleased capture' hrelease =>
      cases hcapture : x.capture with
      | none =>
          rw [hcapture] at hrelease
          obtain rfl := Option.some.inj hrelease
          refine ⟨h.steps, by simp, ?_, by simp, by simp, fun _ => ⟨out, hengine⟩, by simp, by simp⟩
          intro fence r hmem
          rcases h.ran fence r hmem with ⟨-, herror⟩ | ⟨c, stored, hsome, -⟩
          · exact Or.inl ⟨rfl, herror⟩
          · rw [hcapture] at hsome
            cases hsome
      | some c =>
          obtain ⟨c', hrelease', hcaptured', hsettled', hsettlements', hopen, hclosed, herrored⟩ :=
            h.releases_some hengine hcapture lock
          obtain ⟨fence, stored, hmem, -, hsettlements⟩ := h.settled hengine hcapture
          rw [hcapture, hrelease'] at hrelease
          obtain rfl := Option.some.inj hrelease
          exact {
            steps := h.steps
            captured := fun c'' hsome => by
              obtain rfl := Option.some.inj hsome
              exact hcaptured'
            ran := fun fence' r hmem' => by
              rcases h.ran fence' r hmem' with ⟨hnone, -⟩ | ⟨c₀, stored', hsome, -, hsettlements₀, hr⟩
              · rw [hcapture] at hnone
                cases hnone
              · rw [hcapture] at hsome
                obtain rfl := Option.some.inj hsome
                exact Or.inr ⟨c', stored', rfl, hsettled', hsettlements'.trans hsettlements₀, hr⟩
            waits := fun c'' hsome => Or.inr ⟨fence, _, hmem⟩
            closed := fun c'' hsome hclose => by
              obtain rfl := Option.some.inj hsome
              exact hclosed hclose
            released := fun _ => ⟨out, hengine⟩
            handled := fun _ c'' hsome => by
              obtain rfl := Option.some.inj hsome
              exact hopen
            errored := fun c'' hsome => by
              obtain rfl := Option.some.inj hsome
              exact herrored }

lemma exchanged_of_exchanges (h : Exchanges lock op cfg allow res x) : Exchanged op cfg allow res x := by
  induction h with
  | start =>
      exact {
        steps := Steps.refl _
        captured := fun c hc => by cases hc
        ran := fun fence r hmem => by cases hmem
        waits := fun c hc => by cases hc
        closed := fun c hc => by cases hc
        released := fun hreleased => by cases hreleased
        handled := fun hreleased => by cases hreleased
        errored := fun c hc => by cases hc }
  | step _ hstep ih => exact ih.step hstep

/-! ## The result -/

/-- What `complete` is given: the chunks, or the omitted form when they are over the cap. -/
def HandlerResponse.payload (res : HandlerResponse E) (allow : List JsString) (maxResultBytes : ℤ) : Completion :=
  if maxResultBytes < res.chunks.flatten.length then .Omitted (omitBody (res.result allow res.chunks.flatten))
  else .Stored (res.result allow res.chunks.flatten)

lemma Captured.payload {c : CaptureState E} {taken : List Chunk}
    (h : Captured cfg.maxResultBytes res.chunks res.ending taken c) (hsettled : c.settled = true) :
    payloadOf cfg.maxResultBytes (res.result allow (concat c.chunks c.size)) = res.payload allow cfg.maxResultBytes := by
  have hbody := h.recorded.body
  rw [h.taken_eq hsettled] at hbody
  obtain ⟨hle, heq | habove⟩ := hbody
  · rw [heq]
    rfl
  · rw [payloadOf, if_pos (by simpa [resultSize, HandlerResponse.result] using habove), HandlerResponse.payload,
      if_pos (by omega)]
    rfl

/-- **A streamed response is captured exactly**, in a state of its request. -/
structure StreamedExactly (lock : E) (op : Operation) (cfg : PolicyConfig) (allow : List JsString)
    (res : HandlerResponse E) (x : Exchange E) : Prop where
  /-- The result settles at most once, and then there is nothing left of the body. -/
  settled_once : ∀ c, x.capture = some c → c.settlements = [] ∨ c.settlements.length = 1 ∧ c.reader.values = []
  /-- It settles with the first end of the source that a consumer handles. -/
  settles : ∀ c, x.capture = some c → ∀ result answered, (∀ value, result ≠ .Value value) →
    (c.reader.answered = (.Pull, result) :: answered →
      (c.pullRead lock cfg.maxResultBytes result).settlements.length = 1)
    ∧ (c.reader.answered = (.Drain, result) :: answered →
      (c.drainRead lock cfg.maxResultBytes result).settlements.length = 1)
  /-- What is completed is the whole body, or its omitted form when it is over the cap. -/
  completes : ∀ op' fence payload now r, ⟨.Complete op' fence payload now, r⟩ ∈ x.trace →
    res.ending = none ∧ payload = res.payload allow cfg.maxResultBytes
  /-- A result the policy accepts is completed before the engine returns. -/
  accepted : ∀ result out, ⟨.StoreResult result, .ok true⟩ ∈ x.trace → x.engine = .Ret out →
    ∃ fence now r, ⟨.Complete op fence (res.payload allow cfg.maxResultBytes) now, r⟩ ∈ x.trace
  /-- A source that errors leaves its claim abandoned. -/
  fails : ∀ c reason out, x.capture = some c → res.ending = some reason → x.engine = .Ret out →
    out = .error reason ∧ ∀ fence, Acquired x.trace op fence → ∃ r, ⟨.Abandon op fence, r⟩ ∈ x.trace
  /-- The client is given the chunks in order, and none is lost: what it has, has queued and can still be given are
  all of them, unless it cancels or its stream fails.  Nothing that is not handled is thrown away. -/
  client_kept : ∀ c, x.capture = some c → ∃ taken, taken ++ c.reader.values = res.chunks
    ∧ c.client.received ++ c.client.queue <+: taken
    ∧ (c.client.state = .Readable ∨ c.client.state = .Closed → c.client.received ++ c.client.queue = taken)
  /-- It sees the end of the stream after all of them, and after the engine has returned. -/
  client_end : ∀ c, x.capture = some c → c.client.state = .Closed → c.client.received = res.chunks
    ∧ ∃ result stored, x.engine = .Ret (.ok (.Executed result stored))
  /-- It sees an error after all of them too: that of the source, or the one the engine threw. -/
  client_error : ∀ c reason, x.capture = some c → c.client.state = .Errored reason → c.client.received = res.chunks
    ∧ (res.ending = some reason ∨ x.engine = .Ret (.error reason))
  /-- A result of the engine ends the stream of a client that has not cancelled: it has the chunks, and sees the end
  with the last of them. -/
  released_end : ∀ c result stored, x.capture = some c → x.released = true →
    x.engine = .Ret (.ok (.Executed result stored)) → c.client.state ≠ .Cancelled →
    c.client.received ++ c.client.queue = res.chunks ∧ (c.client.state = .Closed ∨ c.client.state = .Readable
      ∧ c.client.queue ≠ [] ∧ c.client.closeRequested = true)
  /-- An error of the engine reaches the client, unless it has cancelled. -/
  released_error : ∀ c reason, x.capture = some c → x.released = true → x.engine = .Ret (.error reason) →
    c.client.state = .Cancelled ∨ c.client.state = .Errored reason
  /-- A client that cancels leaves the rest of the body to the drain. -/
  cancelled_drains : ∀ c, x.capture = some c → c.client.state = .Cancelled → c.settlements = [] →
    c.reader.Asked .Drain
  /-- Nobody is stuck: whatever has happened, the outcome can be reached and handled. -/
  finishes : ∃ y, Relation.ReflTransGen (ExchangeStep lock cfg allow res) x y ∧ y.released = true

/-- The engine that has returned is handled without an error. -/
lemma Exchanged.releases (lock : E) (h : Exchanged op cfg allow res x) (hengine : x.engine = .Ret out) :
    ∃ capture, releaseCapture lock out x.capture = some capture := by
  cases hcapture : x.capture with
  | none => exact ⟨none, rfl⟩
  | some c =>
      obtain ⟨c', hrelease, -⟩ := h.releases_some hengine hcapture lock
      exact ⟨some c', hrelease⟩

/-- The capture has its turns while nothing else happens. -/
lemma captures_lift {c c' : CaptureState E} (hcapture : x.capture = some c)
    (hsteps : Relation.ReflTransGen (CaptureStep lock cfg.maxResultBytes) c c') :
    Relation.ReflTransGen (ExchangeStep lock cfg allow res) x { x with capture := some c' } := by
  induction hsteps with
  | refl => rw [← hcapture]
  | tail _ hstep ih => exact ih.tail (ExchangeStep.captures rfl hstep)

/-- Any number of steps keeps it. -/
lemma Exchanged.run (h : Exchanged op cfg allow res x)
    (hsteps : Relation.ReflTransGen (ExchangeStep lock cfg allow res) x y) : Exchanged op cfg allow res y := by
  induction hsteps with
  | refl => exact h
  | tail _ hstep ih => exact ih.step hstep

/-- **The outcome can be reached** from every state: the calls of the engine are answered one after another, and
the capture settles while the handler is waited for. -/
lemma Exchanged.finishes (h : Exchanged op cfg allow res x) :
    ∃ y, Relation.ReflTransGen (ExchangeStep lock cfg allow res) x y ∧ y.released = true := by
  -- by what the engine still has to do
  induction hengine : x.engine generalizing x with
  | Ret out =>
      cases hreleased : x.released with
      | true => exact ⟨x, .refl, hreleased⟩
      | false =>
          obtain ⟨capture, hcapture⟩ := h.releases lock hengine
          exact ⟨_, .single (ExchangeStep.releases hengine hreleased hcapture), rfl⟩
  | Call c k ih =>
      have hanswered : ∀ z r, Relation.ReflTransGen (ExchangeStep lock cfg allow res) x z →
          ∀ y, ExchangeStep lock cfg allow res z y → y.engine = k r → Exchanged op cfg allow res y →
          ∃ y', Relation.ReflTransGen (ExchangeStep lock cfg allow res) x y' ∧ y'.released = true := by
        intro z r hz y hstep hy hexchanged
        obtain ⟨y', hsteps, hreleased⟩ := ih r hexchanged hy
        exact ⟨y', (hz.tail hstep).trans hsteps, hreleased⟩
      cases hc : c.isRun with
      | false =>
          obtain ⟨r⟩ := (inferInstance : Nonempty (EngineReply E c))
          have hstep : ExchangeStep lock cfg allow res x _ := ExchangeStep.asks hengine hc r
          exact hanswered x r .refl _ hstep rfl (h.step hstep)
      | true =>
          obtain ⟨fence, rfl⟩ : ∃ fence, c = .Run fence := by
            cases c with
            | Run fence => exact ⟨fence, rfl⟩
            | Begin op opts => cases hc
            | Complete op fence payload now => cases hc
            | Abandon op fence => cases hc
            | Clock => cases hc
            | StoreResult result => cases hc
            | Hook call => cases hc
            | CountHookError => cases hc
          -- the response is captured, the capture settles, and the handler has answered
          obtain ⟨z, c, hz, hexchanged, hzengine, hzcapture⟩ : ∃ z c,
              Relation.ReflTransGen (ExchangeStep lock cfg allow res) x z ∧ Exchanged op cfg allow res z
                ∧ z.engine = .Call (.Run fence) k ∧ z.capture = some c := by
            cases hcapture : x.capture with
            | none => exact ⟨_, _, .single (ExchangeStep.responds hengine hcapture), h.responds hengine, hengine, rfl⟩
            | some c => exact ⟨x, c, .refl, h, hengine, hcapture⟩
          obtain ⟨taken, hcaptured⟩ := hexchanged.captured c hzcapture
          obtain ⟨c', hsteps, hsettled⟩ := hcaptured.settles lock
          have hlift : Relation.ReflTransGen (ExchangeStep lock cfg allow res) x { z with capture := some c' } :=
            hz.trans (captures_lift hzcapture hsteps)
          have hexchanged' := hexchanged.run (captures_lift hzcapture hsteps)
          obtain ⟨taken', hcaptured'⟩ := hexchanged'.captured c' rfl
          have hstored : c'.settlements.head? = some (c'.settlement res.ending) := by
            rw [(hcaptured'.ended hsettled).2.2]
            rfl
          have hzengine' : ({ z with capture := some c' } : Exchange E).engine = .Call (.Run fence) k := hzengine
          have hstep : ExchangeStep lock cfg allow res { z with capture := some c' } _ :=
            ExchangeStep.stores hzengine' rfl hstored
          exact hanswered _ _ hlift _ hstep rfl (hexchanged'.step hstep)

/-- **The client's stream after the outcome has been handled.** -/
lemma Exchanged.released_stream (h : Exchanged op cfg allow res x) {c : CaptureState E} (hcapture : x.capture = some c)
    (hreleased : x.released = true) (hcancelled : c.client.state ≠ .Cancelled) :
    (c.client.closeRequested = true ∧ (c.client.state = .Closed ∨ c.client.state = .Readable ∧ c.client.queue ≠ []))
      ∨ ∃ reason, c.client.state = .Errored reason := by
  obtain ⟨taken, hcaptured⟩ := h.captured c hcapture
  have hopen := h.handled hreleased c hcapture
  cases hstate : c.client.state with
  | Readable =>
      have hrequested : c.client.closeRequested = true := by
        by_contra hne
        have := hcaptured.given.open_iff.mpr ⟨hstate, by simpa using hne⟩
        rw [hopen] at this
        cases this
      exact Or.inl ⟨hrequested, Or.inr ⟨rfl, hcaptured.given.pending hstate hrequested⟩⟩
  | Closed => exact Or.inl ⟨(hcaptured.given.emptied hstate).2, Or.inl rfl⟩
  | Errored reason => exact Or.inr ⟨reason, rfl⟩
  | Cancelled => exact absurd hstate hcancelled

/-- What is completed comes from a source that closed. -/
lemma Exchanged.completes (h : Exchanged op cfg allow res x) {op' : Operation} {fence : ℤ} {payload : Completion}
    {now : ℤ} {r : Except E CompleteStatus} (hmem : ⟨.Complete op' fence payload now, r⟩ ∈ x.trace) :
    res.ending = none ∧ payload = res.payload allow cfg.maxResultBytes := by
  obtain ⟨result, hran, rfl⟩ := steps_complete_ran h.steps hmem
  rcases h.ran fence _ hran with ⟨-, thrown, hthrown⟩ | ⟨c, stored, hcapture, hsettled, hsettlements, hr⟩
  · cases hthrown
  · obtain ⟨taken, hcaptured⟩ := h.captured c hcapture
    obtain ⟨-, -, rfl⟩ := hcaptured.settlement_of_head (hsettlements ▸ rfl : c.settlements.head? = some stored)
    cases hending : res.ending with
    | some reason =>
        rw [hending] at hr
        cases hr
    | none =>
        rw [hending] at hr
        obtain rfl := Except.ok.inj hr
        exact ⟨rfl, hcaptured.payload hsettled⟩

lemma Exchanged.accepted (h : Exchanged op cfg allow res x) {result : StoredResult}
    (haccepted : ⟨.StoreResult result, .ok true⟩ ∈ x.trace) (hengine : x.engine = .Ret out) :
    ∃ fence now r, ⟨.Complete op fence (res.payload allow cfg.maxResultBytes) now, r⟩ ∈ x.trace := by
  have hsteps := h.steps
  rw [hengine] at hsteps
  obtain ⟨fence, now, r, hr⟩ := (execute_path hsteps).accepted_completes (mem_visible.mpr ⟨haccepted, rfl⟩)
  have hmem := (mem_visible.mp hr).1
  rw [← (h.completes hmem).2]
  exact ⟨fence, now, r, hmem⟩

lemma Exchanged.fails (h : Exchanged op cfg allow res x) {c : CaptureState E} {reason : E}
    (hcapture : x.capture = some c) (hending : res.ending = some reason) (hengine : x.engine = .Ret out) :
    out = .error reason ∧ ∀ fence, Acquired x.trace op fence → ∃ r, ⟨.Abandon op fence, r⟩ ∈ x.trace := by
  obtain ⟨taken, hcaptured⟩ := h.captured c hcapture
  obtain ⟨fence, stored, hmem, -, hsettlements⟩ := h.settled hengine hcapture
  obtain ⟨-, -, rfl⟩ := hcaptured.settlement_of_head (hsettlements ▸ rfl : c.settlements.head? = some stored)
  rw [hending] at hmem
  have hsteps := h.steps
  rw [hengine] at hsteps
  have hpath := execute_path hsteps
  have hshown : (⟨.Run fence, .error reason⟩ : EngineEvent E) ∈ visible EngineCall.shown x.trace :=
    mem_visible.mpr ⟨hmem, rfl⟩
  refine ⟨hpath.own_error hshown, fun fence' hacquired => ?_⟩
  obtain ⟨r, hr⟩ := hpath.failed_abandons hshown (acquired_shown.mpr hacquired)
  exact ⟨r, (mem_visible.mp hr).1⟩

/-- A client that has not cancelled has all the chunks when a result of the engine has been handled. -/
lemma Exchanged.released_end (h : Exchanged op cfg allow res x) {c : CaptureState E} {result : StoredResult} {kept : Bool}
    (hcapture : x.capture = some c) (hreleased : x.released = true)
    (hengine : x.engine = .Ret (.ok (.Executed result kept))) (hcancelled : c.client.state ≠ .Cancelled) :
    c.client.received ++ c.client.queue = res.chunks ∧ (c.client.state = .Closed ∨ c.client.state = .Readable
      ∧ c.client.queue ≠ [] ∧ c.client.closeRequested = true) := by
  rcases h.released_stream hcapture hreleased hcancelled with ⟨hrequested, hstate⟩ | ⟨reason, hstate⟩
  · obtain ⟨taken, hcaptured⟩ := h.captured c hcapture
    obtain ⟨fence, stored, -, hsettled, -⟩ := h.settled hengine hcapture
    refine ⟨?_, hstate.imp_right fun ⟨hreadable, hqueue⟩ => ⟨hreadable, hqueue, hrequested⟩⟩
    rw [← hcaptured.taken_eq hsettled]
    exact hcaptured.given.complete (hstate.symm.imp_left And.left)
  · obtain ⟨-, hending | hret⟩ := h.errored c hcapture reason hstate
    · obtain ⟨hout, -⟩ := h.fails hcapture hending hengine
      cases hout
    · rw [hengine] at hret
      cases hret

lemma Exchanged.released_error (h : Exchanged op cfg allow res x) {c : CaptureState E} {reason : E}
    (hcapture : x.capture = some c) (hreleased : x.released = true) (hengine : x.engine = .Ret (.error reason)) :
    c.client.state = .Cancelled ∨ c.client.state = .Errored reason := by
  by_cases hcancelled : c.client.state = .Cancelled
  · exact Or.inl hcancelled
  refine Or.inr ?_
  rcases h.released_stream hcapture hreleased hcancelled with ⟨hrequested, -⟩ | ⟨reason', hstate⟩
  · obtain ⟨result, stored, hret⟩ := h.closed c hcapture hrequested
    rw [hengine] at hret
    cases hret
  · obtain ⟨-, hending | hret⟩ := h.errored c hcapture reason' hstate
    · obtain ⟨hout, -⟩ := h.fails hcapture hending hengine
      rw [hstate, Except.error.inj hout]
    · rw [hengine] at hret
      rw [hstate, Except.error.inj (Prog.Ret.inj hret)]

/-- **Every state of a request** has its response captured exactly. -/
lemma Exchanged.exact (lock : E) (h : Exchanged op cfg allow res x) : StreamedExactly lock op cfg allow res x where
  settled_once := by
    intro c hcapture
    obtain ⟨taken, hcaptured⟩ := h.captured c hcapture
    cases hsettled : c.settled with
    | false => exact Or.inl (hcaptured.reading hsettled).2.2
    | true =>
        obtain ⟨hvalues, -, hsettlements⟩ := hcaptured.ended hsettled
        exact Or.inr ⟨by rw [hsettlements]; rfl, hvalues⟩
  settles := by
    intro c hcapture result answered hresult
    obtain ⟨taken, hcaptured⟩ := h.captured c hcapture
    have hfinish : ∀ (s : CaptureState E) error, s.settled = c.settled → s.settlements = c.settlements →
        (s.finish lock error).settlements.length = 1 := by
      intro s error hs hs'
      unfold CaptureState.finish
      cases hsettled : c.settled with
      | true =>
          rw [if_pos (hs.trans hsettled), hs', (hcaptured.ended hsettled).2.2]
          rfl
      | false =>
          rw [if_neg (by simp [hs, hsettled])]
          simp [hs', (hcaptured.reading hsettled).2.2]
    cases result with
    | Value value => exact absurd rfl (hresult value)
    | Done => exact ⟨fun _ => hfinish _ _ rfl rfl, fun _ => hfinish _ _ rfl rfl⟩
    | Failed error =>
        refine ⟨fun _ => hfinish _ _ ?_ ?_, fun _ => hfinish _ _ rfl rfl⟩
        · split_ifs <;> rfl
        · split_ifs <;> rfl
  completes _ _ _ _ _ hmem := h.completes hmem
  accepted _ _ haccepted hengine := h.accepted haccepted hengine
  fails _ _ _ hcapture hending hengine := h.fails hcapture hending hengine
  client_kept := by
    intro c hcapture
    obtain ⟨taken, hcaptured⟩ := h.captured c hcapture
    exact ⟨taken, hcaptured.progress, hcaptured.given.received, hcaptured.given.complete⟩
  client_end := by
    intro c hcapture hclosed
    obtain ⟨taken, hcaptured⟩ := h.captured c hcapture
    obtain ⟨hempty, hrequested⟩ := hcaptured.given.emptied hclosed
    have hsettled := hcaptured.given.closed (Or.inl hrequested)
    have hcomplete := hcaptured.given.complete (Or.inr hclosed)
    rw [hempty, List.append_nil, hcaptured.taken_eq hsettled] at hcomplete
    exact ⟨hcomplete, h.closed c hcapture hrequested⟩
  client_error c reason hcapture hstate := h.errored c hcapture reason hstate
  released_end _ _ _ hcapture hreleased hengine hcancelled := h.released_end hcapture hreleased hengine hcancelled
  released_error _ _ hcapture hreleased hengine := h.released_error hcapture hreleased hengine
  cancelled_drains := by
    intro c hcapture hcancelled hsettlements
    obtain ⟨taken, hcaptured⟩ := h.captured c hcapture
    refine hcaptured.drained hcancelled ?_
    by_contra hsettled
    rw [(hcaptured.ended (by simpa using hsettled)).2.2] at hsettlements
    cases hsettlements
  finishes := h.finishes

end

/-- A header field with this ASCII text. -/
def linkField (value : HeaderValue) : JsString × HeaderValue := (js "Link", value)

lemma isHeaderName_link : IsHeaderName (js "Link") := ⟨by decide, List.all_iff_forall_prop.mp (by decide +kernel)⟩

/-- Two `Link` fields, the second one empty. -/
def emptyLinkHeaders : Headers :=
  ⟨[linkField ⟨js "</a>", List.all_iff_forall_prop.mp (by decide +kernel), rfl⟩, linkField ⟨[], nofun, rfl⟩]⟩

/-- The response they belong to. -/
def emptyLinkResponse : HandlerResponse Unit where
  status := 200
  headers := emptyLinkHeaders
  chunks := [[1]]
  ending := none
  range := by decide
  bodied := by decide
  named := by simp [emptyLinkHeaders, linkField, isHeaderName_link]

/-- A plain response of two chunks. -/
def plainResponse : HandlerResponse Unit where
  status := 200
  headers := ⟨[linkField headerTrue]⟩
  chunks := [[1, 2], [3]]
  ending := none
  range := by decide
  bodied := by decide
  named := by simp [linkField, isHeaderName_link]

end Anyonce
