import Anyonce.Engine.Calls
import Anyonce.Go.Capture

/-!
# Handlers that try to take the connection

`Hijack` of `go/internal/httpx/writer.go` marks the writer before the writer below has answered, so an
attempt that fails there is marked like one that succeeds.  The door of `door.go` reads the mark once the
handler has returned, and abandons the claim.  An attempt over a writer that is no `http.Hijacker` is
refused before the mark.

**The writer**: `HijackWriter.run_eq` — attempts change the mark and nothing else.  **The door**:
`granted_run` — all that a run does once its claim is granted.  **Together**: `failed_hijack_harmless_iff`
says when the door does as it would have done without the attempts.
-/

namespace Anyonce.Go

open Interaction

/-! ## The writer with its mark -/

/-- `http.ErrNotSupported`. -/
def errNotSupported : GoError := .Opaque (ascii "feature not supported")

/-- What a handler does: a call of its writer, or an attempt to take the connection.  `below` is what the
`Hijack` of the writer below returns, when it has one: an error, or no error and the connection. -/
inductive HandlerStep
  | Call (call : HandlerCall)
  | Hijack (below : Option GoError)

/-- The capture writer with its `hijacked` mark; `hijacker` says whether the writer below is an
`http.Hijacker`. -/
structure HijackWriter where
  capture : CaptureWriter
  hijacker : Bool
  hijacked : Bool := false

/-- The error of an attempt. -/
def hijackError (hijacker : Bool) (below : Option GoError) : Option GoError :=
  if hijacker then below else some errNotSupported

namespace HijackWriter

/-- `NewCaptureWriter`. -/
def new (header : Header) (limit : ℤ) (hijacker : Bool) : HijackWriter :=
  { capture := .new header limit, hijacker }

/-- `Hijack`, with its error.  The mark is set before the writer below is asked. -/
def hijack (w : HijackWriter) (below : Option GoError) : HijackWriter × Option GoError :=
  if w.hijacker then ({ w with hijacked := true }, hijackError w.hijacker below)
  else (w, hijackError w.hijacker below)

/-- One step, with the calls it passes on; `none` is a panic. -/
def step (w : HijackWriter) : HandlerStep → Option (HijackWriter × List HandlerCall)
  | .Call call => (w.capture.step call).map fun (capture, passed) => ({ w with capture }, passed)
  | .Hijack below => some ((w.hijack below).1, [])

/-- The steps of a handler, up to its end or to a panic. -/
def run : List HandlerStep → HijackWriter → Option (HijackWriter × List HandlerCall)
  | [], w => some (w, [])
  | s :: rest, w => do
      let (w, passed) ← w.step s
      let (w, more) ← run rest w
      some (w, passed ++ more)

/-- What the run callback makes of the writer of a handler that has returned. -/
def handled {V : Type} (w : HijackWriter) (allow : List GoString) : Handled V :=
  if w.hijacked then .Hijacked else .Wrote (w.capture.result allow)

end HijackWriter

/-! ## Without the attempts -/

def HandlerStep.call? : HandlerStep → Option HandlerCall
  | .Call call => some call
  | .Hijack _ => none

/-- The calls of a handler. -/
def calls (steps : List HandlerStep) : List HandlerCall := steps.filterMap HandlerStep.call?

/-- The same handler without its attempts. -/
def withoutHijacks (steps : List HandlerStep) : List HandlerStep := (calls steps).map .Call

/-- It makes an attempt. -/
def attempts (steps : List HandlerStep) : Bool := steps.any fun s => s.call?.isNone

/-- No attempt succeeds. -/
def HijacksFail (hijacker : Bool) (steps : List HandlerStep) : Prop :=
  ∀ below, .Hijack below ∈ steps → hijackError hijacker below ≠ none

lemma calls_withoutHijacks (steps : List HandlerStep) : calls (withoutHijacks steps) = calls steps := by
  simp [calls, withoutHijacks, List.filterMap_map, Function.comp_def, HandlerStep.call?]

lemma attempts_withoutHijacks (steps : List HandlerStep) : attempts (withoutHijacks steps) = false := by
  simp [attempts, withoutHijacks, HandlerStep.call?]

namespace HijackWriter

/-- **Attempts change the mark and nothing else**: a handler leaves the writer its calls leave, marked
when it made an attempt over an `http.Hijacker`. -/
lemma run_eq (steps : List HandlerStep) (w : HijackWriter) :
    run steps w = (CaptureWriter.run (calls steps) w.capture).map fun (capture, passed) =>
      ({ w with capture, hijacked := w.hijacked || (w.hijacker && attempts steps) }, passed) := by
  induction steps generalizing w with
  | nil => simp [run, calls, CaptureWriter.run, attempts]
  | cons s rest ih =>
      cases s with
      | Call call =>
          have hcalls : calls (.Call call :: rest) = call :: calls rest := rfl
          have hattempts : attempts (.Call call :: rest) = attempts rest := rfl
          rw [run, step, hcalls, hattempts, CaptureWriter.run]
          cases w.capture.step call with
          | none => rfl
          | some next =>
              simp only [Option.map_some, Option.bind_eq_bind, Option.bind_some, ih]
              cases CaptureWriter.run (calls rest) next.1 <;> rfl
      | Hijack below =>
          have hcalls : calls (.Hijack below :: rest) = calls rest := rfl
          have hattempts : attempts (.Hijack below :: rest) = true := rfl
          have hmark : (w.hijack below).1 = { w with hijacked := w.hijacked || w.hijacker } := by
            obtain ⟨capture, hijacker, hijacked⟩ := w
            cases hijacker <;> simp [hijack]
          rw [run, step, hcalls, hattempts]
          simp only [Option.bind_eq_bind, Option.bind_some, ih, hmark, List.nil_append]
          cases CaptureWriter.run (calls rest) w.capture with
          | none => rfl
          | some next =>
              obtain ⟨capture, hijacker, hijacked⟩ := w
              cases hijacker <;> simp

end HijackWriter

/-! ## What the client sees of the door -/

/-- The calls that write to the client: the mark of a degraded response, and a response of the door. -/
def DoorCall.answers : DoorCall → Bool
  | .SetDegraded => true
  | .Respond _ => true
  | _ => false

variable {V : Type}

/-- A call that writes nothing to the client. -/
abbrev DoorCall.silent (c : DoorCall) : Prop := c.answers = false

/-- A run of a silent part shows nothing. -/
lemma visible_silent {α : Type} {p : DoorProg V α} {t : List (DoorEvent V)} {a : α} (h : Runs p t a)
    (hp : p.Only DoorCall.silent) : visible DoorCall.answers t = [] := by
  refine List.filter_eq_nil_iff.mpr ?_
  intro e he
  rw [Steps.only h hp e he]
  exact Bool.false_ne_true

/-- The store of the door is silent. -/
lemma store_silent (cfg : DoorConfig) :
    Store.OnlyIn (S := DoorState V) DoorCall.silent (cfg.door (V := V)).store.lift where
  begin _ _ _ := onlyIn_call rfl
  complete _ _ _ _ _ := onlyIn_call rfl
  abandon _ _ _ := onlyIn_call rfl

/-- The policy of the door is silent. -/
lemma policy_silent (cfg : DoorConfig) : (cfg.policy (V := V)).lift.OnlyIn DoorCall.silent where
  storeResult := Option.forall_mem_map.mpr (forall_installed fun _ => onlyIn_call rfl)
  now := onlyIn_call rfl
  onAcquired := Option.forall_mem_map.mpr (forall_installed fun _ => onlyIn_call rfl)
  onReplayed := Option.forall_mem_map.mpr (forall_installed fun _ _ => onlyIn_call rfl)
  onConflict := Option.forall_mem_map.mpr (forall_installed fun _ _ => onlyIn_call rfl)
  onMismatch := Option.forall_mem_map.mpr (forall_installed fun _ _ => onlyIn_call rfl)
  onStoreError := by
    intro hook hhook op err
    obtain rfl := Option.some.inj hhook
    refine onlyIn_bind (fun _ => trivial) fun u => ?_
    split
    · exact onlyIn_pure _
    · next userHook huser =>
        have hinstalled : ∀ fn ∈ (cfg.policy (V := V)).hooks.onStoreError,
            ∀ op err, (fn op err).Only DoorCall.silent :=
          forall_installed fun _ _ => ⟨rfl, fun _ => trivial⟩
        exact onlyIn_lift (hinstalled userHook huser op err)
  hookErrors := Option.forall_mem_map.mpr (forall_installed (onlyIn_call rfl))

lemma engine_silent (cfg : DoorConfig) : (cfg.engine (V := V)).OnlyIn DoorCall.silent :=
  (policy_silent cfg).normalized

/-! ## A run with its claim granted -/

/-- The payload that was completed under a fence. -/
def Completes (t : List (DoorEvent V)) (op : Operation) (fence : ℤ) (payload : StoredResult) : Prop :=
  ∃ ctx now r, ⟨.Complete ctx op fence payload now, r⟩ ∈ t

/-- The claim of a fence was abandoned. -/
def Abandons (t : List (DoorEvent V)) (op : Operation) (fence : ℤ) : Prop :=
  ∃ ctx r, ⟨.Abandon ctx op fence, r⟩ ∈ t

/-- A claim is settled by what is stored for it: a payload, or nothing. -/
structure SettledWith (t : List (DoorEvent V)) (op : Operation) (fence : ℤ)
    (stored : Option StoredResult) : Prop where
  completes : ∀ payload, Completes t op fence payload ↔ stored = some payload
  abandons : Abandons t op fence ↔ stored = none

/-- The answer of `StoreResult`, for which a default stands in when it is not set. -/
def DoorConfig.judge (cfg : DoorConfig) (keep : StoredResult → Bool) (result : StoredResult) : Bool :=
  if cfg.storeResult then keep result else defaultStoreResult result

/-- What `StoreResult` says is stored of a response: the response, capped, or nothing. -/
def DoorConfig.stored (cfg : DoorConfig) (keep : StoredResult → Bool) (result : StoredResult) :
    Option StoredResult :=
  if cfg.judge keep result then some (cfg.payload result) else none

/-- What is stored after a handler that returned. -/
def DoorConfig.storedAfter (cfg : DoorConfig) (keep : StoredResult → Bool) :
    Handled V → Option StoredResult
  | .Wrote result => cfg.stored keep result
  | _ => none

lemma completes_shown {t : List (DoorEvent V)} {op : Operation} {fence : ℤ} {payload : StoredResult} :
    Completes (visible DoorCall.shown t) op fence payload ↔ Completes t op fence payload := by
  simp [Completes, DoorCall.shown]

lemma abandons_shown {t : List (DoorEvent V)} {op : Operation} {fence : ℤ} :
    Abandons (visible DoorCall.shown t) op fence ↔ Abandons t op fence := by
  simp [Abandons, DoorCall.shown]

lemma settledWith_shown {t : List (DoorEvent V)} {op : Operation} {fence : ℤ}
    {stored : Option StoredResult} (h : SettledWith (visible DoorCall.shown t) op fence stored) :
    SettledWith t op fence stored where
  completes payload := completes_shown.symm.trans (h.completes payload)
  abandons := abandons_shown.symm.trans h.abandons

section Granted

variable {cfg : DoorConfig} {op : Operation} {t : List (DoorEvent V)} {fence : ℤ}

/-- A granted claim begins what is seen of a run. -/
lemma visible_granted (h : Path op cfg (visible DoorCall.shown t)) (ha : Acquired t op fence) :
    ∃ opts rest, visible DoorCall.shown t = ⟨.Begin .Caller op opts, .ok (.Acquired fence)⟩ :: rest := by
  obtain ⟨ctx, opts, hmem⟩ := ha
  have hmem' : ⟨.Begin ctx op opts, .ok (.Acquired fence)⟩ ∈ visible DoorCall.shown t :=
    mem_visible.mpr ⟨hmem, rfl⟩
  generalize visible DoorCall.shown t = seen at h hmem'
  cases h with
  | dead => simp at hmem'
  | notAcquired opts' r hr =>
      simp only [List.mem_singleton, Sigma.mk.injEq, DoorCall.Begin.injEq] at hmem'
      obtain ⟨⟨-, -, rfl⟩, heq⟩ := hmem'
      exact absurd (eq_of_heq heq).symm (hr fence)
  | failOpen opts' err handled => simp_all
  | handlerFailed opts' fence' handled r hh =>
      obtain rfl : fence = fence' := by simp_all
      exact ⟨_, _, rfl⟩
  | predicatePanicked opts' fence' result p hset =>
      obtain rfl : fence = fence' := by simp_all
      exact ⟨_, _, rfl⟩
  | judged opts' fence' result keep hset last hlast =>
      obtain rfl : fence = fence' := by
        rcases hlast with ⟨r, rfl⟩ | ⟨payload, now, r, rfl⟩ <;> simp_all
      exact ⟨_, _, rfl⟩
  | byDefault opts' fence' result hset last hlast =>
      obtain rfl : fence = fence' := by
        rcases hlast with ⟨r, rfl⟩ | ⟨payload, now, r, rfl⟩ <;> simp_all
      exact ⟨_, _, rfl⟩

/-- The hook of a granted claim shows nothing and leaves the state as it was. -/
lemma runs_onAcquired {β : Type} {f : Unit → DoorM (DoorProg V) V β} {st : DoorState V} {b : β × DoorState V}
    (h : Runs ((cfg.engine.safely (cfg.engine.hooks.onAcquired.map fun hook => hook op) >>= f) st) t b) :
    ∃ u t', t = u ++ t' ∧ visible DoorCall.shown u = [] ∧ visible DoorCall.answers u = []
      ∧ Runs (f () st) t' b := by
  cases hset : cfg.onAcquired with
  | false =>
      simp only [Policy.normalized, Policy.lift, DoorConfig.policy, hset, Option.map] at h
      exact ⟨[], t, rfl, rfl, rfl, h⟩
  | true =>
      simp only [Policy.normalized, Policy.lift, DoorConfig.policy, hset, Option.map] at h
      obtain ⟨r, t, rfl, hrest⟩ := runs_call_iff.mp h
      cases r with
      | ok u => exact ⟨[_], t, rfl, rfl, rfl, hrest⟩
      | error p =>
          cases hcount : cfg.hookErrors with
          | false =>
              simp only [hcount] at hrest
              exact ⟨[_], t, rfl, rfl, rfl, hrest⟩
          | true =>
              simp only [hcount] at hrest
              obtain ⟨u, t, rfl, hcounted⟩ := runs_call_iff.mp hrest
              exact ⟨[_, _], t, rfl, rfl, rfl, hcounted⟩

/-- The run callback of a request that is not degraded is one handler call. -/
lemma runs_callback {β : Type} {f : Except V (Except GoError StoredResult) → DoorM (DoorProg V) V β}
    {b : β × DoorState V}
    (h : Runs ((runCallback requestCalls fence >>= f) ({} : DoorState V)) t b) :
    ∃ handled t' st, t = ⟨.Serve fence, handled⟩ :: t' ∧ Runs (f (.ok handled.seen) st) t' b := by
  obtain ⟨handled, t', rfl, hrest⟩ := runs_call_iff.mp h
  cases handled with
  | Panicked p => exact ⟨_, t', _, rfl, hrest⟩
  | Hijacked => exact ⟨_, t', _, rfl, hrest⟩
  | Wrote result => exact ⟨_, t', _, rfl, hrest⟩

/-- What the engine returns after a handler that returned: nothing is left to write. -/
inductive Finished : Except V (Result × Option GoError) → Prop
  | hijacked : Finished (.ok (.Zero, some (.HandlerFailed .Hijacked)))
  | executed (result : StoredResult) (stored : Bool) : Finished (.ok (.Executed result stored, none))

/-- The verdict of the predicate is what the claim is settled with. -/
lemma settledWith_verdict (before : List (DoorEvent V))
    (hcompletes : ∀ payload, ¬ Completes before op fence payload)
    (habandons : ¬ Abandons before op fence) {result : StoredResult} {verdict : Bool} {last : DoorEvent V}
    (h : (verdict = false ∧ ∃ r, last = ⟨.Abandon .Bookkeeping op fence, r⟩)
      ∨ (verdict = true ∧ ∃ now r, last = ⟨.Complete .Bookkeeping op fence (cfg.payload result) now, r⟩)) :
    SettledWith (before ++ [last]) op fence (if verdict then some (cfg.payload result) else none) := by
  simp only [Completes, Abandons, not_exists] at hcompletes habandons
  rcases h with ⟨rfl, r, rfl⟩ | ⟨rfl, now, r, rfl⟩
  · constructor
    · intro payload
      simp [Completes, hcompletes]
    · exact iff_of_true ⟨_, r, List.mem_append_right _ List.mem_cons_self⟩ rfl
  · constructor
    · intro payload
      constructor
      · rintro ⟨ctx, now', r', hmem⟩
        rcases List.mem_append.mp hmem with hmem | hmem
        · exact absurd hmem (hcompletes _ _ _ _)
        · simp only [List.mem_singleton, Sigma.mk.injEq, DoorCall.Complete.injEq] at hmem
          exact congrArg some hmem.1.2.2.2.1.symm
      · intro hpayload
        obtain rfl := Option.some.inj hpayload
        exact ⟨_, _, r, List.mem_append_right _ List.mem_cons_self⟩
    · simp [Abandons, habandons]

/-- **The engine after the handler returned** abandons the claim of a hijacked connection, and does with
a response as the predicate says. -/
lemma engine_returned {handled : Handled V} (hreturned : ∀ p, handled ≠ .Panicked p)
    {keep : StoredResult → Bool} {st : DoorState V} {b : Except V (Result × Option GoError) × DoorState V}
    (hjudge : ∀ result kept, ⟨.StoreResult result, kept⟩ ∈ t → kept = .ok (keep result))
    (h : Runs ((match (.ok handled.seen : Except V (Except GoError StoredResult)) with
      | .error p => pure (.error p)
      | .ok (.error runErr) => do
          abandonQuietly (cfg.door (V := V)).store.lift op fence cfg.engine
          pure (.ok (.Zero, some (.HandlerFailed runErr)))
      | .ok (.ok result) => do
          let kept ← cfg.engine.keep result
          settle (cfg.door (V := V)).store.lift op fence result cfg.engine kept :
        DoorM (DoorProg V) V (Except V (Result × Option GoError))) st) t b) :
    SettledWith (visible DoorCall.shown t) op fence (cfg.storedAfter keep handled)
      ∧ visible DoorCall.answers t = [] ∧ Finished b.1 := by
  cases handled with
  | Panicked p => exact absurd rfl (hreturned p)
  | Hijacked =>
      have hsilent := visible_silent h (onlyIn_bind
        (onlyIn_abandonQuietly (store_silent cfg) (engine_silent cfg) op fence) (fun _ => onlyIn_pure _) st)
      obtain ⟨r, t', st', ht, hret⟩ := runs_abandonQuietly h
      obtain ⟨rfl, rfl⟩ := runs_ret_iff.mp hret
      refine ⟨?_, hsilent, .hijacked⟩
      rw [ht]
      constructor <;> simp [Completes, Abandons, DoorConfig.storedAfter]
  | Wrote result =>
      have hsilent := visible_silent h (onlyIn_bind ((engine_silent cfg).keep result)
        (fun kept => onlyIn_settle (store_silent cfg) (engine_silent cfg) op fence result kept) st)
      rcases runs_keep h with ⟨hset, kept, t', st', ht, hrest⟩ | ⟨hset, hrest⟩
      · obtain rfl := hjudge result kept (mem_visible.mp (ht ▸ List.mem_cons_self)).1
        obtain ⟨last, hlast, hverdict, stored, hstored⟩ := runs_settle hrest
        refine ⟨?_, hsilent, hstored ▸ .executed result stored⟩
        simp only [ht, hlast, DoorConfig.storedAfter, DoorConfig.stored, DoorConfig.judge, hset, if_true]
        exact settledWith_verdict [_] (by simp [Completes]) (by simp [Abandons]) hverdict
      · obtain ⟨last, hlast, hverdict, stored, hstored⟩ := runs_settle hrest
        refine ⟨?_, hsilent, hstored ▸ .executed result stored⟩
        simp only [hlast, DoorConfig.storedAfter, DoorConfig.stored, DoorConfig.judge, hset,
          Bool.false_eq_true, if_false]
        exact settledWith_verdict [] (by simp [Completes]) (by simp [Abandons]) hverdict

/-- Once the engine has finished nothing more is done. -/
lemma Finished.ends {left : Except V (Result × Option GoError)} (h : Finished left) {st : DoorState V}
    {out : Except V Unit}
    (hafter : Runs (match left with
      | .error p => pure (.error p)
      | .ok out =>
          match st.panicValue with
          | some p => pure (.error p)
          | none => (cfg.door (V := V)).answer requestCalls out) t out) : t = [] := by
  obtain ⟨degraded, panicValue⟩ := st
  cases h with
  | hijacked => cases panicValue <;> exact (runs_ret_iff.mp hafter).1
  | executed result stored => cases panicValue <;> exact (runs_ret_iff.mp hafter).1

/-- **All that a run does once its claim is granted**, when the handler returned: the claim is settled by
what the predicate says, and the door writes nothing to the client. -/
lemma granted_run {out : Except V Unit} (h : Runs (doorCalls cfg op) t out) (ha : Acquired t op fence)
    {handled : Handled V} (hreturned : ∀ p, handled ≠ .Panicked p)
    (hserve : ∀ fence' handled', ⟨.Serve fence', handled'⟩ ∈ t → handled' = handled)
    {keep : StoredResult → Bool}
    (hjudge : ∀ result kept, ⟨.StoreResult result, kept⟩ ∈ t → kept = .ok (keep result)) :
    SettledWith t op fence (cfg.storedAfter keep handled) ∧ visible DoorCall.answers t = [] := by
  obtain ⟨opts, rest, hgranted⟩ := visible_granted (door_path h) ha
  obtain ⟨t₁, t₂, ⟨left, st⟩, rfl, hengine, hafter⟩ := runs_bind_iff.mp h
  obtain ⟨ctxErr, t₁, rfl, halive⟩ := runs_call_iff.mp hengine
  cases ctxErr with
  | some err =>
      -- a dead context begins nothing
      obtain ⟨rfl, heq⟩ := runs_ret_iff.mp halive
      cases heq
      have hend : visible DoorCall.shown t₂ = [] := hidden_answer cfg _ _ _ hafter
      rw [visible_append, hend] at hgranted
      cases hgranted
  | none =>
      obtain ⟨now, t₁, rfl, hbegin⟩ := runs_call_iff.mp halive
      obtain ⟨begun, t₁, rfl, hrest⟩ := runs_call_iff.mp hbegin
      obtain rfl : begun = .ok (.Acquired fence) := by
        rw [visible_append, visible_cons_hidden rfl, visible_cons_hidden rfl, visible_cons rfl,
          List.cons_append] at hgranted
        obtain ⟨hhead, -⟩ := List.cons.inj hgranted
        simp only [Sigma.mk.injEq] at hhead
        exact eq_of_heq hhead.2
      obtain ⟨u, t₁, rfl, hshown, hanswers, hserved⟩ := runs_onAcquired hrest
      obtain ⟨handled', t₁, st', rfl, hreturns⟩ := runs_callback hserved
      obtain rfl := hserve fence handled' (by simp)
      obtain ⟨hsettled, hsilent, hfinished⟩ := engine_returned hreturned
        (fun result kept hmem => hjudge result kept (by simp [hmem])) hreturns
      obtain rfl := hfinished.ends hafter
      rw [List.append_nil]
      refine ⟨settledWith_shown ?_, ?_⟩
      · rw [visible_cons_hidden rfl, visible_cons_hidden rfl, visible_cons rfl, visible_append, hshown,
          List.nil_append, visible_cons rfl]
        generalize visible DoorCall.shown t₁ = seen at hsettled
        constructor
        · intro payload
          simpa [Completes] using hsettled.completes payload
        · simpa [Abandons] using hsettled.abandons
      · rw [visible_cons_hidden rfl, visible_cons_hidden rfl, visible_cons_hidden rfl, visible_append,
          hanswers, List.nil_append, visible_cons_hidden rfl, hsilent]

end Granted

/-! ## Attempts that fail -/

/-- The response of a handler, as it is captured under a limit. -/
def captured (allow : List GoString) (header : Header) (limit : ℤ) (calls : List HandlerCall) :
    StoredResult :=
  let buf := (written calls).take (limit + 1).toNat
  { kind := .Http
    status := (commit header calls).1
    headers := some (storedHeaders allow (commit header calls).2)
    body := if buf = [] then none else some buf }

/-- A run of the door whose handler leaves this writer, and whose `StoreResult` answers as `keep` does. -/
structure RunsWith (cfg : DoorConfig) (allow : List GoString) (keep : StoredResult → Bool) (op : Operation)
    (w : HijackWriter) (t : List (DoorEvent V)) : Prop where
  runs : ∃ out, Runs (doorCalls cfg op) t out
  serve : ∀ fence handled, ⟨.Serve fence, handled⟩ ∈ t → handled = w.handled allow
  judge : ∀ result kept, ⟨.StoreResult result, kept⟩ ∈ t → kept = .ok (keep result)

/-- A run with attempts does what `StoreResult` says of the response, and what a run without them does:
it stores the same, and the client sees the same. -/
structure SameAs (cfg : DoorConfig) (allow : List GoString) (keep : StoredResult → Bool) (op : Operation)
    (fence : ℤ) (w : HijackWriter) (passed : List HandlerCall) (t : List (DoorEvent V))
    (w' : HijackWriter) (passed' : List HandlerCall) : Prop where
  settled : SettledWith t op fence (cfg.stored keep (w'.capture.result allow))
  completes : ∀ t' : List (DoorEvent V), RunsWith cfg allow keep op w' t' → Acquired t' op fence →
    ∀ payload, Completes t op fence payload ↔ Completes t' op fence payload
  abandons : ∀ t' : List (DoorEvent V), RunsWith cfg allow keep op w' t' → Acquired t' op fence →
    (Abandons t op fence ↔ Abandons t' op fence)
  passed : passed = passed'
  answers : ∀ t' : List (DoorEvent V), RunsWith cfg allow keep op w' t' → Acquired t' op fence →
    visible DoorCall.answers t = visible DoorCall.answers t'

/-- Attempts are ignored: the door treats the handler as it treats the handler without them. -/
def HijacksIgnored (V : Type) (cfg : DoorConfig) (allow : List GoString) (keep : StoredResult → Bool)
    (header : Header) (hijacker : Bool) (steps : List HandlerStep) : Prop :=
  ∀ w passed w' passed',
    HijackWriter.run steps (.new header cfg.limit hijacker) = some (w, passed) →
    HijackWriter.run (withoutHijacks steps) (.new header cfg.limit hijacker) = some (w', passed') →
    ∀ op fence (t : List (DoorEvent V)), RunsWith cfg allow keep op w t → Acquired t op fence →
      SameAs cfg allow keep op fence w passed t w' passed'

section

variable {cfg : DoorConfig} {allow : List GoString} {keep : StoredResult → Bool} {op : Operation} {fence : ℤ}
variable {t : List (DoorEvent V)} {w : HijackWriter}

/-- A granted run of a handler that returned. -/
lemma RunsWith.granted (h : RunsWith cfg allow keep op w t) (ha : Acquired t op fence) :
    SettledWith t op fence (cfg.storedAfter keep (w.handled (V := V) allow))
      ∧ visible DoorCall.answers t = [] := by
  obtain ⟨out, hruns⟩ := h.runs
  refine granted_run hruns ha ?_ h.serve h.judge
  intro p
  rw [HijackWriter.handled]
  split_ifs <;> simp

/-- An environment that grants every claim. -/
def grants (handled : Handled V) (keep : StoredResult → Bool) : (c : DoorCall) → DoorReply V c
  | .CtxErr => none
  | .Begin _ _ _ => .ok (.Acquired 1)
  | .Complete _ _ _ _ _ => .ok .Ok
  | .Abandon _ _ _ => .ok .Ok
  | .Now => 0
  | .Serve _ => handled
  | .StoreResult result => .ok (keep result)
  | .Hook _ => .ok ()
  | .CountHookError => ()
  | .SetDegraded => ()
  | .WroteHeader => false
  | .Respond _ => .ok ()

/-- Every handler has a run in which its claim is granted. -/
lemma exists_granted (cfg : DoorConfig) (allow : List GoString) (keep : StoredResult → Bool)
    (op : Operation) (w : HijackWriter) :
    ∃ t : List (DoorEvent V), RunsWith cfg allow keep op w t ∧ Acquired t op 1 := by
  obtain ⟨t, out, h, ht⟩ :=
    exists_runs_replying (doorCalls (V := V) cfg op) (grants (w.handled allow) keep)
  refine ⟨t, ⟨⟨out, h⟩, ?_, ?_⟩, ?_⟩
  · intro fence handled hmem
    exact ht _ hmem
  · intro result kept hmem
    exact ht _ hmem
  · obtain ⟨t₁, t₂, b, rfl, hengine, -⟩ := runs_bind_iff.mp h
    obtain ⟨ctxErr, t₁, rfl, halive⟩ := runs_call_iff.mp hengine
    obtain rfl : ctxErr = none := ht ⟨.CtxErr, ctxErr⟩ (by simp)
    obtain ⟨now, t₁, rfl, hbegin⟩ := runs_call_iff.mp halive
    obtain ⟨begun, t₁, rfl, -⟩ := runs_call_iff.mp hbegin
    obtain rfl : begun = .ok (.Acquired 1) := ht ⟨.Begin _ op _, begun⟩ (by simp)
    exact ⟨_, _, List.mem_cons_of_mem _ (List.mem_cons_of_mem _ List.mem_cons_self)⟩

/-- What is stored after the handler decides whether the attempts are seen. -/
lemma sameAs_of_stored {w' : HijackWriter} {passed : List HandlerCall} (hw' : w'.hijacked = false)
    (hstored : cfg.storedAfter keep (w.handled (V := V) allow) = cfg.stored keep (w'.capture.result allow))
    (h : RunsWith cfg allow keep op w t) (ha : Acquired t op fence) :
    SameAs cfg allow keep op fence w passed t w' passed := by
  have hgranted := h.granted ha
  rw [hstored] at hgranted
  have hplain : ∀ t' : List (DoorEvent V), RunsWith cfg allow keep op w' t' → Acquired t' op fence →
      SettledWith t' op fence (cfg.stored keep (w'.capture.result allow))
        ∧ visible DoorCall.answers t' = [] := by
    intro t' h' ha'
    have hgranted' := h'.granted ha'
    rwa [HijackWriter.handled, hw', if_neg Bool.false_ne_true] at hgranted'
  refine ⟨hgranted.1, ?_, ?_, rfl, ?_⟩
  · intro t' h' ha' payload
    rw [hgranted.1.completes, (hplain t' h' ha').1.completes]
  · intro t' h' ha'
    rw [hgranted.1.abandons, (hplain t' h' ha').1.abandons]
  · intro t' h' ha'
    rw [hgranted.2, (hplain t' h' ha').2]

/-- What is stored of a response depends on the verdict alone. -/
lemma stored_eq_none_iff {result : StoredResult} :
    cfg.stored keep result = none ↔ cfg.judge keep result = false := by
  rw [DoorConfig.stored]
  cases cfg.judge keep result <;> simp

end

/-- A handler that finishes leaves the response it wrote, in the buffer and on the wire. -/
lemma capture_of_finishes {cfg : DoorConfig} (hlimit : cfg.maxResultBytes ≤ maxInt) {header : Header}
    {hijacker : Bool} {steps : List HandlerStep} {w : HijackWriter} {passed : List HandlerCall}
    (h : HijackWriter.run steps (.new header cfg.limit hijacker) = some (w, passed)) :
    ∃ capture, CaptureWriter.run (calls steps) (.new header cfg.limit) = some (capture, passed)
      ∧ w = ⟨capture, hijacker, hijacker && attempts steps⟩
      ∧ ∀ allow, capture.result allow = captured allow header cfg.limit (calls steps) := by
  have hpos : 0 ≤ cfg.limit := by
    rw [DoorConfig.limit]
    split_ifs with hdefault
    · decide
    · omega
  have hle : cfg.limit ≤ maxInt := by
    rw [DoorConfig.limit]
    split_ifs
    · decide
    · exact hlimit
  rw [HijackWriter.run_eq] at h
  obtain ⟨⟨capture, passed'⟩, hcapture, heq⟩ := Option.map_eq_some_iff.mp h
  obtain ⟨rfl, rfl⟩ := Prod.mk.inj heq
  have hroom : cfg.limit < maxInt ∨ writes (calls steps) = [] := by
    rcases hle.lt_or_eq with hlt | hmax
    · exact Or.inl hlt
    · refine Or.inr ?_
      by_contra hwrites
      have hpanics : CaptureWriter.run (calls steps) (.new header cfg.limit) = none :=
        CaptureWriter.run_panics ⟨hmax, rfl, rfl⟩ hwrites
      rw [HijackWriter.new, hpanics] at hcapture
      cases hcapture
  refine ⟨capture, hcapture, by simp [HijackWriter.new], ?_⟩
  intro allow
  obtain ⟨capture', passed', hrun, hbuf, -, hresult⟩ :=
    CaptureWriter.run_exact header hpos hroom allow
  obtain ⟨rfl, -⟩ := Prod.mk.inj (Option.some.inj (hcapture.symm.trans hrun))
  rw [hresult, hbuf, captured]

/-- **A marked writer loses a response that is to be stored**: the claim is abandoned. -/
lemma not_hijacksIgnored {cfg : DoorConfig} {allow : List GoString} {keep : StoredResult → Bool}
    {header : Header} {steps : List HandlerStep} (hattempts : attempts steps = true)
    {capture : CaptureWriter} {passed : List HandlerCall}
    (hrun : CaptureWriter.run (calls steps) (.new header cfg.limit) = some (capture, passed))
    (hkept : cfg.judge keep (capture.result allow) = true) :
    ¬ HijacksIgnored V cfg allow keep header true steps := by
  intro hignored
  have hmarked : HijackWriter.run steps (.new header cfg.limit true)
      = some (⟨capture, true, true⟩, passed) := by
    simp [HijackWriter.run_eq, HijackWriter.new, hrun, hattempts]
  have hplain : HijackWriter.run (withoutHijacks steps) (.new header cfg.limit true)
      = some (⟨capture, true, false⟩, passed) := by
    simp [HijackWriter.run_eq, HijackWriter.new, calls_withoutHijacks, attempts_withoutHijacks, hrun]
  obtain ⟨t, hwith, hgranted⟩ := exists_granted (V := V) cfg allow keep ⟨[], [], []⟩ ⟨capture, true, true⟩
  have habandoned := ((hwith.granted hgranted).1.abandons).mpr rfl
  have hstored := (hignored _ _ _ _ hmarked hplain _ _ t hwith hgranted).settled.abandons.mp habandoned
  rw [stored_eq_none_iff, hkept] at hstored
  cases hstored

/-- **A failed hijack is harmless exactly when the writer below is no `http.Hijacker`**, or `StoreResult`
stores nothing of the response: for every handler that finishes and no attempt of which succeeds, the door
settles the claim as `StoreResult` says and as it does for the handler without the attempts, with the same
response, if and only if no attempt reaches an `http.Hijacker` or the response is not to be stored. -/
theorem failed_hijack_harmless_iff {V : Type} (cfg : DoorConfig) (allow : List GoString)
    (keep : StoredResult → Bool) (header : Header) (hijacker : Bool) (steps : List HandlerStep)
    (hlimit : cfg.maxResultBytes ≤ maxInt)
    (hfinishes : (HijackWriter.run steps (.new header cfg.limit hijacker)).isSome) :
    HijacksFail hijacker steps →
      (HijacksIgnored V cfg allow keep header hijacker steps
        ↔ hijacker = false ∨ attempts steps = false
          ∨ cfg.judge keep (captured allow header cfg.limit (calls steps)) = false) := by
  intro _
  obtain ⟨⟨w, passed⟩, hrun⟩ := Option.isSome_iff_exists.mp hfinishes
  obtain ⟨capture, hcapture, rfl, hresult⟩ := capture_of_finishes hlimit hrun
  constructor
  · intro hignored
    by_contra hnone
    simp only [not_or, Bool.not_eq_false] at hnone
    obtain ⟨rfl, hattempts, hkept⟩ := hnone
    exact not_hijacksIgnored hattempts hcapture (hresult allow ▸ hkept) hignored
  · intro hharmless w₁ passed₁ w₂ passed₂ hrun₁ hrun₂ op fence t hwith hgranted
    obtain ⟨rfl, rfl⟩ := Prod.mk.inj (Option.some.inj (hrun.symm.trans hrun₁))
    rw [HijackWriter.run_eq, calls_withoutHijacks, attempts_withoutHijacks, HijackWriter.new, hcapture]
      at hrun₂
    obtain ⟨rfl, rfl⟩ := Prod.mk.inj (Option.some.inj hrun₂)
    refine sameAs_of_stored (by simp) ?_ hwith hgranted
    by_cases hmark : (hijacker && attempts steps) = true
    · rw [HijackWriter.handled, if_pos hmark]
      simp only [Bool.and_eq_true] at hmark
      have hkept : cfg.judge keep (capture.result allow) = false := by
        rw [hresult]
        simpa [hmark] using hharmless
      exact (stored_eq_none_iff.mpr hkept).symm
    · rw [HijackWriter.handled, if_neg hmark]
      rfl

/-- What a door nested in another answers over a writer that is no `http.Hijacker`, such as that of
HTTP/2.  A capture writer is itself an `http.Hijacker`. -/
def nestedAnswer : Option GoError := ((HijackWriter.new Relational.Table.empty 4 false).hijack none).2

/-- A handler that tries to upgrade the connection, and writes a plain response when it cannot. -/
def fallsBack : List HandlerStep := [.Hijack nestedAnswer, .Call (.WriteHeader 200), .Call (.Write [1, 2])]

lemma hijacksFail_fallsBack (hijacker : Bool) : HijacksFail hijacker fallsBack := by
  intro below hmem
  obtain rfl : below = nestedAnswer := by simpa [fallsBack] using hmem
  cases hijacker <;> simp [hijackError, nestedAnswer, HijackWriter.hijack, HijackWriter.new]

theorem failed_hijack_harmless_iff_refused :
    HijacksIgnored Unit fourBytes [] (fun _ => true) Relational.Table.empty false fallsBack :=
  (failed_hijack_harmless_iff fourBytes [] (fun _ => true) Relational.Table.empty false fallsBack (by decide)
    (by decide) (hijacksFail_fallsBack false)).mpr (Or.inl rfl)

/-- Inside another door the response of that handler is not stored, though `StoreResult` keeps it. -/
theorem failed_hijack_abandons : HijacksFail true fallsBack
    ∧ (HijackWriter.run fallsBack (.new Relational.Table.empty fourBytes.limit true)).isSome
    ∧ ¬ HijacksIgnored Unit fourBytes [] (fun _ => true) Relational.Table.empty true fallsBack := by
  have hrun : CaptureWriter.run (calls fallsBack) (.new Relational.Table.empty fourBytes.limit)
      = some (_, _) := rfl
  exact ⟨hijacksFail_fallsBack true, by decide, not_hijacksIgnored rfl hrun rfl⟩

end Anyonce.Go
