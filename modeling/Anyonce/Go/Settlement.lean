import Anyonce.Go.Door

/-!
# What the Go door leaves behind

The runs of `Door.Execute` in an arbitrary environment, seen through its store calls, the handler and
the predicate.  `Path` lists what they can be and `door_path` says there is nothing else;
`door_settles_iff` reads off when a granted claim was settled.

The proof follows the program: each part of it that makes none of these calls drops out
(`HiddenIn`), and the run callback, the quiet abandon and the predicate each have one lemma that
says which call they make.
-/

namespace Anyonce.Go

open Interaction

variable {V : Type}

/-- The calls looked at: the store's, the handler's and the predicate's. -/
def DoorCall.shown : DoorCall → Bool
  | .Begin _ _ _ => true
  | .Complete _ _ _ _ _ => true
  | .Abandon _ _ _ => true
  | .Serve _ => true
  | .StoreResult _ => true
  | _ => false

/-- The settlement call a run ends with. -/
def IsSettlement (op : Operation) (fence : ℤ) (last : DoorEvent V) : Prop :=
  (∃ r, last = ⟨.Abandon .Bookkeeping op fence, r⟩)
    ∨ ∃ payload now r, last = ⟨.Complete .Bookkeeping op fence payload now, r⟩

/-- What a run of the door does to the store, the handler and the predicate. -/
inductive Path (op : Operation) (cfg : DoorConfig) : List (DoorEvent V) → Prop
  | dead : Path op cfg []
  | notAcquired (opts : BeginOptions) (r : Except GoError (BeginOutcome Record))
      (hr : ∀ fence, r ≠ .ok (.Acquired fence)) : Path op cfg [⟨.Begin .Caller op opts, r⟩]
  | failOpen (opts : BeginOptions) (err : GoError) (handled : Handled V) :
      Path op cfg [⟨.Begin .Caller op opts, .error err⟩, ⟨.Serve 0, handled⟩]
  | handlerFailed (opts : BeginOptions) (fence : ℤ) (handled : Handled V)
      (r : Except GoError CompleteStatus) (hh : ∀ result, handled ≠ .Wrote result) :
      Path op cfg [⟨.Begin .Caller op opts, .ok (.Acquired fence)⟩, ⟨.Serve fence, handled⟩,
        ⟨.Abandon .Bookkeeping op fence, r⟩]
  | predicatePanicked (opts : BeginOptions) (fence : ℤ) (result : StoredResult) (p : V)
      (hset : cfg.storeResult = true) :
      Path op cfg [⟨.Begin .Caller op opts, .ok (.Acquired fence)⟩, ⟨.Serve fence, .Wrote result⟩,
        ⟨.StoreResult result, .error p⟩]
  | judged (opts : BeginOptions) (fence : ℤ) (result : StoredResult) (keep : Bool)
      (hset : cfg.storeResult = true) (last : DoorEvent V)
      (hlast : IsSettlement op fence last) :
      Path op cfg [⟨.Begin .Caller op opts, .ok (.Acquired fence)⟩, ⟨.Serve fence, .Wrote result⟩,
        ⟨.StoreResult result, .ok keep⟩, last]
  | byDefault (opts : BeginOptions) (fence : ℤ) (result : StoredResult)
      (hset : cfg.storeResult = false) (last : DoorEvent V)
      (hlast : IsSettlement op fence last) :
      Path op cfg [⟨.Begin .Caller op opts, .ok (.Acquired fence)⟩, ⟨.Serve fence, .Wrote result⟩,
        last]

/-- The limit `Execute` gives the capture writer, which is the cap the engine normalizes to. -/
def DoorConfig.limit (cfg : DoorConfig) : ℤ :=
  if cfg.maxResultBytes ≤ 0 then defaultMaxResultBytes else cfg.maxResultBytes

/-- What `Complete` is given of a result: all of it, or without its body when that is over the cap. -/
def DoorConfig.payload (cfg : DoorConfig) (result : StoredResult) : StoredResult :=
  if (resultSize result : ℤ) > cfg.limit then omitBody result else result

/-- Whatever is completed is what the handler wrote, capped. -/
def PayloadsCapped (cfg : DoorConfig) (t : List (DoorEvent V)) : Prop :=
  ∀ ctx op fence payload now r, ⟨.Complete ctx op fence payload now, r⟩ ∈ t →
    ∃ fence' result, ⟨.Serve fence', .Wrote result⟩ ∈ t ∧ payload = cfg.payload result

/-! ## The parts that are not looked at -/

/-- A computation of the door that makes none of the shown calls, from any state. -/
def HiddenIn {α : Type} (x : DoorM (DoorProg V) V α) : Prop := ∀ st, Hidden DoorCall.shown (x st)

section Hidden

variable {α β : Type}

lemma hiddenIn_pure (a : α) : HiddenIn (pure a : DoorM (DoorProg V) V α) :=
  fun st => hidden_ret (a, st)

lemma hiddenIn_lift {x : DoorProg V α} (hx : Hidden DoorCall.shown x) :
    HiddenIn (StateT.lift x : DoorM (DoorProg V) V α) :=
  fun st => hidden_bind hx fun a => hidden_ret (a, st)

lemma hiddenIn_bind {x : DoorM (DoorProg V) V α} {f : α → DoorM (DoorProg V) V β} (hx : HiddenIn x)
    (hf : ∀ a, HiddenIn (f a)) : HiddenIn (x >>= f) :=
  fun st => hidden_bind (hx st) fun p => hf p.1 p.2

/-- A hidden part drops out of what is seen of a sequence. -/
lemma runs_hiddenIn_bind {x : DoorM (DoorProg V) V α} {f : α → DoorM (DoorProg V) V β}
    (hx : HiddenIn x) {st : DoorState V} {t : List (DoorEvent V)} {b : β × DoorState V}
    (h : Runs ((x >>= f) st) t b) :
    ∃ t' a st', visible DoorCall.shown t = visible DoorCall.shown t' ∧ Runs (f a st') t' b := by
  obtain ⟨t', p, ht, h'⟩ := runs_hidden_bind (hx st) h
  exact ⟨t', p.1, p.2, ht, h'⟩

end Hidden

/-- The policy the engine runs with inside the door. -/
abbrev DoorConfig.engine (cfg : DoorConfig) : Policy (DoorM (DoorProg V) V) V :=
  cfg.policy.lift.normalized

/-- A hook that is not installed, or that makes no shown call. -/
def HookHidden (hook : Option (DoorM (DoorProg V) V (Except V Unit))) : Prop :=
  ∀ fn, hook = some fn → HiddenIn fn

lemma hookErrors_hidden (cfg : DoorConfig) :
    ∀ count, (cfg.engine (V := V)).hookErrors = some count → HiddenIn count := by
  intro count hcount
  cases hc : cfg.hookErrors with
  | false => simp [Policy.normalized, Policy.lift, DoorConfig.policy, hc] at hcount
  | true =>
      simp only [Policy.normalized, Policy.lift, DoorConfig.policy, hc, if_true, Option.map_some,
        Option.some.injEq] at hcount
      subst hcount
      exact hiddenIn_lift (hidden_call rfl)

lemma hiddenIn_safely (cfg : DoorConfig) {hook : Option (DoorM (DoorProg V) V (Except V Unit))}
    (hh : HookHidden hook) : HiddenIn (cfg.engine.safely hook) := by
  cases hook with
  | none => exact hiddenIn_pure ()
  | some fn =>
      refine hiddenIn_bind (hh fn rfl) ?_
      intro r
      cases r with
      | ok u => exact hiddenIn_pure ()
      | error p =>
          dsimp only
          split
          · exact hiddenIn_pure ()
          · next count hcount => exact hookErrors_hidden cfg count hcount

/-- The observing hooks of the engine make no shown call. -/
structure ObserversHidden (cfg : DoorConfig) : Prop where
  onAcquired : ∀ op, HookHidden ((cfg.engine (V := V)).hooks.onAcquired.map fun hook => hook op)
  onReplayed : ∀ op rec,
    HookHidden ((cfg.engine (V := V)).hooks.onReplayed.map fun hook => hook op rec)
  onConflict : ∀ op t, HookHidden ((cfg.engine (V := V)).hooks.onConflict.map fun hook => hook op t)
  onMismatch : ∀ op rec,
    HookHidden ((cfg.engine (V := V)).hooks.onMismatch.map fun hook => hook op rec)

lemma hookHidden_none : HookHidden (none : Option (DoorM (DoorProg V) V (Except V Unit))) := by
  intro fn hfn
  cases hfn

lemma hookHidden_ask (call : HookCall) :
    HookHidden (some (StateT.lift (ask (.Hook call)) : DoorM (DoorProg V) V (Except V Unit))) := by
  intro fn hfn
  obtain rfl := Option.some.inj hfn
  exact hiddenIn_lift (hidden_call rfl)

lemma observersHidden (cfg : DoorConfig) : ObserversHidden (V := V) cfg := by
  obtain ⟨name, lease, ttl, maxResultBytes, mode, storeResult, onAcquired, onReplayed, onConflict,
    onMismatch, onStoreError, hookErrors, doorMismatch⟩ := cfg
  constructor
  · intro op
    cases onAcquired
    · exact hookHidden_none
    · exact hookHidden_ask _
  · intro op rec
    cases onReplayed
    · exact hookHidden_none
    · exact hookHidden_ask _
  · intro op leaseUntil
    cases onConflict
    · exact hookHidden_none
    · exact hookHidden_ask _
  · intro op rec
    cases onMismatch
    · exact hookHidden_none
    · exact hookHidden_ask _

/-- The hook of the door itself marks the request and calls the user's hook. -/
lemma hiddenIn_storeError (cfg : DoorConfig) (op : Operation) (err : GoError) :
    HiddenIn (cfg.engine.storeError op err : DoorM (DoorProg V) V Unit) := by
  refine hiddenIn_safely cfg ?_
  intro fn hfn
  obtain rfl := Option.some.inj hfn
  refine hiddenIn_bind (fun st => hidden_ret _) ?_
  intro u
  split
  · exact hiddenIn_pure _
  · next userHook huser =>
      cases hc : cfg.onStoreError with
      | false => simp [DoorConfig.policy, hc] at huser
      | true =>
          simp only [DoorConfig.policy, hc, if_true, Option.some.injEq] at huser
          subst huser
          exact hiddenIn_lift (hidden_call rfl)

/-! ## The parts that are -/

section Inversion

variable {β : Type} {t : List (DoorEvent V)} {b : β × DoorState V} {st : DoorState V}

/-- How the engine sees what the handler did. -/
def Handled.seen : Handled V → Except GoError StoredResult
  | .Panicked _ => .error .Panicked
  | .Hijacked => .error .Hijacked
  | .Wrote result => .ok result

/-- The run callback is one handler call, and a panic of the handler does not leave it. -/
lemma runs_runCallback {fence : ℤ}
    {f : Except V (Except GoError StoredResult) → DoorM (DoorProg V) V β}
    (h : Runs ((runCallback requestCalls fence >>= f) st) t b) :
    ∃ handled t' st', visible DoorCall.shown t
        = ⟨.Serve fence, handled⟩ :: visible DoorCall.shown t'
      ∧ Runs (f (.ok handled.seen) st') t' b := by
  obtain ⟨t₁, t₂, p, rfl, h₁, h₂⟩ := runs_bind_iff.mp h
  rw [visible_append]
  have hmark : HiddenIn (markDegraded (requestCalls (V := V))) := by
    refine hiddenIn_bind (fun st => hidden_ret (st, st)) ?_
    intro st
    split
    · exact hiddenIn_lift (hidden_call rfl)
    · exact hiddenIn_pure _
  obtain ⟨u₁, w, st₁, hu₁, hserve⟩ := runs_hiddenIn_bind hmark h₁
  obtain ⟨handled, u₃, rfl, hrest⟩ := runs_call_iff.mp hserve
  rw [hu₁, visible_cons rfl]
  have hdone : visible DoorCall.shown u₃ = [] ∧ p.1 = .ok handled.seen := by
    cases handled with
    | Panicked v =>
        obtain ⟨rfl, rfl⟩ := runs_ret_iff.mp hrest
        exact ⟨rfl, rfl⟩
    | Hijacked =>
        obtain ⟨rfl, rfl⟩ := runs_ret_iff.mp hrest
        exact ⟨rfl, rfl⟩
    | Wrote result =>
        obtain ⟨rfl, rfl⟩ := runs_ret_iff.mp hrest
        exact ⟨rfl, rfl⟩
  refine ⟨handled, t₂, p.2, by rw [hdone.1, List.singleton_append], ?_⟩
  rw [← hdone.2]
  exact h₂

/-- Abandoning quietly is one `abandon`, under a context that outlives the caller. -/
lemma runs_abandonQuietly {cfg : DoorConfig} {op : Operation} {fence : ℤ}
    {f : Unit → DoorM (DoorProg V) V β}
    (h : Runs ((abandonQuietly (cfg.door (V := V)).store.lift op fence cfg.engine >>= f) st) t b) :
    ∃ r t' st', visible DoorCall.shown t
        = ⟨.Abandon .Bookkeeping op fence, r⟩ :: visible DoorCall.shown t'
      ∧ Runs (f () st') t' b := by
  obtain ⟨t₁, t₂, p, rfl, h₁, h₂⟩ := runs_bind_iff.mp h
  obtain ⟨r, u, rfl, hquiet⟩ := runs_call_iff.mp h₁
  rw [visible_append, visible_cons rfl]
  have hrest : visible DoorCall.shown u = [] := by
    cases r with
    | ok status => exact hiddenIn_pure () st u p hquiet
    | error err => exact hiddenIn_storeError cfg op err st u p hquiet
  exact ⟨r, t₂, p.2, by rw [hrest, List.singleton_append], h₂⟩

/-- The predicate is one call when it is set, and no call when the default stands in for it. -/
lemma runs_keep {cfg : DoorConfig} {result : StoredResult}
    {f : Except V Bool → DoorM (DoorProg V) V β}
    (h : Runs ((cfg.engine.keep result >>= f) st) t b) :
    (cfg.storeResult = true ∧ ∃ kept t' st', visible DoorCall.shown t
        = ⟨.StoreResult result, kept⟩ :: visible DoorCall.shown t' ∧ Runs (f kept st') t' b)
      ∨ (cfg.storeResult = false ∧ Runs (f (.ok (defaultStoreResult result)) st) t b) := by
  cases hset : cfg.storeResult with
  | true =>
      refine Or.inl ⟨rfl, ?_⟩
      simp only [Policy.keep, Policy.normalized, Policy.lift, DoorConfig.policy, hset] at h
      obtain ⟨kept, t', rfl, hrest⟩ := runs_call_iff.mp h
      exact ⟨kept, t', st, visible_cons rfl kept t', hrest⟩
  | false =>
      refine Or.inr ⟨rfl, ?_⟩
      simp only [Policy.keep, Policy.normalized, Policy.lift, DoorConfig.policy, hset] at h
      exact h

end Inversion

/-! ## Every run is one of the paths -/

lemma hidden_respond (response : Response) :
    Hidden DoorCall.shown ((requestCalls (V := V)).respond response) :=
  hidden_call rfl

lemma doorMismatch_hidden (cfg : DoorConfig) (record : Record)
    (hook : Record → DoorProg V (Except V Unit)) (hhook : cfg.door.onMismatch = some hook) :
    Hidden DoorCall.shown (hook record) := by
  cases hc : cfg.doorMismatch with
  | false => simp [DoorConfig.door, hc] at hhook
  | true =>
      simp only [DoorConfig.door, hc, if_true, Option.some.injEq] at hhook
      subst hhook
      exact hidden_call rfl

/-- What is written after the engine is not looked at. -/
lemma hidden_answer (cfg : DoorConfig) (out : Result × Option GoError) :
    Hidden DoorCall.shown ((cfg.door (V := V)).answer requestCalls out) := by
  obtain ⟨res, err⟩ := out
  cases err with
  | some err =>
      show Hidden DoorCall.shown (if err.isHijacked then _ else _)
      split
      · exact hidden_ret _
      · split
        · exact hidden_respond _
        · refine hidden_bind (hidden_call rfl) ?_
          intro wrote
          cases wrote with
          | true => exact hidden_ret _
          | false => exact hidden_respond _
  | none =>
      cases res with
      | Zero => exact hidden_ret _
      | Executed result stored => exact hidden_ret _
      | Replayed record => exact hidden_respond _
      | Conflict leaseUntil => exact hidden_bind (hidden_call rfl) fun now => hidden_respond _
      | Mismatch record =>
          simp only [Door.answer]
          split
          · exact hidden_respond _
          · next hook hhook =>
              refine hidden_bind (doorMismatch_hidden cfg record hook hhook) ?_
              intro r
              cases r with
              | error p => exact hidden_ret _
              | ok u => exact hidden_respond _
      | StoreError err => exact hidden_respond _

/-- A path whose completions are capped. -/
def Seen (op : Operation) (cfg : DoorConfig) (t : List (DoorEvent V)) : Prop :=
  Path op cfg t ∧ PayloadsCapped cfg t

section AfterHandler

variable {cfg : DoorConfig} {op : Operation} {st : DoorState V} {t : List (DoorEvent V)}
variable {b : Except V (Result × Option GoError) × DoorState V}

/-- After a handler that failed, the claim is abandoned. -/
lemma failed_path (opts : BeginOptions) (fence : ℤ) (handled : Handled V) {runErr : GoError}
    (hh : ∀ result, handled ≠ .Wrote result)
    (h : Runs ((abandonQuietly (cfg.door (V := V)).store.lift op fence cfg.engine >>= fun _ =>
      pure (.ok (.Zero, some (.HandlerFailed runErr)))) st) t b) :
    Seen op cfg (⟨.Begin .Caller op opts, .ok (.Acquired fence)⟩ :: ⟨.Serve fence, handled⟩
      :: visible DoorCall.shown t) := by
  obtain ⟨r, t', st', ht, hret⟩ := runs_abandonQuietly h
  obtain ⟨rfl, -⟩ := runs_ret_iff.mp hret
  rw [ht]
  exact ⟨Path.handlerFailed opts fence handled r hh, by simp [PayloadsCapped]⟩

/-- A predicate that answered is followed by one settlement call: a completion when it kept the result,
else an abandonment. -/
lemma runs_settle {fence : ℤ} {result : StoredResult} {keep : Bool}
    (h : Runs (settle (cfg.door (V := V)).store.lift op fence result cfg.engine (.ok keep) st) t b) :
    ∃ last, visible DoorCall.shown t = [last]
      ∧ ((keep = false ∧ ∃ r, last = ⟨.Abandon .Bookkeeping op fence, r⟩)
        ∨ (keep = true ∧ ∃ now r, last = ⟨.Complete .Bookkeeping op fence (cfg.payload result) now, r⟩))
      ∧ ∃ stored, b.1 = .ok (.Executed result stored, none) := by
  cases keep with
  | false =>
      obtain ⟨r, t', st', ht, hret⟩ := runs_abandonQuietly h
      obtain ⟨rfl, rfl⟩ := runs_ret_iff.mp hret
      exact ⟨_, ht, Or.inl ⟨rfl, r, rfl⟩, false, rfl⟩
  | true =>
      obtain ⟨now, t, rfl, hclock⟩ := runs_call_iff.mp h
      obtain ⟨done, t, rfl, hdone⟩ := runs_call_iff.mp hclock
      rw [visible_cons_hidden rfl, visible_cons rfl]
      have hend : visible DoorCall.shown t = [] ∧ ∃ stored, b.1 = .ok (.Executed result stored, none) := by
        cases done with
        | ok status =>
            obtain ⟨rfl, rfl⟩ := runs_ret_iff.mp hdone
            exact ⟨rfl, _, rfl⟩
        | error err =>
            obtain ⟨t', u, st', ht, hret⟩ :=
              runs_hiddenIn_bind (hiddenIn_storeError cfg op err) hdone
            obtain ⟨rfl, rfl⟩ := runs_ret_iff.mp hret
            exact ⟨ht, false, rfl⟩
      refine ⟨⟨.Complete .Bookkeeping op fence (cfg.payload result) now, done⟩, ?_,
        Or.inr ⟨rfl, now, done, rfl⟩, hend.2⟩
      rw [hend.1]
      rfl

/-- That call settles the claim, and what it completes is capped. -/
lemma settlement_of_verdict {fence : ℤ} {result : StoredResult} {keep : Bool} {last : DoorEvent V}
    (h : (keep = false ∧ ∃ r, last = ⟨.Abandon .Bookkeeping op fence, r⟩)
      ∨ (keep = true ∧ ∃ now r, last = ⟨.Complete .Bookkeeping op fence (cfg.payload result) now, r⟩)) :
    IsSettlement op fence last
      ∧ ∀ ctx op' fence' payload now r, last = ⟨.Complete ctx op' fence' payload now, r⟩ →
        payload = cfg.payload result := by
  rcases h with ⟨-, r, rfl⟩ | ⟨-, now, r, rfl⟩
  · exact ⟨Or.inl ⟨r, rfl⟩, by simp⟩
  · refine ⟨Or.inr ⟨_, _, _, rfl⟩, ?_⟩
    rintro ctx op' fence' payload now r ⟨⟩
    rfl

/-- After a handler that wrote a response, the predicate decides. -/
lemma wrote_path (opts : BeginOptions) (fence : ℤ) (result : StoredResult)
    (h : Runs ((cfg.engine.keep result >>= fun kept =>
      settle (cfg.door (V := V)).store.lift op fence result cfg.engine kept) st) t b) :
    Seen op cfg (⟨.Begin .Caller op opts, .ok (.Acquired fence)⟩ :: ⟨.Serve fence, .Wrote result⟩
      :: visible DoorCall.shown t) := by
  have hcapped : ∀ (before : List (DoorEvent V)) {last : DoorEvent V},
      (∀ ctx op' fence' payload now r, last = ⟨.Complete ctx op' fence' payload now, r⟩ →
        payload = cfg.payload result) →
      (∀ ctx op' fence' payload now r, ⟨.Complete ctx op' fence' payload now, r⟩ ∉ before) →
      ⟨.Serve fence, .Wrote result⟩ ∈ before → PayloadsCapped cfg (before ++ [last]) := by
    intro before last hpayload hnone hserved ctx op' fence' payload now r hmem
    rcases List.mem_append.mp hmem with hmem | hmem
    · exact absurd hmem (hnone ctx op' fence' payload now r)
    · exact ⟨fence, result, List.mem_append_left _ hserved,
        hpayload ctx op' fence' payload now r (List.mem_singleton.mp hmem).symm⟩
  rcases runs_keep h with ⟨hset, kept, t', st', ht, hrest⟩ | ⟨hset, hrest⟩
  · rw [ht]
    cases kept with
    | error p =>
        obtain ⟨rfl, -⟩ := runs_ret_iff.mp hrest
        exact ⟨Path.predicatePanicked opts fence result p hset, by simp [PayloadsCapped]⟩
    | ok keep =>
        obtain ⟨last, hlast, hverdict, -⟩ := runs_settle hrest
        obtain ⟨hsettles, hpayload⟩ := settlement_of_verdict hverdict
        rw [hlast]
        refine ⟨Path.judged opts fence result keep hset last hsettles, ?_⟩
        exact hcapped [_, _, _] hpayload (by simp) (by simp)
  · obtain ⟨last, hlast, hverdict, -⟩ := runs_settle hrest
    obtain ⟨hsettles, hpayload⟩ := settlement_of_verdict hverdict
    rw [hlast]
    refine ⟨Path.byDefault opts fence result hset last hsettles, ?_⟩
    exact hcapped [_, _] hpayload (by simp) (by simp)

end AfterHandler

/-- The part of a run that the engine makes. -/
lemma execute_path {cfg : DoorConfig} {op : Operation} {st : DoorState V}
    {t : List (DoorEvent V)} {b : Except V (Result × Option GoError) × DoorState V}
    (h : Runs (Go.execute (StateT.lift (requestCalls (V := V)).ctxErr) cfg.door.store.lift op
      (runCallback requestCalls) cfg.door.policy.lift st) t b) :
    Seen op cfg (visible DoorCall.shown t) := by
  obtain ⟨ctxErr, t, rfl, halive⟩ := runs_call_iff.mp h
  rw [visible_cons_hidden rfl]
  cases ctxErr with
  | some err =>
      obtain ⟨rfl, -⟩ := runs_ret_iff.mp halive
      exact ⟨Path.dead, by simp [PayloadsCapped]⟩
  | none =>
      obtain ⟨now, t, rfl, hbegin⟩ := runs_call_iff.mp halive
      obtain ⟨begun, t, rfl, hrest⟩ := runs_call_iff.mp hbegin
      rw [visible_cons_hidden rfl, visible_cons rfl]
      have hooks := observersHidden (V := V) cfg
      cases begun with
      | error err =>
          obtain ⟨t', u, st', ht, hmoded⟩ :=
            runs_hiddenIn_bind (hiddenIn_storeError cfg op err) hrest
          rw [ht]
          split at hmoded
          · obtain ⟨rfl, -⟩ := runs_ret_iff.mp hmoded
            exact ⟨Path.notAcquired _ _ (by simp), by simp [PayloadsCapped]⟩
          · obtain ⟨handled, t'', st'', ht'', hran⟩ := runs_runCallback hmoded
            have hend : visible DoorCall.shown t'' = [] := by
              cases handled with
              | Panicked p => exact hiddenIn_pure _ _ _ _ hran
              | Hijacked => exact hiddenIn_pure _ _ _ _ hran
              | Wrote result => exact hiddenIn_pure _ _ _ _ hran
            rw [ht'', hend]
            exact ⟨Path.failOpen _ err handled, by simp [PayloadsCapped]⟩
      | ok outcome =>
          cases outcome with
          | Completed record =>
              obtain ⟨t', u, st', ht, hret⟩ :=
                runs_hiddenIn_bind (hiddenIn_safely cfg (hooks.onReplayed op record)) hrest
              obtain ⟨rfl, -⟩ := runs_ret_iff.mp hret
              rw [ht]
              exact ⟨Path.notAcquired _ _ (by simp), by simp [PayloadsCapped]⟩
          | InFlight leaseUntil =>
              obtain ⟨t', u, st', ht, hret⟩ :=
                runs_hiddenIn_bind (hiddenIn_safely cfg (hooks.onConflict op leaseUntil)) hrest
              obtain ⟨rfl, -⟩ := runs_ret_iff.mp hret
              rw [ht]
              exact ⟨Path.notAcquired _ _ (by simp), by simp [PayloadsCapped]⟩
          | Mismatch record =>
              obtain ⟨t', u, st', ht, hret⟩ :=
                runs_hiddenIn_bind (hiddenIn_safely cfg (hooks.onMismatch op record)) hrest
              obtain ⟨rfl, -⟩ := runs_ret_iff.mp hret
              rw [ht]
              exact ⟨Path.notAcquired _ _ (by simp), by simp [PayloadsCapped]⟩
          | Acquired fence =>
              obtain ⟨t', u, st', ht, hacquired⟩ :=
                runs_hiddenIn_bind (hiddenIn_safely cfg (hooks.onAcquired op)) hrest
              obtain ⟨handled, t'', st'', ht'', hran⟩ := runs_runCallback hacquired
              rw [ht, ht'']
              cases handled with
              | Panicked p => exact failed_path _ _ _ (by simp) hran
              | Hijacked => exact failed_path _ _ _ (by simp) hran
              | Wrote result => exact wrote_path _ _ _ hran

/-- What is looked at of a run is what the engine did. -/
lemma door_seen {cfg : DoorConfig} {op : Operation} {t : List (DoorEvent V)} {out : Except V Unit}
    (h : Runs (doorCalls cfg op) t out) : Seen op cfg (visible DoorCall.shown t) := by
  obtain ⟨t₁, t₂, ⟨left, st⟩, rfl, hengine, hafter⟩ := runs_bind_iff.mp h
  have hend : visible DoorCall.shown t₂ = [] := by
    cases left with
    | error p => exact hidden_ret _ _ _ hafter
    | ok res =>
        obtain ⟨degraded, panicValue⟩ := st
        cases panicValue with
        | some p => exact hidden_ret _ _ _ hafter
        | none => exact hidden_answer cfg res _ _ hafter
  rw [visible_append, hend, List.append_nil]
  exact execute_path hengine

/-- **Every run of the door is one of the paths.** -/
theorem door_path {cfg : DoorConfig} {op : Operation} {t : List (DoorEvent V)} {out : Except V Unit}
    (h : Runs (doorCalls cfg op) t out) : Path op cfg (visible DoorCall.shown t) :=
  (door_seen h).1

/-- **Every completion of the door is what the handler wrote, capped.** -/
theorem door_payload {cfg : DoorConfig} {op : Operation} {t : List (DoorEvent V)} {out : Except V Unit}
    (h : Runs (doorCalls cfg op) t out) : PayloadsCapped cfg t := by
  intro ctx op' fence payload now r hmem
  obtain ⟨fence', result, hserved, hpayload⟩ :=
    (door_seen h).2 ctx op' fence payload now r (mem_visible.mpr ⟨hmem, rfl⟩)
  exact ⟨fence', result, (mem_visible.mp hserved).1, hpayload⟩

/-! ## When a claim is settled -/

/-- The user's code: the wrapped handler, given its fence, and the predicate, when one is set. -/
structure UserCode (V : Type) where
  handler : ℤ → Handled V
  storeResult : StoredResult → Except V Bool

/-- In this run the handler and the predicate behaved as `u` says. -/
def UserCode.Answers (u : UserCode V) (t : List (DoorEvent V)) : Prop :=
  (∀ fence r, ⟨.Serve fence, r⟩ ∈ t → u.handler fence = r)
    ∧ ∀ result r, ⟨.StoreResult result, r⟩ ∈ t → u.storeResult result = r

/-- The handler wrote a response, and the predicate that is set panicked at it. -/
def UserCode.PredicateFails (u : UserCode V) (cfg : DoorConfig) (fence : ℤ) : Prop :=
  cfg.storeResult = true
    ∧ ∃ result p, u.handler fence = .Wrote result ∧ u.storeResult result = .error p

/-- `Begin` granted the claim `fence` in this run. -/
def Acquired (t : List (DoorEvent V)) (op : Operation) (fence : ℤ) : Prop :=
  ∃ ctx opts, ⟨.Begin ctx op opts, .ok (.Acquired fence)⟩ ∈ t

/-- `Complete` or `Abandon` was called with this fence. -/
def Settled (t : List (DoorEvent V)) (op : Operation) (fence : ℤ) : Prop :=
  (∃ ctx r, ⟨.Abandon ctx op fence, r⟩ ∈ t)
    ∨ ∃ ctx payload now r, ⟨.Complete ctx op fence payload now, r⟩ ∈ t

lemma settled_shown {t : List (DoorEvent V)} {op : Operation} {fence : ℤ} :
    Settled (visible DoorCall.shown t) op fence ↔ Settled t op fence := by
  simp [Settled, DoorCall.shown]

/-- A path that ends in a settlement call settles. -/
lemma settled_of_last {t : List (DoorEvent V)} {op : Operation} {fence : ℤ} {last : DoorEvent V}
    (h : IsSettlement op fence last) (hmem : last ∈ t) : Settled t op fence := by
  rcases h with ⟨r, rfl⟩ | ⟨payload, now, r, rfl⟩
  · exact Or.inl ⟨_, r, hmem⟩
  · exact Or.inr ⟨_, payload, now, r, hmem⟩

/-- **A granted claim is settled unless the predicate panicked.**  A panic or a hijack of the handler
does not keep the door from abandoning it. -/
lemma door_settles_iff {cfg : DoorConfig} {op : Operation} {t : List (DoorEvent V)}
    {out : Except V Unit} (h : Runs (doorCalls cfg op) t out) {u : UserCode V} (hu : u.Answers t)
    {fence : ℤ} (ha : Acquired t op fence) :
    Settled t op fence ↔ ¬ u.PredicateFails cfg fence := by
  have hpath := door_path h
  rw [← settled_shown]
  have hhandler : ∀ fence r, ⟨.Serve fence, r⟩ ∈ visible DoorCall.shown t → u.handler fence = r :=
    fun fence r hmem => hu.1 fence r (mem_visible.mp hmem).1
  have hpredicate : ∀ result r, ⟨.StoreResult result, r⟩ ∈ visible DoorCall.shown t →
      u.storeResult result = r := fun result r hmem => hu.2 result r (mem_visible.mp hmem).1
  obtain ⟨ctx, opts, ha⟩ := ha
  have ha' : ⟨.Begin ctx op opts, .ok (.Acquired fence)⟩ ∈ visible DoorCall.shown t :=
    mem_visible.mpr ⟨ha, rfl⟩
  generalize visible DoorCall.shown t = seen at hpath ha' hhandler hpredicate
  cases hpath with
  | dead => simp at ha'
  | notAcquired opts r hr =>
      simp only [List.mem_singleton, Sigma.mk.injEq, DoorCall.Begin.injEq] at ha'
      obtain ⟨⟨rfl, -, rfl⟩, heq⟩ := ha'
      exact absurd (eq_of_heq heq).symm (hr fence)
  | failOpen opts err handled => simp_all
  | handlerFailed opts fence handled r hh => simp_all [Settled, UserCode.PredicateFails]
  | predicatePanicked opts fence result p hset => simp_all [Settled, UserCode.PredicateFails]
  | judged opts fence' result keep hset last hlast =>
      obtain rfl : fence = fence' := by
        rcases hlast with ⟨r, rfl⟩ | ⟨payload, now, r, rfl⟩ <;> simp_all
      have hwrote := hhandler fence (.Wrote result) (by simp)
      have hkept := hpredicate result (.ok keep) (by simp)
      refine iff_of_true (settled_of_last hlast (by simp)) ?_
      rintro ⟨-, result', p, hwrote', hpanic⟩
      rw [hwrote] at hwrote'
      cases hwrote'
      rw [hkept] at hpanic
      cases hpanic
  | byDefault opts fence' result hset last hlast =>
      obtain rfl : fence = fence' := by
        rcases hlast with ⟨r, rfl⟩ | ⟨payload, now, r, rfl⟩ <;> simp_all
      refine iff_of_true (settled_of_last hlast (by simp)) ?_
      rintro ⟨hset', -⟩
      rw [hset] at hset'
      cases hset'

end Anyonce.Go
