import Anyonce.Go.DynamoDb
import Anyonce.Go.RowCodec
import Anyonce.Store.RoundTrip

/-!
# Native expiry

DynamoDB and Redis delete records by themselves: DynamoDB by the `ttl` attribute, in whole seconds of
the wall clock, Redis by the deadline `PEXPIRE` sets.  Both deadlines are meant to lie a grace after
the logical expiry.  A record that is deleted before its logical expiry is lost while `get` and `begin`
still count it as live.

**Redis** adds the grace in milliseconds, so its deadline is never early (`expiry_of_acquired`).

**DynamoDB** rounds the deadline down to the second, so it is early whenever no whole second lies
between the logical expiry and the end of the grace.  A grace of a second or more always suffices
(`wholeSecond_of_le`), so the default does.  In Go the time to live and the grace are added as `int64`
durations first; a sum that wraps puts the deadline far into the past.

* `native_expiry_in_time` — when the native deadline is not early, for each store.
-/

namespace Anyonce

open Ecma Interaction Relational

/-! ## DynamoDB -/

section Item

variable {T : Type}

/-- The native deadline of an item, taken as that many thousand milliseconds, is not earlier than its
logical expiry. -/
def Item.ExpiresInTime (item : Item T) : Prop :=
  ∃ expiresAt seconds, item .ExpiresAt = some (.N expiresAt) ∧ item .Ttl = some (.N seconds)
    ∧ expiresAt ≤ 1000 * seconds

lemma Item.expiresInTime_iff {item : Item T} {expiresAt seconds : ℤ}
    (hexp : item .ExpiresAt = some (.N expiresAt)) (httl : item .Ttl = some (.N seconds)) :
    item.ExpiresInTime ↔ expiresAt ≤ 1000 * seconds := by
  constructor
  · rintro ⟨e, s, he, hs, hle⟩
    rw [hexp] at he
    rw [httl] at hs
    cases he
    cases hs
    exact hle
  · intro hle
    exact ⟨expiresAt, seconds, hexp, httl, hle⟩

/-- An update that was taken is what the table made of it. -/
lemma apply_of_updateItem [DecidableEq T] {items : Items T} {pk : T} {cond : Condition T}
    {u : Update T} {item : Item T} (h : (updateItem items pk cond u).1 = .ok item) :
    u.apply pk (items.get pk) = some item := by
  rw [updateItem] at h
  split_ifs at h
  cases happly : u.apply pk (items.get pk) with
  | none =>
      rw [happly] at h
      cases h
  | some item' =>
      rw [happly] at h
      cases h
      rfl

end Item

/-- Rounding down to the second loses nothing exactly when the grace covers what is cut off. -/
lemma wholeSecond_iff (now ttl grace : ℤ) :
    now + ttl ≤ 1000 * ((now + ttl + grace) / 1000) ↔ (now + ttl + grace) % 1000 ≤ grace := by
  omega

namespace DynamoDbStore

variable {X : Type}

lemma beginUpdate_deadlines {fp : JsString} {now lease exp ttl : ℤ} {pk : JsString}
    {old : Option (Item JsString)} {item : Item JsString}
    (h : (beginUpdate fp now lease exp ttl).apply pk old = some item) :
    item .ExpiresAt = some (.N exp) ∧ item .Ttl = some (.N ttl) := by
  rw [Update.apply, Option.map_eq_some_iff] at h
  obtain ⟨before, hassign, rfl⟩ := h
  simp only [beginUpdate, Update.assign, Operand.eval_value, Option.bind_some,
    Option.bind_eq_some_iff, Option.some.injEq] at hassign
  obtain ⟨fence, -, rfl⟩ := hassign
  exact ⟨rfl, rfl⟩

/-- A write that failed never grants a claim. -/
lemma afterBegin_error_ne_acquired (op : Operation) (opts : BeginOptions) (err : SdkError X)
    (fence : ℤ) : afterBegin op opts (.error err) ≠ some (.ok (.Acquired fence)) := by
  rcases err with ((_ | item) | _) | err
  · simp [afterBegin]
  · exact classify_ne_acquired op opts item fence
  · simp [afterBegin]
  · simp [afterBegin]

/-- A `begin` that acquires ends with the write that was granted. -/
lemma runs_begin_acquired {store : DynamoDbStore} {op : Operation} {opts : BeginOptions}
    {t : List (Event DynamoCommand (DynamoReply X))} {fence : ℤ}
    (h : Runs (store.begin op opts) t (.ok (.Acquired fence))) :
    ∃ t' wall item, t = t' ++ [⟨.DateNow, wall⟩,
      ⟨beginWrite op opts ((wall + opts.ttlMs + store.grace) / 1000), .ok item⟩] := by
  obtain ⟨ts, t', rfl, -, hend⟩ := runs_retry h
  rcases hend with ⟨-, hgiveUp, -⟩ | ⟨hrun, -⟩
  · cases hgiveUp
  · obtain ⟨wall, t₁, rfl, hwrite⟩ := runs_call_iff.mp hrun
    obtain ⟨reply, t₂, rfl, hreturn⟩ := runs_call_iff.mp hwrite
    obtain ⟨rfl, hafter⟩ := runs_ret_iff.mp hreturn
    cases reply with
    | ok item => exact ⟨ts.flatten, wall, item, rfl⟩
    | error err => exact absurd hafter (afterBegin_error_ne_acquired op opts err fence)

/-- A first attempt whose write is granted. -/
lemma runs_begin_granted (store : DynamoDbStore) (op : Operation) (opts : BeginOptions)
    {item : Item JsString} {fence : ℤ} (hfence : item.number .Fence = some fence) :
    Runs (store.begin (X := X) op opts) [⟨.DateNow, opts.now⟩,
      ⟨beginWrite op opts ((opts.now + opts.ttlMs + store.grace) / 1000), .ok item⟩]
      (.ok (.Acquired fence)) := by
  refine Steps.call _ (Steps.call _ ?_)
  show Steps (Prog.bind (Prog.Ret (afterBegin op opts (.ok item))) _) _ _
  rw [afterBegin, hfence]
  exact Steps.refl _

/-- The only write of such a run is the granted one. -/
lemma served_granted {wall : ℤ} {pk : JsString} {cond : Condition JsString} {u : Update JsString}
    {item : Item JsString} (hwrite : (updateItem Table.empty pk cond u).1 = .ok item) :
    ∀ pk' cond' u' item', (⟨.UpdateItem pk' cond' u', .ok item'⟩ : Event DynamoCommand (DynamoReply X))
        ∈ [⟨.DateNow, wall⟩, ⟨.UpdateItem pk cond u, .ok item⟩] →
      ∃ items, (updateItem items pk' cond' u').1 = .ok item' := by
  intro pk' cond' u' item' hmem
  have heq : (⟨.UpdateItem pk' cond' u', .ok item'⟩ : Event DynamoCommand (DynamoReply X))
      = ⟨.UpdateItem pk cond u, .ok item⟩ := by simpa using hmem
  cases heq
  exact ⟨Table.empty, hwrite⟩

end DynamoDbStore

namespace Go

/-- As `wholeSecond_iff`, for nanoseconds: what `UnixMilli` cuts off the logical expiry counts for the
grace.  A sum of the two durations that wraps puts the deadline before the clock. -/
lemma wholeSecond_iff (now : ℤ) {ttl grace : ℤ} (httl : 0 ≤ ttl ∧ ttl ≤ maxInt)
    (hgrace : 0 ≤ grace ∧ grace ≤ maxInt) :
    ms (now + ttl) ≤ 1000 * ((now + wrapInt (ttl + grace)) / 1000000000)
      ↔ ttl + grace ≤ maxInt
        ∧ (now + ttl + grace) % 1000000000 ≤ grace + (now + ttl) % 1000000 := by
  rw [ms]
  by_cases hover : ttl + grace ≤ maxInt
  · rw [wrapInt_of_le (by omega) hover]
    omega
  · have hle : grace ≤ 2 ^ 63 - 1 := hgrace.2
    rw [wrapInt_add_of_lt httl.2 hgrace.2 (not_le.mp hover)]
    omega

namespace DynamoDbStore

lemma new_grace_range {grace : ℤ} (h : 0 ≤ grace ∧ grace ≤ maxInt) :
    0 ≤ (new grace).grace ∧ (new grace).grace ≤ maxInt := by
  rw [new]
  split_ifs
  · decide
  · exact h

variable {json : MetaJson}

lemma beginUpdate_deadlines {fp : GoString} {now lease exp ttl : ℤ} {pk : GoString}
    {old : Option (Item GoString)} {item : Item GoString}
    (h : (beginUpdate fp now lease exp ttl).apply pk old = some item) :
    item .ExpiresAt = some (.N exp) ∧ item .Ttl = some (.N ttl) := by
  rw [Update.apply, Option.map_eq_some_iff] at h
  obtain ⟨before, hassign, rfl⟩ := h
  simp only [beginUpdate, Update.assign, Operand.eval_value, Option.bind_some,
    Option.bind_eq_some_iff, Option.some.injEq] at hassign
  obtain ⟨fence, -, rfl⟩ := hassign
  exact ⟨rfl, rfl⟩

lemma classify_ne_acquired (op : Operation) (opts : BeginOptions) (item : Item GoString) (fence : ℤ) :
    classify json op opts item ≠ some (.ok (.Acquired fence)) := by
  unfold classify
  cases itemToRow item with
  | none => simp
  | some row =>
      dsimp only
      split_ifs <;> simp

lemma afterBegin_error_ne_acquired (op : Operation) (opts : BeginOptions) (err : ClientError)
    (fence : ℤ) : afterBegin json op opts (.error err) ≠ some (.ok (.Acquired fence)) := by
  rcases err with ((_ | item) | _) | err
  · simp [afterBegin]
  · exact classify_ne_acquired op opts item fence
  · simp [afterBegin]
  · simp [afterBegin]

/-- A `Begin` that acquires ends with the write that was granted. -/
lemma runs_begin_acquired {s : DynamoDbStore} {op : Operation} {opts : BeginOptions}
    {t : List (Event DynamoCommand DynamoReply)} {fence : ℤ}
    (h : Runs (s.begin json op opts) t (.ok (.Acquired fence))) :
    ∃ t' wall item, t = t' ++ [⟨.TimeNow, wall⟩,
      ⟨beginWrite op opts ((wall + wrapInt (opts.ttl + s.grace)) / 1000000000), .ok item⟩] := by
  obtain ⟨ts, t', rfl, -, hend⟩ := runs_retry h
  rcases hend with ⟨-, hgiveUp, -⟩ | ⟨hrun, -⟩
  · cases hgiveUp
  · obtain ⟨wall, t₁, rfl, hwrite⟩ := runs_call_iff.mp hrun
    obtain ⟨reply, t₂, rfl, hreturn⟩ := runs_call_iff.mp hwrite
    obtain ⟨rfl, hafter⟩ := runs_ret_iff.mp hreturn
    cases reply with
    | ok item => exact ⟨ts.flatten, wall, item, rfl⟩
    | error err => exact absurd hafter (afterBegin_error_ne_acquired op opts err fence)

variable (json) in
/-- A first attempt whose write is granted. -/
lemma runs_begin_granted (s : DynamoDbStore) (op : Operation) (opts : BeginOptions)
    (item : Item GoString) :
    Runs (s.begin json op opts) [⟨.TimeNow, opts.now⟩,
      ⟨beginWrite op opts ((opts.now + wrapInt (opts.ttl + s.grace)) / 1000000000), .ok item⟩]
      (.ok (.Acquired (readNum item .Fence))) :=
  Steps.call _ (Steps.call _ (Steps.refl _))

/-- The only write of such a run is the granted one. -/
lemma served_granted {wall : ℤ} {pk : GoString} {cond : Condition GoString} {u : Update GoString}
    {item : Item GoString} (hwrite : (updateItem Table.empty pk cond u).1 = .ok item) :
    ∀ pk' cond' u' item', (⟨.UpdateItem pk' cond' u', .ok item'⟩ : Event DynamoCommand DynamoReply)
        ∈ [⟨.TimeNow, wall⟩, ⟨.UpdateItem pk cond u, .ok item⟩] →
      ∃ items, (updateItem items pk' cond' u').1 = .ok item' := by
  intro pk' cond' u' item' hmem
  have heq : (⟨.UpdateItem pk' cond' u', .ok item'⟩ : Event DynamoCommand DynamoReply)
      = ⟨.UpdateItem pk cond u, .ok item⟩ := by simpa using hmem
  cases heq
  exact ⟨Table.empty, hwrite⟩

end DynamoDbStore

end Go

/-! ## Redis -/

/-- A keyspace with the deadlines of its keys, in milliseconds of the server's clock. -/
structure Expiring where
  keys : Keyspace
  deadlines : JsString → Option ℤ

/-- The deadline of a key after a command: `PEXPIRE` sets it, and a key that is gone has none. -/
def deadlineAfter (clock : ℤ) (s : Expiring) (after : Keyspace) : RedisCommand → JsString → Option ℤ
  | .Pexpire key milliseconds, k =>
      if k = key then (after.get k).map fun _ => clock + milliseconds else s.deadlines k
  | .Hdel key _, k => if k = key then (after.get k).bind fun _ => s.deadlines k else s.deadlines k
  | .Del key, k => if k = key then none else s.deadlines k
  | _, k => s.deadlines k

/-- One command at a reading of the server's clock. -/
def expiringMachine (clock : ℤ) (c : RedisCommand) (s : Expiring) : RedisReply c × Expiring :=
  ((redisMachine c s.keys).1,
    ⟨(redisMachine c s.keys).2, deadlineAfter clock s (redisMachine c s.keys).2 c⟩)

/-- Run a script to its end at one reading of the server's clock. -/
def Lua.runAt {α : Type} (clock : ℤ) (script : Lua α) (s : Expiring) : Except LuaError α × Expiring :=
  exec (expiringMachine clock) (ExceptT.run script) s

/-- What a script returns and leaves in the keyspace does not depend on the deadlines. -/
lemma exec_expiringMachine {α : Type} (clock : ℤ) (p : Prog RedisCommand RedisReply α) (s : Expiring) :
    (exec (expiringMachine clock) p s).1 = (exec redisMachine p s.keys).1
      ∧ (exec (expiringMachine clock) p s).2.keys = (exec redisMachine p s.keys).2 := by
  induction p generalizing s with
  | Ret a => exact ⟨rfl, rfl⟩
  | Call c k ih => exact ih (redisMachine c s.keys).1 (expiringMachine clock c s).2

/-- A key with a logical expiry is deleted by the server at its deadline, not earlier than that. -/
def Expiring.InTime (s : Expiring) (k : JsString) : Prop :=
  ∀ fields, s.keys.get k = some fields → ∃ expiresAt deadline,
    fields.get (js "expires_at") = some (intText expiresAt) ∧ s.deadlines k = some deadline
      ∧ expiresAt ≤ deadline

/-- The claim sets the deadline to the end of the grace; without ttl and grace it deletes the key. -/
lemma acquireLua_inTime (s : Expiring) (k : JsString) (op : Operation) (opts : BeginOptions)
    {grace : ℤ} (hgrace : 0 ≤ grace) (fence : ℤ) :
    ((acquireLua k op.fingerprint opts.now opts.leaseMs opts.ttlMs grace fence).runAt opts.now
      s).2.InTime k := by
  intro fields hfields
  have hdeadline : ((acquireLua k op.fingerprint opts.now opts.leaseMs opts.ttlMs grace fence).runAt
      opts.now s).2.deadlines k = some (opts.now + (opts.ttlMs + grace)) := by
    show (if k = k then (OrderedMap.get _ k).map _ else _) = _
    rw [if_pos rfl]
    exact (congrArg (Option.map fun _ => opts.now + (opts.ttlMs + grace)) hfields).trans rfl
  rw [Lua.runAt, (exec_expiringMachine opts.now _ s).2] at hfields
  by_cases hpos : 0 < opts.ttlMs + grace
  · obtain ⟨keys, hash, hrun, hwritten, hrow⟩ := run_acquireLua s.keys k op opts hpos fence
    have hget : keys.get k = some hash := (hwritten k).trans (if_pos rfl)
    rw [show exec redisMachine _ s.keys = _ from hrun, hget] at hfields
    cases hfields
    exact ⟨opts.now + opts.ttlMs, _, hrow.expiresAt, hdeadline, by omega⟩
  · have hdeleted : (exec redisMachine (ExceptT.run
        (acquireLua k op.fingerprint opts.now opts.leaseMs opts.ttlMs grace fence)) s.keys).2.get k
        = none := by
      show OrderedMap.get (if opts.ttlMs + grace ≤ 0 then OrderedMap.delete _ k else _) k = none
      rw [if_pos (not_lt.mp hpos), OrderedMap.get_delete, if_pos rfl]
    rw [hdeleted] at hfields
    cases hfields

/-- The script says that it claimed the key. -/
def LuaReply.IsAcquired : LuaReply → Prop
  | .Items (tag :: _) => tag.text = js "acquired"
  | _ => False

/-- **`BEGIN_LUA`** at the caller's clock leaves a claimed key with a deadline that is not early. -/
lemma expiry_of_acquired (s : Expiring) (k : JsString) (op : Operation) (opts : BeginOptions)
    {grace : ℤ} (hgrace : 0 ≤ grace) {reply : LuaReply}
    (h : ((beginCall k op opts grace).runAt opts.now s).1 = .ok reply) (hacquired : reply.IsAcquired) :
    ((beginCall k op opts grace).runAt opts.now s).2.InTime k := by
  rcases exec_beginCall_any (m := expiringMachine opts.now) (fun _ _ _ => rfl) (fun _ _ => rfl) s k
    op opts grace with ⟨fence, hrun⟩ | ⟨tag, rest, htag, hrun⟩ | ⟨err, hrun⟩
  · rw [Lua.runAt, hrun]
    exact acquireLua_inTime s k op opts hgrace fence
  · rw [Lua.runAt, hrun] at h
    cases h
    exact absurd hacquired htag
  · rw [Lua.runAt, hrun] at h
    cases h

/-- Only such a reply becomes a granted claim. -/
lemma isAcquired_of_beginOutcome {op : Operation} {reply : LuaReply} {fence : ℤ}
    (h : beginOutcome op reply = some (.Acquired fence)) : reply.IsAcquired := by
  rcases reply with text | (_ | ⟨tag, rest⟩)
  · cases h
  · cases h
  · by_contra htag
    refine RedisStore.decoded_ne_acquired op htag rest fence ?_
    rw [h]
    rfl

namespace Go

/-- `Duration.Milliseconds`. -/
def milliseconds (d : ℤ) : ℤ := d.tdiv 1000000

/-- `Store` of `go/store/redis/redis.go`, without the client, the prefix and the script texts, which
are those of the TypeScript store. -/
structure RedisStore where
  grace : ℤ

/-- `New`: a grace of zero is the default. -/
def RedisStore.new (nativeTTLGrace : ℤ) : RedisStore :=
  ⟨if nativeTTLGrace = 0 then defaultNativeTTLGrace else nativeTTLGrace⟩

/-- The numbers `Begin` passes to the script. -/
def BeginOptions.scriptTerms (opts : BeginOptions) : Anyonce.BeginOptions where
  leaseMs := milliseconds opts.lease
  ttlMs := milliseconds opts.ttl
  now := ms opts.now

lemma milliseconds_nonneg {d : ℤ} (h : 0 ≤ d) : 0 ≤ milliseconds d := Int.tdiv_nonneg h (by decide)

lemma RedisStore.new_grace_nonneg {grace : ℤ} (h : 0 ≤ grace) : 0 ≤ (RedisStore.new grace).grace := by
  rw [RedisStore.new]
  split_ifs
  · decide
  · exact h

end Go

/-! ## The stores -/

/-- **Native expiry and logical expiry.**  A `begin` that acquires while the wall clock shows the
caller's time leaves a native deadline that is not earlier than the logical expiry:

* on DynamoDB, exactly when the part of `now + ttl + grace` below the second is covered by the grace,
  in Go together with what is below the millisecond of `now + ttl`, and there only if the sum of the two
  durations does not wrap;
* on Redis, always, for a grace that is not negative. -/
theorem native_expiry_in_time (X : Type) (json : Go.MetaJson) :
    (∀ (store : DynamoDbStore) (op : Operation) (opts : BeginOptions)
        (t : List (Event DynamoCommand (DynamoReply X))) (fence : ℤ),
        Runs (store.begin op opts) t (.ok (.Acquired fence)) →
        (∀ wall, ⟨.DateNow, wall⟩ ∈ t → wall = opts.now) →
        (∀ pk cond u item, ⟨.UpdateItem pk cond u, .ok item⟩ ∈ t →
          ∃ items, (updateItem items pk cond u).1 = .ok item) →
        ∃ t' pk cond u item, t = t' ++ [⟨.UpdateItem pk cond u, .ok item⟩]
          ∧ (item.ExpiresInTime
            ↔ (opts.now + opts.ttlMs + store.grace) % 1000 ≤ store.grace))
      ∧ (∀ (grace : ℤ) (op : Go.Operation) (opts : Go.BeginOptions)
          (t : List (Event Go.DynamoCommand Go.DynamoReply)) (fence : ℤ),
          0 ≤ grace ∧ grace ≤ Go.maxInt → 0 < opts.ttl ∧ opts.ttl ≤ Go.maxInt →
          Runs ((Go.DynamoDbStore.new grace).begin json op opts) t (.ok (.Acquired fence)) →
          (∀ wall, ⟨.TimeNow, wall⟩ ∈ t → wall = opts.now) →
          (∀ pk cond u item, ⟨.UpdateItem pk cond u, .ok item⟩ ∈ t →
            ∃ items, (updateItem items pk cond u).1 = .ok item) →
          ∃ t' pk cond u item, t = t' ++ [⟨.UpdateItem pk cond u, .ok item⟩]
            ∧ (item.ExpiresInTime
              ↔ opts.ttl + (Go.DynamoDbStore.new grace).grace ≤ Go.maxInt
                ∧ (opts.now + opts.ttl + (Go.DynamoDbStore.new grace).grace) % 1000000000
                  ≤ (Go.DynamoDbStore.new grace).grace + (opts.now + opts.ttl) % 1000000))
      ∧ (∀ (store : RedisStore) (s : Expiring) (op : Operation) (opts : BeginOptions)
          (reply : LuaReply) (fence : ℤ), 0 ≤ store.grace →
          ((beginCall (store.keyFor op) op opts store.grace).runAt opts.now s).1 = .ok reply →
          beginOutcome op reply = some (.Acquired fence) →
          ((beginCall (store.keyFor op) op opts store.grace).runAt opts.now s).2.InTime
            (store.keyFor op))
      ∧ ∀ (grace : ℤ) (s : Expiring) (k : JsString) (op : Operation) (opts : Go.BeginOptions)
          (reply : LuaReply), 0 ≤ grace →
          ((beginCall k op opts.scriptTerms (Go.milliseconds (Go.RedisStore.new grace).grace)).runAt
            opts.scriptTerms.now s).1 = .ok reply → reply.IsAcquired →
          ((beginCall k op opts.scriptTerms (Go.milliseconds (Go.RedisStore.new grace).grace)).runAt
            opts.scriptTerms.now s).2.InTime k := by
  refine ⟨?_, ?_, ?_, ?_⟩
  · intro store op opts t fence hrun hclock hserved
    obtain ⟨t', wall, item, rfl⟩ := DynamoDbStore.runs_begin_acquired hrun
    obtain rfl : wall = opts.now := hclock wall (by simp)
    obtain ⟨items, hwrite⟩ := hserved _ _ _ item (List.mem_append_right _
      (List.mem_cons_of_mem _ (List.mem_singleton_self _)))
    obtain ⟨hexp, httl⟩ := DynamoDbStore.beginUpdate_deadlines (apply_of_updateItem hwrite)
    refine ⟨t' ++ [⟨.DateNow, opts.now⟩], _, _, _, item, by rw [List.append_assoc]; rfl, ?_⟩
    rw [Item.expiresInTime_iff hexp httl, wholeSecond_iff]
  · intro grace op opts t fence hgrace httl hrun hclock hserved
    obtain ⟨t', wall, item, rfl⟩ := Go.DynamoDbStore.runs_begin_acquired hrun
    obtain rfl : wall = opts.now := hclock wall (by simp)
    obtain ⟨items, hwrite⟩ := hserved _ _ _ item (List.mem_append_right _
      (List.mem_cons_of_mem _ (List.mem_singleton_self _)))
    obtain ⟨hexp, httl'⟩ := Go.DynamoDbStore.beginUpdate_deadlines (apply_of_updateItem hwrite)
    refine ⟨t' ++ [⟨.TimeNow, opts.now⟩], _, _, _, item, by rw [List.append_assoc]; rfl, ?_⟩
    rw [Item.expiresInTime_iff hexp httl', Go.wholeSecond_iff opts.now ⟨httl.1.le, httl.2⟩
      (Go.DynamoDbStore.new_grace_range hgrace)]
  · intro store s op opts reply fence hgrace hrun hacquired
    exact expiry_of_acquired s _ op opts hgrace hrun (isAcquired_of_beginOutcome hacquired)
  · intro grace s k op opts reply hgrace hrun hacquired
    exact expiry_of_acquired s k op opts.scriptTerms
      (Go.milliseconds_nonneg (Go.RedisStore.new_grace_nonneg hgrace)) hrun hacquired

/-- A first claim with the default grace, half a second past the full second: no deadline is early. -/
theorem native_expiry_in_time_default :
    (∃ t item, Runs (DynamoDbStore.begin (X := Unit) ⟨60000⟩ ⟨js "s", js "k", js "f"⟩
          ⟨60000, 86400000, 1700000000500⟩) t (.ok (.Acquired 1))
        ∧ (∃ pk cond u, t.getLast? = some ⟨.UpdateItem pk cond u, .ok item⟩) ∧ item.ExpiresInTime)
      ∧ (∃ t item, Runs (Go.DynamoDbStore.begin Go.metaJson (Go.DynamoDbStore.new 0)
            ⟨Go.ascii "s", Go.ascii "k", Go.ascii "f"⟩
            ⟨60000000000, 86400000000000, 1700000000500000000⟩) t (.ok (.Acquired 1))
          ∧ (∃ pk cond u, t.getLast? = some ⟨.UpdateItem pk cond u, .ok item⟩) ∧ item.ExpiresInTime)
      ∧ ((beginCall (js "s\x1fk") ⟨js "s", js "k", js "f"⟩ ⟨60000, 86400000, 1700000000500⟩ 60000).runAt
          1700000000500 ⟨Table.empty, fun _ => none⟩).2.InTime (js "s\x1fk")
      ∧ ((beginCall (js "s\x1fk") ⟨js "s", js "k", js "f"⟩
          (Go.BeginOptions.scriptTerms ⟨60000000000, 86400000000000, 1700000000500000000⟩)
          (Go.milliseconds (Go.RedisStore.new 0).grace)).runAt 1700000000500
            ⟨Table.empty, fun _ => none⟩).2.InTime (js "s\x1fk") := by
  obtain ⟨hdynamo, hdynamoGo, hredis, hredisGo⟩ := native_expiry_in_time Unit Go.metaJson
  refine ⟨?_, ?_, ?_, ?_⟩
  · obtain ⟨item, hwrite, hfence⟩ : ∃ item : Item JsString,
        (updateItem Table.empty (itemKey ⟨js "s", js "k", js "f"⟩) (beginCondition (js "f") 1700000000500)
          (beginUpdate (js "f") 1700000000500 1700000060500 1700086400500 1700086460)).1 = .ok item
        ∧ item.number .Fence = some 1 := ⟨_, rfl, rfl⟩
    have hrun := DynamoDbStore.runs_begin_granted (X := Unit) ⟨60000⟩ ⟨js "s", js "k", js "f"⟩
      ⟨60000, 86400000, 1700000000500⟩ hfence
    obtain ⟨t', pk, cond, u, item', hlast, hiff⟩ := hdynamo _ _ _ _ _ hrun
      (by simp [DynamoDbStore.beginWrite]) (DynamoDbStore.served_granted hwrite)
    refine ⟨_, item', hrun, ⟨pk, cond, u, ?_⟩, hiff.mpr (by decide)⟩
    rw [hlast, List.getLast?_concat]
  · obtain ⟨item, hwrite, hfence⟩ : ∃ item : Item Go.GoString,
        (updateItem Table.empty (Go.itemKey ⟨Go.ascii "s", Go.ascii "k", Go.ascii "f"⟩)
          (Go.beginCondition (Go.ascii "f") 1700000000500)
          (Go.beginUpdate (Go.ascii "f") 1700000000500 1700000060500 1700086400500 1700086460)).1
            = .ok item
        ∧ Go.readNum item .Fence = 1 := ⟨_, rfl, rfl⟩
    have hrun := Go.DynamoDbStore.runs_begin_granted Go.metaJson (Go.DynamoDbStore.new 0)
      ⟨Go.ascii "s", Go.ascii "k", Go.ascii "f"⟩ ⟨60000000000, 86400000000000, 1700000000500000000⟩ item
    rw [hfence] at hrun
    obtain ⟨t', pk, cond, u, item', hlast, hiff⟩ := hdynamoGo 0 _ _ _ _ (by decide) (by decide) hrun
      (by simp [Go.DynamoDbStore.beginWrite]) (Go.DynamoDbStore.served_granted hwrite)
    refine ⟨_, item', hrun, ⟨pk, cond, u, ?_⟩, hiff.mpr (by decide)⟩
    rw [hlast, List.getLast?_concat]
  · refine hredis ⟨js "", 60000⟩ ⟨Table.empty, fun _ => none⟩ ⟨js "s", js "k", js "f"⟩
      ⟨60000, 86400000, 1700000000500⟩ (.Items [.Str (js "acquired"), .Num 1]) 1 (by decide) ?_ rfl
    decide +kernel
  · refine hredisGo 0 ⟨Table.empty, fun _ => none⟩ (js "s\x1fk") ⟨js "s", js "k", js "f"⟩
      ⟨60000000000, 86400000000000, 1700000000500000000⟩ (.Items [.Str (js "acquired"), .Num 1])
      (by decide) ?_ rfl
    decide +kernel

/-- Half a second past the full second, a claim of a day without grace: its item may be deleted half a
second before it expires.  In Go a grace of zero is the default, and one millisecond does the same. -/
theorem native_expiry_early :
    ((exec (dynamoMachine 1700000000500) (DynamoDbStore.begin ⟨0⟩ ⟨js "s", js "k", js "f"⟩
          ⟨60000, 86400000, 1700000000500⟩) Table.empty).1 = .ok (.Acquired 1)
        ∧ ∃ item, (exec (dynamoMachine 1700000000500) (DynamoDbStore.begin ⟨0⟩ ⟨js "s", js "k", js "f"⟩
            ⟨60000, 86400000, 1700000000500⟩) Table.empty).2.get (itemKey ⟨js "s", js "k", js "f"⟩)
              = some item
          ∧ item .ExpiresAt = some (.N 1700086400500) ∧ item .Ttl = some (.N 1700086400)
          ∧ ¬ item.ExpiresInTime)
      ∧ ∀ json : Go.MetaJson,
        (exec (Go.dynamoMachine 1700000000500000000) (Go.DynamoDbStore.begin json
            (Go.DynamoDbStore.new 1000000) ⟨Go.ascii "s", Go.ascii "k", Go.ascii "f"⟩
            ⟨60000000000, 86400000000000, 1700000000500000000⟩) Table.empty).1 = .ok (.Acquired 1)
        ∧ ∃ item, (exec (Go.dynamoMachine 1700000000500000000) (Go.DynamoDbStore.begin json
              (Go.DynamoDbStore.new 1000000) ⟨Go.ascii "s", Go.ascii "k", Go.ascii "f"⟩
              ⟨60000000000, 86400000000000, 1700000000500000000⟩) Table.empty).2.get
              (Go.itemKey ⟨Go.ascii "s", Go.ascii "k", Go.ascii "f"⟩) = some item
          ∧ item .ExpiresAt = some (.N 1700086400500) ∧ item .Ttl = some (.N 1700086400)
          ∧ ¬ item.ExpiresInTime := by
  have hearly : ¬ (1700086400500 : ℤ) ≤ 1000 * 1700086400 := by decide
  refine ⟨⟨rfl, _, rfl, rfl, rfl, ?_⟩, fun json => ⟨rfl, _, rfl, rfl, rfl, ?_⟩⟩
  · exact fun h => hearly ((Item.expiresInTime_iff rfl rfl).mp h)
  · exact fun h => hearly ((Item.expiresInTime_iff rfl rfl).mp h)

end Anyonce
