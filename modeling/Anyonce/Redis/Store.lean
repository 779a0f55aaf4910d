import Anyonce.Core.Base64
import Anyonce.Redis.Server
import Anyonce.Store.Codec

/-!
# The Redis store

`RedisStore` of `packages/stores/src/redis.ts`: one hash per record, under `prefix scope ␟ key`, and one
Lua script per state transition.  The scripts are translated line by line; numbers cross between the
languages as decimal text, a body as base64, and `-` stands for no body.

A script is sent by its digest first and by its text when the server does not have it (`NOSCRIPT`).
A digest stands for its script here.  The adapters hand strings over as they are.

* `beginLua`, `completeLua`, `abandonLua` — the scripts.
* `hashToRow`, `pairsToFields` — the reply decoder.
* `RedisStore.apply` — the calls of the store.
-/

namespace Anyonce

open Ecma Interaction Relational

/-! ## The scripts -/

/-- The fields `HSET` writes for a new claim. -/
def claimPairs (fp : JsString) (now lease ttl fence : ℤ) : List (JsString × JsString) :=
  [(js "fingerprint", fp), (js "state", js "in_flight"), (js "fence", intText fence),
    (js "lease_until", intText (now + lease)), (js "created_at", intText now),
    (js "expires_at", intText (now + ttl)), (js "result_omitted", intText 0)]

/-- The last lines of `BEGIN_LUA`: the claim itself, reached when nothing was returned before. -/
def acquireLua (k fp : JsString) (now lease ttl grace fence : ℤ) : Lua LuaReply := do
  Lua.hset k (claimPairs fp now lease ttl fence)
  Lua.hdel k [js "result_meta", js "result_body"]
  Lua.pexpire k (ttl + grace)
  return .Items [.Str (js "acquired"), .Num fence]

/-- `BEGIN_LUA`.  `KEYS[1]` hash; `ARGV` fingerprint, now, leaseMs, ttlMs, graceMs. -/
def beginLua (k fp nowArg leaseArg ttlArg graceArg : JsString) : Lua LuaReply := do
  let now ← Lua.number (Lua.tonumber nowArg)
  let lease ← Lua.number (Lua.tonumber leaseArg)
  let ttl ← Lua.number (Lua.tonumber ttlArg)
  let grace ← Lua.number (Lua.tonumber graceArg)
  let row ← Lua.hmget k
    [js "fingerprint", js "state", js "fence", js "lease_until", js "expires_at"]
  match row with
  | [some fingerprint, state, fence, leaseUntil, expiresAt] => do
      let expires ← Lua.number (Lua.tonumber expiresAt)
      let takeOver : Lua LuaReply := do
        let fence ← Lua.number (Lua.tonumber fence)
        acquireLua k fp now lease ttl grace (fence + 1)
      if expires > now then
        if fingerprint ≠ fp then
          return .Items (.Str (js "mismatch") :: (← Lua.hgetall k))
        else if state = some (js "completed") then
          return .Items (.Str (js "completed") :: (← Lua.hgetall k))
        else do
          let leaseEnd ← Lua.number (Lua.tonumber leaseUntil)
          if leaseEnd > now then return .Items [.Str (js "in_flight"), .Str (leaseUntil.getD [])]
          else takeOver
      else takeOver
  | _ => acquireLua k fp now lease ttl grace 1

/-- `COMPLETE_LUA`.  `ARGV` fence, now, meta, body (`-` for none), omitted. -/
def completeLua (k fenceArg nowArg metaArg bodyArg omittedArg : JsString) : Lua LuaReply := do
  let fence := Lua.tonumber fenceArg
  let now ← Lua.number (Lua.tonumber nowArg)
  let row ← Lua.hmget k [js "fence", js "state", js "expires_at"]
  match row with
  | [some rowFence, state, expiresAt] => do
      let expires ← Lua.number (Lua.tonumber expiresAt)
      if expires ≤ now then return .Text (js "not_found")
      else if Lua.tonumber rowFence ≠ fence then return .Text (js "stale_fence")
      else if state = some (js "completed") then return .Text (js "ok")
      else do
        Lua.hset k [(js "state", js "completed"), (js "result_meta", metaArg),
          (js "result_omitted", omittedArg)]
        if bodyArg = js "-" then Lua.hdel k [js "result_body"]
        else Lua.hset k [(js "result_body", bodyArg)]
        return .Text (js "ok")
  | _ => return .Text (js "not_found")

/-- `ABANDON_LUA`.  `ARGV` fence. -/
def abandonLua (k fenceArg : JsString) : Lua LuaReply := do
  let fence := Lua.tonumber fenceArg
  let row ← Lua.hmget k [js "fence", js "state"]
  match row with
  | [some rowFence, state] =>
      if state ≠ some (js "in_flight") then return .Text (js "not_found")
      else if Lua.tonumber rowFence ≠ fence then return .Text (js "stale_fence")
      else do
        Lua.del k
        return .Text (js "ok")
  | _ => return .Text (js "not_found")

/-- The three script texts. -/
inductive Script
  | Begin
  | Complete
  | Abandon
  deriving DecidableEq

/-- A script with its `KEYS` and `ARGV`. -/
def Script.body : Script → JsString → List JsString → Lua LuaReply
  | .Begin, k, [fp, now, lease, ttl, grace] => beginLua k fp now lease ttl grace
  | .Complete, k, [fence, now, resultMeta, body, omitted] =>
      completeLua k fence now resultMeta body omitted
  | .Abandon, k, [fence] => abandonLua k fence
  | _, _, _ => throw .NotANumber

/-! ## The server and the adapter -/

/-- A server: its keyspace, and the scripts it has seen. -/
structure RedisServer where
  keys : Keyspace
  loaded : Script → Bool

/-- What a method of the store throws: the error of a script, the adapter's `NOSCRIPT`, or the error of
decoding a reply. -/
inductive RedisFailure
  | NoScript
  | Script (err : LuaError)
  | BadReply
  deriving DecidableEq

namespace RedisServer

variable (s : RedisServer)

/-- `EVAL`: runs the script and keeps it. -/
def eval (script : Script) (k : JsString) (args : List JsString) :
    Except RedisFailure LuaReply × RedisServer :=
  let (reply, keys) := (script.body k args).run s.keys
  (reply.mapError .Script, ⟨keys, fun other => other = script || s.loaded other⟩)

/-- `EVALSHA`: runs a script the server has. -/
def evalsha (script : Script) (k : JsString) (args : List JsString) :
    Except RedisFailure LuaReply × RedisServer :=
  if s.loaded script then
    let (reply, keys) := (script.body k args).run s.keys
    (reply.mapError .Script, { s with keys := keys })
  else (.error .NoScript, s)

end RedisServer

/-! ## The reply decoder -/

/-- `String(value)` of an item of a reply. -/
def LuaValue.text : LuaValue → JsString
  | .Str s => s
  | .Num n => intText n

/-- `Number(value)` of an item of a reply; `none` where that is no integer. -/
def LuaValue.number : LuaValue → Option ℤ
  | .Str s => parseInt s
  | .Num n => some n

/-- The pairs from index `i` on, written into the object built so far. -/
def pairsInto : List LuaValue → Hash → Hash
  | field :: value :: rest, out => pairsInto rest (out.set field.text value.text)
  | _, out => out

/-- The flat reply of `HGETALL` as a hash. -/
def pairsToFields (pairs : List LuaValue) : Hash := pairsInto pairs Table.empty

/-- `Number(fields.name ?? 0)`. -/
def numberField (fields : Hash) (name : String) : Option ℤ :=
  match fields.get (js name) with
  | none => some 0
  | some text => parseInt text

/-- The bytes of a stored body. -/
def base64ToBytes (text : JsString) : Option (List UInt8) := atob text

/-- The binary string the loop of `bytesToBase64` builds: `String.fromCharCode` of 0x8000 bytes at a
time. -/
def binaryString (bytes : List UInt8) : JsString :=
  (List.range ((bytes.length + 0x7fff) / 0x8000)).flatMap fun n =>
    ((bytes.drop (n * 0x8000)).take 0x8000).map UInt8.toUInt16

/-- `btoa` of the binary string, all of whose units are bytes. -/
def bytesToBase64 (bytes : List UInt8) : JsString := btoa ((binaryString bytes).map UInt16.toUInt8)

/-- The chunks a list is cut into are the list again. -/
lemma flatMap_chunks {α : Type} (l : List α) (size n : ℕ) :
    ((List.range n).flatMap fun i => (l.drop (i * size)).take size) = l.take (n * size) := by
  induction n with
  | zero => simp
  | succ n ih =>
      rw [List.range_succ, List.flatMap_append, ih, Nat.succ_mul, List.take_add]
      simp

/-- **Cutting a body into chunks loses nothing**, whatever its length. -/
lemma binaryString_eq (bytes : List UInt8) : binaryString bytes = bytes.map UInt8.toUInt16 := by
  have hall : bytes.length ≤ (bytes.length + 0x7fff) / 0x8000 * 0x8000 := by omega
  rw [binaryString, ← List.map_flatMap, flatMap_chunks, List.take_of_length_le hall]

lemma bytesToBase64_eq (bytes : List UInt8) : bytesToBase64 bytes = btoa bytes := by
  have hunits : UInt16.toUInt8 ∘ UInt8.toUInt16 = id := by
    funext b
    simp
  rw [bytesToBase64, binaryString_eq, List.map_map, hunits, List.map_id]

/-- `fields.state ?? 'in_flight'`. -/
def stateField (fields : Hash) : Option RecordState :=
  match fields.get (js "state") with
  | none => some .InFlight
  | some text => stateOfText text

/-- The body: `some none` where there is none. -/
def bodyField (fields : Hash) : Option (Option (List UInt8)) :=
  match fields.get (js "result_body") with
  | none => some none
  | some text => (base64ToBytes text).map some

/-- The row a hash stands for; `none` for fields no script writes. -/
def hashToRow (scope key : JsString) (fields : Hash) : Option (RecordRow JsString) := do
  let state ← stateField fields
  let fence ← numberField fields "fence"
  let leaseUntil ← numberField fields "lease_until"
  let createdAt ← numberField fields "created_at"
  let expiresAt ← numberField fields "expires_at"
  let resultBody ← bodyField fields
  let resultOmitted ← numberField fields "result_omitted"
  return {
    scope := scope
    key := key
    fingerprint := (fields.get (js "fingerprint")).getD []
    state := state
    fence := fence
    leaseUntil := leaseUntil
    createdAt := createdAt
    expiresAt := expiresAt
    resultMeta := fields.get (js "result_meta")
    resultBody := resultBody
    resultOmitted := resultOmitted }

/-- The body `COMPLETE_LUA` is passed: `-` for none. -/
def Completion.bodyArg : Completion → JsString
  | .Omitted _ => js "-"
  | .Stored r =>
      match r.body with
      | none => js "-"
      | some bytes => bytesToBase64 bytes

/-- `String(reply) as CompleteStatus`. -/
def statusOfReply : LuaReply → Option CompleteStatus
  | .Text text =>
      if text = js "ok" then some .Ok
      else if text = js "stale_fence" then some .StaleFence
      else if text = js "not_found" then some .NotFound
      else none
  | .Items _ => none

/-- What the decoder makes of a value it may not be able to use. -/
def decoded {α : Type} : Option α → Except RedisFailure α
  | none => .error .BadReply
  | some a => .ok a

/-- The reply of `BEGIN_LUA` as an outcome. -/
def beginOutcome (op : Operation) : LuaReply → Option (BeginOutcome IdempotencyRecord)
  | .Items (tag :: rest) =>
      if tag.text = js "acquired" then rest.head?.bind LuaValue.number |>.map .Acquired
      else if tag.text = js "in_flight" then rest.head?.bind LuaValue.number |>.map .InFlight
      else
        ((hashToRow op.scope op.key (pairsToFields rest)).bind rowToRecord).map fun record =>
          if tag.text = js "completed" then .Completed record else .Mismatch record
  | _ => none

/-! ## The store -/

/-- `RedisStoreOptions`, without the adapter. -/
structure RedisStore where
  keyPrefix : JsString := js "anyonce:"
  grace : ℤ := 60000

namespace RedisStore

variable (store : RedisStore) (s : RedisServer)

/-- The key of a hash: the prefix, the scope, and the key after a unit separator. -/
def keyFor (op : Operation) : JsString := store.keyPrefix ++ op.scope ++ 0x1f :: op.key

/-- The script by its digest, and by its text where the server does not have it. -/
def run (script : Script) (k : JsString) (args : List JsString) :
    Except RedisFailure LuaReply × RedisServer :=
  match s.evalsha script k args with
  | (.error .NoScript, s) => s.eval script k args
  | (reply, s) => (reply, s)

/-- One script; its reply says which of the four outcomes it is. -/
def begin (op : Operation) (opts : BeginOptions) :
    Except RedisFailure (BeginOutcome IdempotencyRecord) × RedisServer :=
  let (reply, s) := run s .Begin (store.keyFor op)
    [op.fingerprint, intText opts.now, intText opts.leaseMs, intText opts.ttlMs, intText store.grace]
  (reply.bind fun reply => decoded (beginOutcome op reply), s)

/-- One script; the body travels as base64, and a lone `-` stands for none. -/
def complete (op : Operation) (fence : ℤ) (result : Completion) (now : ℤ) :
    Except RedisFailure CompleteStatus × RedisServer :=
  let (reply, s) := run s .Complete (store.keyFor op)
    [intText fence, intText now, encodeResultMeta result, result.bodyArg,
      if result.isOmitted then js "1" else js "0"]
  (reply.bind fun reply => decoded (statusOfReply reply), s)

/-- One script. -/
def abandon (op : Operation) (fence : ℤ) : Except RedisFailure CompleteStatus × RedisServer :=
  let (reply, s) := run s .Abandon (store.keyFor op) [intText fence]
  (reply.bind fun reply => decoded (statusOfReply reply), s)

/-- Read without a script: `HGETALL`, and the expiry compared with the caller's clock. -/
def get (op : Operation) (now : ℤ) : Except RedisFailure (Option IdempotencyRecord) :=
  let fields := Keyspace.hash s.keys (store.keyFor op)
  match fields.get (js "fingerprint") with
  | none => .ok none
  | some _ =>
      match hashToRow op.scope op.key fields with
      | none => .error .BadReply
      | some row =>
          if row.expiresAt > now then (decoded (rowToRecord row)).map some else .ok none

/-- `PEXPIRE` sweeps expired hashes; nothing to do here. -/
def purge (_now : ℤ) : ℕ := 0

/-- Test-only: what the native expiry would do. -/
def physicallyRemove (op : Operation) : RedisServer :=
  { s with keys := s.keys.delete (store.keyFor op) }

/-- One call of the store. -/
def apply (c : StoreCall Operation BeginOptions Completion) (s : RedisServer) :
    Except RedisFailure (StoreReply IdempotencyRecord c) × RedisServer :=
  match c with
  | .Begin op opts => store.begin s op opts
  | .Complete op fence result now => store.complete s op fence result now
  | .Abandon op fence => store.abandon s op fence
  | .Get op now => (store.get s op now, s)
  | .Purge now => (.ok (purge now), s)
  | .PhysicallyRemove op => (.ok (), store.physicallyRemove s op)

end RedisStore

end Anyonce
