import Anyonce.Core.Isolation
import Anyonce.DynamoDb.Refinement
import Anyonce.KeyParser
import Anyonce.Redis.Store

/-!
# Scopes and keys are isolated

Every store keeps the record of a scope and a key under one composed key, and scopes are arbitrary
strings that may contain the separator.  What keeps two pairs apart is that no admitted key contains
it (`composed_ne`).

The rest is that a call goes to its own composed key only.  Each store is shown to be `Confined`:
the memory store through the contract it is proved against, the SQL statements, Redis commands and
DynamoDB requests one by one, and the methods because they are programs over these.  The methods of a
Durable Object are confined to the row of their pair, whichever object the pair is sent to.

* `Admitted` — the keys the doors let through.
* `scopes_and_keys_isolated` — different composed keys, and the same replies with the calls of the
  other pair left out.
-/

namespace Anyonce

open Interaction Relational

abbrev Call : Type := StoreCall Operation BeginOptions Completion

/-- A begin, complete, abandon or get of an operation. -/
def StoreCall.operation : Call → Option Operation
  | .Begin op _ => some op
  | .Complete op _ _ _ => some op
  | .Abandon op _ => some op
  | .Get op _ => some op
  | .Purge _ => none
  | .PhysicallyRemove _ => none

/-- The call is one of the four, at this address. -/
def StoreCall.IsAt {A : Type} (addr : Operation → A) (a : A) (c : Call) : Prop :=
  ∃ op, c.operation = some op ∧ addr op = a

/-- The call is one of the four, on this scope and key. -/
def StoreCall.on (pair : JsString × JsString) (c : Call) : Bool :=
  c.operation.any fun op => (op.scope, op.key) = pair

/-! ## Stores that implement the contract -/

/-- The calls of a store that acts on single cells are confined to their cells. -/
lemma ClaimStore.confined {F Row S A E : Type} [DecidableEq F] [DecidableEq A]
    {M : ClaimModel F Operation BeginOptions Row Completion} (store : ClaimStore M S A) :
    Confined (StoreCall.IsAt store.addr) store.lookup
      fun (c : Call) s => ((.ok (store.apply s c).1 : Except E (StoreReply Row c)),
        (store.apply s c).2) := by
  refine Confined.of_cell ?_
  rintro a c ⟨op, hop, rfl⟩
  cases c with
  | Begin op' opts =>
      cases hop
      exact ⟨fun cell => .ok (M.begin op opts cell).1, fun cell => (M.begin op opts cell).2,
        fun s => ⟨congrArg Except.ok (store.begin_reply s op opts), store.begin_lookup s op opts⟩⟩
  | Complete op' fence result now =>
      cases hop
      exact ⟨fun cell => .ok (M.complete fence result now cell).1,
        fun cell => (M.complete fence result now cell).2,
        fun s => ⟨congrArg Except.ok (store.complete_reply s op fence result now),
          store.complete_lookup s op fence result now⟩⟩
  | Abandon op' fence =>
      cases hop
      exact ⟨fun cell => .ok (M.abandon fence cell).1, fun cell => (M.abandon fence cell).2,
        fun s => ⟨congrArg Except.ok (store.abandon_reply s op fence),
          store.abandon_lookup s op fence⟩⟩
  | Get op' now =>
      cases hop
      refine ⟨fun cell => .ok (M.live now cell), fun cell => cell, fun s => ⟨?_, fun a' => ?_⟩⟩
      · exact congrArg Except.ok (store.get_reply s op now)
      · split_ifs <;> rfl
  | Purge now => cases hop
  | PhysicallyRemove op' => cases hop

/-! ## SQL -/

/-- A statement on one row of the table. -/
def Statement.IsAt (pair : JsString × JsString) : Statement JsString → Prop
  | .Begin claim _ => (claim.scope, claim.key) = pair
  | .Complete scope key _ _ _ => (scope, key) = pair
  | .Abandon scope key _ => (scope, key) = pair
  | .Get scope key _ => (scope, key) = pair
  | .Select scope key => (scope, key) = pair
  | .Purge _ => False
  | .Remove _ _ => False

/-- Removing the row of a key leaves the others. -/
lemma lookup_remove_row (t : Records JsString) (pair pair' : JsString × JsString) :
    (t.remove fun row => row.primaryKey = pair).lookup pair'
      = if pair' = pair then none else t.lookup pair' := by
  rw [Table.lookup_remove]
  cases hrow : t.lookup pair' with
  | none => simp
  | some row =>
      have hkey : row.primaryKey = pair' := Table.key_of_lookup hrow
      simp only [Option.filter_some, hkey]
      split_ifs with h1 h2 h3
      · simp [h2] at h1
      · rfl
      · rfl
      · simp [h3] at h1

/-- **Statements are confined to the row of their key.** -/
lemma sql_confined {X : Type} :
    Confined Statement.IsAt (fun (t : Records JsString) pair => t.lookup pair)
      (sqlMachine (X := X)) := by
  refine Confined.of_cell ?_
  rintro pair c hat
  cases c with
  | Begin claim terms =>
      cases hat
      refine ⟨fun row => .ok (if (rowModel JsString).claimable claim terms row
        then some ((rowModel JsString).nextFence row) else none),
        fun row => if (rowModel JsString).claimable claim terms row
          then some (claimRow claim terms ((rowModel JsString).nextFence row)) else row, ?_⟩
      intro t
      simp only [sqlMachine, Statement.run, beginSql_eq]
      refine ⟨by split_ifs <;> rfl, ?_⟩
      intro pair
      by_cases hpair : pair = (claim.scope, claim.key)
      · subst hpair
        rw [if_pos rfl]
        split_ifs
        · rw [Table.lookup_put]
          exact if_pos rfl
        · rfl
      · rw [if_neg hpair]
        split_ifs
        · rw [Table.lookup_put]
          exact if_neg hpair
        · rfl
  | Complete scope key fence now result =>
      cases hat
      refine ⟨fun row => .ok ((row.filter (RecordRow.completable fence now)).map RecordRow.fence),
        fun row => ((row.filter (RecordRow.completable fence now)).map (completedRow result)).or row,
        ?_⟩
      intro t
      simp only [sqlMachine, Statement.run, completeSql_eq]
      cases hrow : (t.lookup (scope, key)).filter (RecordRow.completable fence now) with
      | none =>
          refine ⟨rfl, fun pair => ?_⟩
          split_ifs with hpair
          · subst hpair
            rw [hrow]
            rfl
          · rfl
      | some row =>
          have hfound : row.primaryKey = (scope, key) :=
            Table.key_of_lookup (Option.filter_eq_some_iff.mp hrow).1
          have hkey : (completedRow result row).primaryKey = (scope, key) := hfound
          refine ⟨rfl, fun pair => ?_⟩
          simp only [Table.lookup_put]
          by_cases hpair : pair = (scope, key)
          · subst hpair
            rw [if_pos hkey.symm, if_pos rfl, hrow]
            rfl
          · rw [if_neg hpair]
            exact if_neg fun h => hpair (h.trans hkey)
  | Abandon scope key fence =>
      cases hat
      refine ⟨fun row => .ok ((row.filter (RecordRow.abandonable fence)).map RecordRow.fence),
        fun row => if (row.filter (RecordRow.abandonable fence)).isSome then none else row, ?_⟩
      intro t
      simp only [sqlMachine, Statement.run, abandonSql_eq]
      cases hrow : (t.lookup (scope, key)).filter (RecordRow.abandonable fence) with
      | none =>
          refine ⟨rfl, fun pair => ?_⟩
          split_ifs with hpair hsome
          · rw [hpair, hrow] at hsome
            cases hsome
          · rfl
          · rfl
      | some row =>
          refine ⟨rfl, fun pair => ?_⟩
          simp only [lookup_remove_row]
          split_ifs with hpair hsome
          · rfl
          · rw [hpair, hrow] at hsome
            simp at hsome
          · rfl
  | Get scope key now =>
      cases hat
      refine ⟨fun row => .ok ((rowModel JsString).live now row), fun row => row, fun t => ⟨?_, ?_⟩⟩
      · exact congrArg Except.ok (getSql_eq t scope key now)
      · intro pair
        split_ifs <;> rfl
  | Select scope key =>
      cases hat
      refine ⟨fun row => .ok row, fun row => row, fun t => ⟨rfl, ?_⟩⟩
      intro pair
      split_ifs <;> rfl
  | Purge now => cases hat
  | Remove scope key => cases hat

/-- The pair a call is for. -/
def Operation.pair (op : Operation) : JsString × JsString := (op.scope, op.key)

section

variable {X Err Rec : Type} (scope key : JsString) (failed failed' : X → Err)

/-- The programs of the methods issue statements on the row of their pair. -/
lemma beginProgram_only (claim : ClaimColumns JsString) (terms : TermColumns)
    (classify : Option (RecordRow JsString) → Option (Except Err (BeginOutcome Rec)))
    (unsettled : Err) :
    (beginProgram claim terms failed failed' classify unsettled).Only
      (Statement.IsAt (claim.scope, claim.key)) := by
  refine only_retry ?_ _ 3
  refine ⟨rfl, fun r => ?_⟩
  rcases r with err | _ | fence
  · trivial
  · exact ⟨rfl, fun r => by cases r <;> trivial⟩
  · trivial

lemma completeProgram_only (fence now : ℤ) (result : ResultColumns JsString) :
    (completeProgram scope key fence now result failed failed').Only
      (Statement.IsAt (scope, key)) := by
  refine ⟨rfl, fun r => ?_⟩
  rcases r with err | _ | fence
  · trivial
  · exact ⟨rfl, fun r => by cases r <;> trivial⟩
  · trivial

lemma abandonProgram_only (fence : ℤ) :
    (abandonProgram scope key fence failed failed').Only (Statement.IsAt (scope, key)) := by
  refine ⟨rfl, fun r => ?_⟩
  rcases r with err | _ | fence
  · trivial
  · exact ⟨rfl, fun r => by cases r <;> trivial⟩
  · trivial

lemma getProgram_only (now : ℤ) (read : RecordRow JsString → Except Err Rec) :
    (getProgram scope key now failed read).Only (Statement.IsAt (scope, key)) := by
  refine ⟨rfl, fun r => ?_⟩
  rcases r with err | _ | row <;> trivial

end

/-- Every call of a SQL store issues statements on the row of its pair. -/
lemma SqlDialect.program_only {X : Type} (d : SqlDialect) {pair : JsString × JsString} {c : Call}
    (hc : c.IsAt Operation.pair pair) : (d.program (X := X) c).Only (Statement.IsAt pair) := by
  obtain ⟨op, hop, rfl⟩ := hc
  cases c with
  | Begin op' opts =>
      cases hop
      exact beginProgram_only _ _ _ _ _ _
  | Complete op' fence result now =>
      cases hop
      exact completeProgram_only _ _ _ _ _ _ _
  | Abandon op' fence =>
      cases hop
      exact abandonProgram_only _ _ _ _ _
  | Get op' now =>
      cases hop
      exact getProgram_only _ _ _ _ _
  | Purge now => cases hop
  | PhysicallyRemove op' => cases hop

/-! ## Redis -/

def RedisCommand.key : RedisCommand → JsString
  | .Hmget k _ => k
  | .Hgetall k => k
  | .Hset k _ => k
  | .Hdel k _ => k
  | .Del k => k
  | .Pexpire k _ => k

/-- **Redis commands are confined to their key.** -/
lemma redis_confined :
    Confined (fun k (c : RedisCommand) => c.key = k) (fun (s : Keyspace) k => s.get k)
      redisMachine := by
  refine Confined.of_cell ?_
  intro k c hat
  cases c with
  | Hmget key fields =>
      obtain rfl : key = k := hat
      refine ⟨fun h => fields.map (h.getD Table.empty).get, fun h => h, fun s => ⟨rfl, ?_⟩⟩
      intro k'
      split_ifs <;> rfl
  | Hgetall key =>
      obtain rfl : key = k := hat
      refine ⟨fun h => (h.getD Table.empty).rows, fun h => h, fun s => ⟨rfl, ?_⟩⟩
      intro k'
      split_ifs <;> rfl
  | Hset key pairs =>
      obtain rfl : key = k := hat
      refine ⟨fun _ => (), fun h => some ((h.getD Table.empty).setAll pairs), fun s => ⟨rfl, ?_⟩⟩
      intro k'
      simp only [redisMachine, OrderedMap.get_set]
      split_ifs with hk
      · rw [hk]
        rfl
      · rfl
  | Hdel key fields =>
      obtain rfl : key = k := hat
      refine ⟨fun _ => (), fun h => if ((h.getD Table.empty).deleteAll fields).rows.isEmpty then none
        else some ((h.getD Table.empty).deleteAll fields), fun s => ⟨rfl, ?_⟩⟩
      intro k'
      simp only [redisMachine]
      by_cases hk : k' = key
      · subst hk
        rw [if_pos rfl]
        change OrderedMap.get (if ((Keyspace.hash s k').deleteAll fields).rows.isEmpty = true then _
          else _) k' = if ((Keyspace.hash s k').deleteAll fields).rows.isEmpty = true then _ else _
        split_ifs
        · simp
        · simp [Keyspace.hash]
      · rw [if_neg hk]
        split_ifs
        · simp [hk]
        · simp [hk]
  | Del key =>
      obtain rfl : key = k := hat
      refine ⟨fun _ => (), fun _ => none, fun s => ⟨rfl, ?_⟩⟩
      intro k'
      simp [redisMachine]
  | Pexpire key milliseconds =>
      obtain rfl : key = k := hat
      refine ⟨fun _ => (), fun h => if milliseconds ≤ 0 then none else h, fun s => ⟨rfl, ?_⟩⟩
      intro k'
      simp only [redisMachine]
      by_cases hk : k' = key
      · subst hk
        split_ifs <;> simp_all
      · rw [if_neg hk]
        split_ifs
        · simp [hk]
        · rfl

/-- A script whose commands are all on one key. -/
def Lua.OnKey {α : Type} (k : JsString) (script : Lua α) : Prop :=
  Prog.Only (fun c => c.key = k) (ExceptT.run script)

namespace Lua

variable {α β : Type} {k : JsString}

lemma onKey_pure (a : α) : OnKey k (pure a : Lua α) := trivial

lemma onKey_throw (e : LuaError) : OnKey k (throw e : Lua α) := trivial

lemma onKey_call (c : RedisCommand) : OnKey c.key (call c) := ⟨rfl, fun _ => trivial⟩

lemma onKey_bind {x : Lua α} {f : α → Lua β} (hx : OnKey k x) (hf : ∀ a, OnKey k (f a)) :
    OnKey k (x >>= f) := by
  rw [OnKey, ExceptT.run_bind]
  refine only_bind hx fun r => ?_
  cases r with
  | error e => trivial
  | ok a => exact hf a

lemma onKey_number (n : Option ℤ) : OnKey k (number n) := by
  cases n <;> trivial

lemma onKey_hgetall : OnKey k (hgetall k) :=
  onKey_bind (onKey_call (.Hgetall k)) fun _ => onKey_pure _

/-- The end of `BEGIN_LUA` is on its key. -/
lemma onKey_acquireLua (fp : JsString) (now lease ttl grace fence : ℤ) :
    OnKey k (acquireLua k fp now lease ttl grace fence) :=
  onKey_bind (onKey_call (.Hset k _)) fun _ =>
    onKey_bind (onKey_call (.Hdel k _)) fun _ =>
      onKey_bind (onKey_call (.Pexpire k _)) fun _ => onKey_pure _

lemma onKey_beginLua (fp nowArg leaseArg ttlArg graceArg : JsString) :
    OnKey k (beginLua k fp nowArg leaseArg ttlArg graceArg) := by
  refine onKey_bind (onKey_number _) fun now => onKey_bind (onKey_number _) fun lease =>
    onKey_bind (onKey_number _) fun ttl => onKey_bind (onKey_number _) fun grace =>
      onKey_bind (onKey_call (.Hmget k _)) fun row => ?_
  split
  · refine onKey_bind (onKey_number _) fun expires => ?_
    have htake : ∀ fence, OnKey k (do
        let fence ← Lua.number (Lua.tonumber fence)
        acquireLua k fp now lease ttl grace (fence + 1)) :=
      fun fence => onKey_bind (onKey_number _) fun _ => onKey_acquireLua _ _ _ _ _ _
    dsimp only
    split_ifs
    · exact onKey_bind onKey_hgetall fun _ => onKey_pure _
    · exact onKey_bind onKey_hgetall fun _ => onKey_pure _
    · refine onKey_bind (onKey_number _) fun leaseEnd => ?_
      split_ifs
      · exact onKey_pure _
      · exact htake _
    · exact htake _
  · exact onKey_acquireLua _ _ _ _ _ _

lemma onKey_completeLua (fenceArg nowArg metaArg bodyArg omittedArg : JsString) :
    OnKey k (completeLua k fenceArg nowArg metaArg bodyArg omittedArg) := by
  refine onKey_bind (onKey_number _) fun now => onKey_bind (onKey_call (.Hmget k _)) fun row => ?_
  split
  · refine onKey_bind (onKey_number _) fun expires => ?_
    split_ifs
    · exact onKey_pure _
    · exact onKey_pure _
    · exact onKey_pure _
    · refine onKey_bind (onKey_call (.Hset k _)) fun _ => ?_
      exact onKey_bind (onKey_call (.Hdel k _)) fun _ => onKey_pure _
    · refine onKey_bind (onKey_call (.Hset k _)) fun _ => ?_
      exact onKey_bind (onKey_call (.Hset k _)) fun _ => onKey_pure _
  · exact onKey_pure _

lemma onKey_abandonLua (fenceArg : JsString) : OnKey k (abandonLua k fenceArg) := by
  refine onKey_bind (onKey_call (.Hmget k _)) fun row => ?_
  split
  · split_ifs
    · exact onKey_pure _
    · exact onKey_pure _
    · exact onKey_bind (onKey_call (.Del k)) fun _ => onKey_pure _
  · exact onKey_pure _

/-- Every script is on the key it is passed. -/
lemma onKey_body (script : Script) (args : List JsString) : OnKey k (script.body k args) := by
  unfold Script.body
  split
  · exact onKey_beginLua _ _ _ _ _
  · exact onKey_completeLua _ _ _ _ _
  · exact onKey_abandonLua _
  · exact onKey_throw _

end Lua

namespace RedisStore

/-- A script leaves the same reply and the same keys whether the server had it or not. -/
lemma run_spec (s : RedisServer) (script : Script) (k : JsString) (args : List JsString) :
    (run s script k args).1 = ((script.body k args).run s.keys).1.mapError .Script
      ∧ (run s script k args).2.keys = ((script.body k args).run s.keys).2 := by
  by_cases hloaded : s.loaded script = true
  · rw [run, RedisServer.evalsha, if_pos hloaded]
    rcases (script.body k args).run s.keys with ⟨err | reply, keys⟩
    · exact ⟨rfl, rfl⟩
    · exact ⟨rfl, rfl⟩
  · rw [run, RedisServer.evalsha, if_neg hloaded]
    exact ⟨rfl, rfl⟩

/-- Scripts are confined to the key they are passed. -/
lemma run_confined :
    Confined (fun k (p : Script × JsString × List JsString) => p.2.1 = k)
      (fun (s : RedisServer) k => s.keys.get k) (fun p s => run s p.1 p.2.1 p.2.2) where
  reply := by
    rintro k ⟨script, k', args⟩ s s' rfl hview
    have hagree := redis_confined.exec_agrees (Lua.onKey_body (k := k') script args) hview
    dsimp only
    rw [(run_spec s script k' args).1, (run_spec s' script k' args).1]
    exact congrArg (Except.mapError _) hagree.1
  here := by
    rintro k ⟨script, k', args⟩ s s' rfl hview
    have hagree := redis_confined.exec_agrees (Lua.onKey_body (k := k') script args) hview
    dsimp only
    rw [(run_spec s script k' args).2, (run_spec s' script k' args).2]
    exact hagree.2
  elsewhere := by
    rintro k k'' ⟨script, k', args⟩ s rfl hne
    dsimp only
    rw [(run_spec s script k' args).2]
    exact redis_confined.exec_elsewhere (Lua.onKey_body (k := k') script args) hne s.keys

/-- **The calls of the Redis store are confined to their hash.** -/
lemma apply_confined (store : RedisStore) :
    Confined (StoreCall.IsAt store.keyFor) (fun (s : RedisServer) k => s.keys.get k) store.apply where
  reply := by
    rintro k c s s' ⟨op, hop, rfl⟩ hview
    have hrun : ∀ script args, (run s script (store.keyFor op) args).1
        = (run s' script (store.keyFor op) args).1 := fun script args =>
      run_confined.reply (c := (script, store.keyFor op, args)) rfl hview
    cases c with
    | Begin op' opts =>
        cases hop
        simp only [apply, begin, hrun]
    | Complete op' fence result now =>
        cases hop
        simp only [apply, complete, hrun]
    | Abandon op' fence =>
        cases hop
        simp only [apply, abandon, hrun]
    | Get op' now =>
        cases hop
        have hhash : Keyspace.hash s.keys (store.keyFor op) = Keyspace.hash s'.keys (store.keyFor op) :=
          congrArg (Option.getD · Table.empty) hview
        show store.get s op now = store.get s' op now
        rw [get, get, hhash]
    | Purge now => cases hop
    | PhysicallyRemove op' => cases hop
  here := by
    rintro k c s s' ⟨op, hop, rfl⟩ hview
    have hrun := fun script args =>
      run_confined.here (c := (script, store.keyFor op, args)) rfl hview
    cases c with
    | Begin op' opts =>
        cases hop
        exact hrun .Begin _
    | Complete op' fence result now =>
        cases hop
        exact hrun .Complete _
    | Abandon op' fence =>
        cases hop
        exact hrun .Abandon _
    | Get op' now => exact hview
    | Purge now => cases hop
    | PhysicallyRemove op' => cases hop
  elsewhere := by
    rintro k k' c s ⟨op, hop, rfl⟩ hne
    have hrun := fun script args =>
      run_confined.elsewhere (c := (script, store.keyFor op, args)) s rfl hne
    cases c with
    | Begin op' opts =>
        cases hop
        exact hrun .Begin _
    | Complete op' fence result now =>
        cases hop
        exact hrun .Complete _
    | Abandon op' fence =>
        cases hop
        exact hrun .Abandon _
    | Get op' now => rfl
    | Purge now => cases hop
    | PhysicallyRemove op' => cases hop

end RedisStore

/-! ## DynamoDB -/

/-- A request for one item, or a reading of the clock. -/
def DynamoCommand.IsAt (pk : JsString) : DynamoCommand → Prop
  | .DateNow => True
  | .UpdateItem pk' _ _ => pk' = pk
  | .DeleteItem pk' _ => pk' = pk
  | .GetItem pk' => pk' = pk

/-- What a conditional update comes to, as its old item decides. -/
def written (pk : JsString) (cond : Condition JsString) (u : Update JsString)
    (old : Option (Item JsString)) : Except (WriteError JsString) (Item JsString) :=
  if cond.holds (old.getD Item.absent) then
    match u.apply pk old with
    | none => .error .Validation
    | some item => .ok item
  else .error (.ConditionalCheckFailed old)

lemma updateItem_eq (items : Items JsString) (pk : JsString) (cond : Condition JsString)
    (u : Update JsString) : updateItem items pk cond u
      = (written pk cond u (items.get pk), match written pk cond u (items.get pk) with
          | .ok item => items.set pk item
          | .error _ => items) := by
  simp only [updateItem, written]
  split_ifs
  · cases u.apply pk (items.get pk) <;> rfl
  · rfl

/-- **Requests are confined to their item.** -/
lemma dynamo_confined (wall : ℤ) :
    Confined DynamoCommand.IsAt (fun (items : Items JsString) pk => items.get pk)
      (dynamoMachine wall) := by
  refine Confined.of_cell ?_
  intro pk c hat
  cases c with
  | DateNow =>
      refine ⟨fun _ => wall, fun item => item, fun items => ⟨rfl, ?_⟩⟩
      intro pk'
      split_ifs <;> rfl
  | UpdateItem key cond update =>
      obtain rfl : key = pk := hat
      refine ⟨fun old => (written key cond update old).mapError .Service,
        fun old => match written key cond update old with | .ok item => some item | .error _ => old,
        ?_⟩
      intro items
      simp only [dynamoMachine, updateItem_eq]
      refine ⟨trivial, fun pk => ?_⟩
      by_cases hpk : pk = key
      · subst hpk
        rw [if_pos rfl]
        cases written pk cond update (items.get pk) with
        | ok item => simp
        | error err => rfl
      · rw [if_neg hpk]
        cases written key cond update (items.get key) with
        | ok item => simp [hpk]
        | error err => rfl
  | DeleteItem key cond =>
      obtain rfl : key = pk := hat
      refine ⟨fun old => if cond.all fun c => c.holds (old.getD Item.absent) then .ok ()
        else .error (.Service (.ConditionalCheckFailed old)),
        fun old => if cond.all fun c => c.holds (old.getD Item.absent) then none else old, ?_⟩
      intro items
      simp only [dynamoMachine, deleteItem]
      split_ifs with hcond
      · refine ⟨rfl, fun pk => ?_⟩
        simp only [OrderedMap.get_delete]
        split_ifs with hpk hcond'
        · rfl
        · rw [hpk] at hcond'
          exact absurd hcond hcond'
        · rfl
      · refine ⟨rfl, fun pk => ?_⟩
        split_ifs with hpk hcond'
        · rw [hpk] at hcond'
          exact absurd hcond' hcond
        · rfl
        · rfl
  | GetItem key =>
      obtain rfl : key = pk := hat
      refine ⟨fun item => .ok item, fun item => item, fun items => ⟨rfl, ?_⟩⟩
      intro pk'
      split_ifs <;> rfl

/-- Every call of the DynamoDB store sends requests for the item of its pair. -/
lemma DynamoDbStore.program_only {X : Type} (store : DynamoDbStore) {pk : JsString} {c : Call}
    (hc : c.IsAt itemKey pk) : (store.program (X := X) c).Only (DynamoCommand.IsAt pk) := by
  obtain ⟨op, hop, rfl⟩ := hc
  cases c with
  | Begin op' opts =>
      cases hop
      refine only_retry ?_ _ 3
      exact ⟨trivial, fun _ => ⟨rfl, fun _ => trivial⟩⟩
  | Complete op' fence result now =>
      cases hop
      show (DynamoDbStore.complete op fence result now).Only _
      unfold DynamoDbStore.complete
      split_ifs
      · trivial
      · exact ⟨rfl, fun _ => trivial⟩
  | Abandon op' fence =>
      cases hop
      exact ⟨rfl, fun _ => trivial⟩
  | Get op' now =>
      cases hop
      exact ⟨rfl, fun _ => trivial⟩
  | Purge now => cases hop
  | PhysicallyRemove op' => cases hop

/-- **The calls of the DynamoDB store are confined to their item**, whatever the wall clock shows. -/
lemma DynamoDbStore.calls_confined (store : DynamoDbStore) :
    Confined (fun pk (p : ℤ × Call) => p.2.IsAt itemKey pk)
      (fun (items : Items JsString) pk => items.get pk)
      (fun p => exec (dynamoMachine p.1) (store.program p.2)) where
  reply hat hview := ((dynamo_confined _).exec_agrees (store.program_only hat) hview).1
  here hat hview := ((dynamo_confined _).exec_agrees (store.program_only hat) hview).2
  elsewhere s hat hne := (dynamo_confined _).exec_elsewhere (store.program_only hat) hne s

/-! ## Durable Objects -/

namespace IdempotencyObject

variable {X : Type} (wall : Wall)

/-- The statements of a call on the object's own table: those of `D1Store`, with another error after
the loop. -/
def statements : (c : Call) → SqlProg JsString X (Except (SqlFailure X) (StoreReply IdempotencyRecord c))
  | .Begin op opts =>
      beginProgram op.columns opts.columns .Driver .Driver (D1Store.classify op opts)
        (.Unsettled (js "anyonce: durable object begin could not settle after three attempts"))
  | .Complete op fence result now =>
      completeProgram op.scope op.key fence now result.columns .Driver .Driver
  | .Abandon op fence => abandonProgram op.scope op.key fence .Driver .Driver
  | .Get op now => getProgram op.scope op.key now .Driver readRow
  | .Purge now => purgeProgram now .Driver
  | .PhysicallyRemove op => removeProgram op.scope op.key .Driver

/-- The loop of `begin` runs its statements on the table. -/
lemma beginLoop_exec (op : Operation) (opts : BeginOptions) (n : ℕ) (o : IdempotencyObject) :
    ((beginLoop (X := X) wall op opts n o).1, (beginLoop (X := X) wall op opts n o).2.records)
      = exec sqlMachine (Prog.retry (Anyonce.beginAttempt op.columns opts.columns .Driver .Driver
          (D1Store.classify op opts)) (.error (.Unsettled
            (js "anyonce: durable object begin could not settle after three attempts"))) n)
          o.records := by
  induction n generalizing o with
  | zero => rfl
  | succ n ih =>
      rw [beginLoop, Prog.retry, exec_bind, exec_beginAttempt, beginAttempt]
      rcases beginSql o.records op.columns opts.columns with ⟨_ | fence, records⟩
      · have hscope : op.columns.scope = op.scope := rfl
        have hkey : op.columns.key = op.key := rfl
        simp only [hscope, hkey]
        cases D1Store.classify (X := X) op opts (selectSql records op.scope op.key) with
        | none => exact ih { o with records := records }
        | some out => rfl
      · rfl

/-- The methods run their statements on the table, whatever the sweep and the alarm are. -/
lemma apply_exec (c : Call) (op : Operation) (hop : c.operation = some op) (o : IdempotencyObject) :
    ((o.apply (X := X) wall c).1, (o.apply (X := X) wall c).2.records)
      = exec sqlMachine (statements c) o.records := by
  cases c with
  | Begin op' opts => exact beginLoop_exec wall op' opts 3 o
  | Complete op' fence result now =>
      show ((.ok (o.complete op' fence result now).1 : Except (SqlFailure X) CompleteStatus),
          (o.complete op' fence result now).2.records)
        = exec sqlMachine (completeProgram _ _ _ _ _ _ _) o.records
      rw [exec_completeProgram, complete]
      rcases completeSql o.records op'.scope op'.key fence now result.columns with ⟨_ | f, records⟩
      · rfl
      · rfl
  | Abandon op' fence =>
      show ((.ok (o.abandon op' fence).1 : Except (SqlFailure X) CompleteStatus),
          (o.abandon op' fence).2.records)
        = exec sqlMachine (abandonProgram _ _ _ _ _) o.records
      rw [exec_abandonProgram, abandon]
      rcases abandonSql o.records op'.scope op'.key fence with ⟨_ | f, records⟩
      · rfl
      · rfl
  | Get op' now =>
      show (o.get (X := X) op' now, o.records) = exec sqlMachine (getProgram _ _ _ _ _) o.records
      rw [exec_getProgram, get]
      cases getSql o.records op'.scope op'.key now <;> rfl
  | Purge now => cases hop
  | PhysicallyRemove op' => cases hop

/-- Every call of the object issues statements on the row of its pair. -/
lemma statements_only {pair : JsString × JsString} {c : Call} (hc : c.IsAt Operation.pair pair) :
    (statements (X := X) c).Only (Statement.IsAt pair) := by
  obtain ⟨op, hop, rfl⟩ := hc
  cases c with
  | Begin op' opts =>
      cases hop
      exact beginProgram_only _ _ _ _ _ _
  | Complete op' fence result now =>
      cases hop
      exact completeProgram_only _ _ _ _ _ _ _
  | Abandon op' fence =>
      cases hop
      exact abandonProgram_only _ _ _ _ _
  | Get op' now =>
      cases hop
      exact getProgram_only _ _ _ _ _
  | Purge now => cases hop
  | PhysicallyRemove op' => cases hop

end IdempotencyObject

namespace DurableObjectsStore

variable {X : Type} (store : DurableObjectsStore)

/-- The row of a pair in the object that owns it. -/
def rowOf (w : Worker) (pair : JsString × JsString) : Option (RecordRow JsString) :=
  (w.objects (store.objectName ⟨pair.1, pair.2, []⟩)).records.lookup pair

/-- A call of the four is one RPC to the object of its operation. -/
lemma apply_eq_rpc {c : Call} {op : Operation} (hop : c.operation = some op) (dateNow : ℤ)
    (w : Worker) : store.apply (X := X) dateNow c w = store.rpc w dateNow op c := by
  cases c with
  | Begin op' opts =>
      cases hop
      rfl
  | Complete op' fence result now =>
      cases hop
      rfl
  | Abandon op' fence =>
      cases hop
      rfl
  | Get op' now =>
      cases hop
      rfl
  | Purge now => cases hop
  | PhysicallyRemove op' => cases hop

/-- An RPC runs the statements of the call on the table of its object. -/
lemma rpc_exec {c : Call} {op : Operation} (hop : c.operation = some op) (dateNow : ℤ) (w : Worker) :
    (store.rpc (X := X) w dateNow op c).1
        = (exec sqlMachine (IdempotencyObject.statements c)
            (w.objects (store.objectName op)).records).1
      ∧ ∀ name, ((store.rpc (X := X) w dateNow op c).2.objects name).records
        = if name = store.objectName op then (exec sqlMachine (IdempotencyObject.statements (X := X) c)
            (w.objects (store.objectName op)).records).2 else (w.objects name).records := by
  have hstub : (store.stub w op).objects = w.objects := by
    unfold stub
    split_ifs <;> rfl
  have hexec := IdempotencyObject.apply_exec (X := X) ⟨dateNow, store.grace⟩ c op hop
    (w.objects (store.objectName op))
  rw [← hexec]
  simp only [rpc, hstub]
  refine ⟨trivial, fun name => ?_⟩
  split_ifs <;> rfl

/-- **The calls of the Worker side are confined to the row of their pair**, however pairs are spread
over objects. -/
lemma apply_confined :
    Confined (fun pair (p : ℤ × Call) => p.2.IsAt Operation.pair pair) store.rowOf
      (fun p => store.apply (X := X) p.1 p.2) where
  reply := by
    rintro pair ⟨dateNow, c⟩ w w' ⟨op, hop, rfl⟩ hview
    have honly := IdempotencyObject.statements_only (X := X) ⟨op, hop, rfl⟩
    dsimp only
    rw [apply_eq_rpc store hop, apply_eq_rpc store hop, (rpc_exec store hop dateNow w).1,
      (rpc_exec store hop dateNow w').1]
    exact (sql_confined.exec_agrees honly hview).1
  here := by
    rintro pair ⟨dateNow, c⟩ w w' ⟨op, hop, rfl⟩ hview
    have honly := IdempotencyObject.statements_only (X := X) ⟨op, hop, rfl⟩
    have hname : store.objectName ⟨op.pair.1, op.pair.2, []⟩ = store.objectName op := rfl
    dsimp only [rowOf]
    rw [apply_eq_rpc store hop, apply_eq_rpc store hop, (rpc_exec store hop dateNow w).2,
      (rpc_exec store hop dateNow w').2, hname, if_pos rfl, if_pos rfl]
    exact (sql_confined.exec_agrees honly hview).2
  elsewhere := by
    rintro pair pair' ⟨dateNow, c⟩ w ⟨op, hop, rfl⟩ hne
    have honly := IdempotencyObject.statements_only (X := X) ⟨op, hop, rfl⟩
    dsimp only [rowOf]
    rw [apply_eq_rpc store hop, (rpc_exec store hop dateNow w).2]
    split_ifs with hname
    · rw [sql_confined.exec_elsewhere honly hne, hname]
    · rfl

end DurableObjectsStore

/-! ## Two pairs -/

/-- The keys the doors let through: those `validateKey` accepts and those `parseKey` returns. -/
def Admitted (key : JsString) : Prop :=
  (∃ allowSpace, validateKey key allowSpace = .Ok) ∨
    ∃ headerValue keySyntax, parseKey headerValue keySyntax = .Ok key

lemma separated_of_admitted {key : JsString} (h : Admitted key) : Separated key := by
  rcases h with ⟨allowSpace, hkey⟩ | ⟨headerValue, keySyntax, hparse⟩
  · exact separated_of_validateKey hkey
  · cases keySyntax with
    | Strict =>
        obtain ⟨text, -, -, hkey⟩ := (parseKey_strict headerValue key).mp hparse
        exact separated_of_validateKey ((validateKey_true_iff key).mpr hkey)
    | Lenient =>
        obtain ⟨text, -, ⟨hbare, rfl⟩ | ⟨-, hkey⟩⟩ := (parseKey_lenient headerValue key).mp hparse
        · exact separated_of_validateKey ((validateKey_false_iff _).mpr
            ⟨hbare.nonempty, hbare.short, hbare.visible⟩)
        · exact separated_of_validateKey ((validateKey_true_iff key).mpr hkey)

/-- In every sequence of calls on the two pairs, from every state, the calls on the first get the
replies they get when those on the second are left out. -/
def Isolated {S : Type} {C : Type} {R : C → Type} (call : C → Call)
    (step : (c : C) → S → R c × S) (pair pair' : JsString × JsString) : Prop :=
  ∀ (s : S) (cs : List C), (∀ c ∈ cs, (call c).on pair ∨ (call c).on pair') →
    (replies step cs s).filter (fun ev => (call ev.1).on pair)
      = replies step (cs.filter fun c => (call c).on pair) s

lemma operation_of_on {pair : JsString × JsString} {c : Call} (h : c.on pair = true) :
    ∃ op, c.operation = some op ∧ op.pair = pair := by
  unfold StoreCall.on at h
  cases hop : c.operation with
  | none =>
      rw [hop] at h
      cases h
  | some op =>
      rw [hop] at h
      exact ⟨op, rfl, of_decide_eq_true h⟩

/-- A store whose calls are confined to addresses isolates two pairs with different addresses. -/
lemma isolated_of_confined {S A V C : Type} {R : C → Type} {call : C → Call} {addr : Operation → A}
    {view : S → A → V} {step : (c : C) → S → R c × S}
    (h : Confined (fun a c => (call c).IsAt addr a) view step) {pair pair' : JsString × JsString}
    {a a' : A} (hne : a ≠ a') (ha : ∀ op : Operation, op.pair = pair → addr op = a)
    (ha' : ∀ op : Operation, op.pair = pair' → addr op = a') :
    Isolated call step pair pair' := by
  intro s cs hcs
  let keep : C → Bool := fun c => (call c).on pair
  show (replies step cs s).filter (fun ev => keep ev.1) = replies step (cs.filter keep) s
  refine h.isolated (a := a) ?_ ?_ s
  · intro c _ hon
    obtain ⟨op, hop, hpair⟩ := operation_of_on hon
    exact ⟨op, hop, ha op hpair⟩
  · intro c hc hoff
    rcases hcs c hc with hon | hon
    · rw [show (call c).on pair = false from hoff] at hon
      cases hon
    · obtain ⟨op, hop, hpair⟩ := operation_of_on hon
      exact ⟨a', hne, op, hop, ha' op hpair⟩

/-- The operation of a pair. -/
def operationOf (pair : JsString × JsString) (fingerprint : JsString) : Operation :=
  ⟨pair.1, pair.2, fingerprint⟩

section Composed

variable {pair pair' : JsString × JsString} (hne : pair ≠ pair') (hkey : Admitted pair.2)
  (hkey' : Admitted pair'.2)

include hne hkey hkey'

/-- **Composed keys differ**, whatever the scopes contain. -/
lemma composed_ne {sep : UInt16} (hsep : sep = 0x00 ∨ sep = 0x1f) :
    pair.1 ++ sep :: pair.2 ≠ pair'.1 ++ sep :: pair'.2 := by
  have hclean : ∀ {key : JsString}, Admitted key → sep ∉ key := by
    intro key hadmitted
    rcases hsep with rfl | rfl
    · exact (separated_of_admitted hadmitted).1
    · exact (separated_of_admitted hadmitted).2
  intro h
  obtain ⟨h1, h2⟩ := append_separator_inj (hclean hkey) (hclean hkey') h
  exact hne (Prod.ext h1 h2)

lemma keyFor_ne (store : RedisStore) (fp fp' : JsString) :
    store.keyFor (operationOf pair fp) ≠ store.keyFor (operationOf pair' fp') := by
  intro h
  rw [RedisStore.keyFor, RedisStore.keyFor, List.append_assoc, List.append_assoc] at h
  exact composed_ne hne hkey hkey' (Or.inr rfl) (List.append_cancel_left h)

end Composed

/-- **Scopes and keys are isolated.**  For two different pairs with admitted keys, the composed keys of
every store differ, and no call on one pair is seen by a call on the other. -/
theorem scopes_and_keys_isolated (pair pair' : JsString × JsString) (hne : pair ≠ pair')
    (hkey : Admitted pair.2) (hkey' : Admitted pair'.2) :
    mapKey pair.1 pair.2 ≠ mapKey pair'.1 pair'.2
      ∧ (∀ (store : RedisStore) (fp fp' : JsString),
          store.keyFor (operationOf pair fp) ≠ store.keyFor (operationOf pair' fp'))
      ∧ (∀ fp fp' : JsString, itemKey (operationOf pair fp) ≠ itemKey (operationOf pair' fp'))
      ∧ (∀ (store : DurableObjectsStore) (fp fp' : JsString), store.shard = .ScopeKey →
          store.objectName (operationOf pair fp) ≠ store.objectName (operationOf pair' fp'))
      ∧ Isolated id (memoryMachine (E := Empty)) pair pair'
      ∧ (∀ store : RedisStore, Isolated id store.apply pair pair')
      ∧ (∀ store : DynamoDbStore, Isolated (Prod.snd : ℤ × Call → Call)
          (fun p => exec (dynamoMachine p.1) (store.program p.2)) pair pair')
      ∧ (∀ store : DurableObjectsStore, Isolated (Prod.snd : ℤ × Call → Call)
          (fun p => store.apply (X := Empty) p.1 p.2) pair pair')
      ∧ ∀ d : SqlDialect, Isolated id (fun c => exec sqlMachine (d.program (X := Empty) c))
          pair pair' := by
  have hmap : mapKey pair.1 pair.2 ≠ mapKey pair'.1 pair'.2 :=
    composed_ne hne hkey hkey' (Or.inl rfl)
  have hitem : ∀ fp fp' : JsString,
      itemKey (operationOf pair fp) ≠ itemKey (operationOf pair' fp') := fun _ _ =>
    composed_ne hne hkey hkey' (Or.inr rfl)
  have hredis := keyFor_ne hne hkey hkey'
  refine ⟨hmap, hredis, hitem, ?_, ?_, ?_, ?_, ?_, ?_⟩
  · intro store fp fp' hshard
    rw [DurableObjectsStore.objectName, DurableObjectsStore.objectName, hshard]
    exact composed_ne hne hkey hkey' (Or.inr rfl)
  · refine isolated_of_confined memoryClaims.confined hmap ?_ ?_
    · rintro op rfl
      rfl
    · rintro op rfl
      rfl
  · intro store
    refine isolated_of_confined store.apply_confined (hredis store [] []) ?_ ?_
    · rintro op rfl
      rfl
    · rintro op rfl
      rfl
  · intro store
    refine isolated_of_confined store.calls_confined (hitem [] []) ?_ ?_
    · rintro op rfl
      rfl
    · rintro op rfl
      rfl
  · intro store
    exact isolated_of_confined store.apply_confined hne (fun _ h => h) fun _ h => h
  · intro d
    exact isolated_of_confined (sql_confined.exec d.program_only) hne (fun _ h => h) fun _ h => h

/-- A scope that ends where the other's key begins: `a␟b` with key `c`, and `a` with key `b`. -/
theorem scopes_and_keys_isolated_separators :
    itemKey ⟨[0x61, 0x1f, 0x62], [0x63], []⟩ ≠ itemKey ⟨[0x61], [0x62], []⟩
      ∧ (replies (memoryMachine (E := Empty))
          [.Begin ⟨[0x61, 0x1f, 0x62], [0x63], [1]⟩ ⟨10, 100, 0⟩, .Begin ⟨[0x61], [0x62], [2]⟩ ⟨10, 100, 1⟩,
            .Complete ⟨[0x61, 0x1f, 0x62], [0x63], [1]⟩ 1 (.Stored { kind := .Http }) 2]
          MemoryStore.empty).filter (fun ev => ev.1.on ([0x61, 0x1f, 0x62], [0x63]))
        = [⟨.Begin ⟨[0x61, 0x1f, 0x62], [0x63], [1]⟩ ⟨10, 100, 0⟩, .ok (.Acquired 1)⟩,
          ⟨.Complete ⟨[0x61, 0x1f, 0x62], [0x63], [1]⟩ 1 (.Stored { kind := .Http }) 2, .ok .Ok⟩] := by
  have hkey : Admitted [0x63] := Or.inl ⟨false, by decide⟩
  have hkey' : Admitted [0x62] := Or.inl ⟨false, by decide⟩
  have h := scopes_and_keys_isolated ([0x61, 0x1f, 0x62], [0x63]) ([0x61], [0x62]) (by decide) hkey
    hkey'
  refine ⟨h.2.2.1 [] [], ?_⟩
  refine (h.2.2.2.2.1 MemoryStore.empty _ ?_).trans rfl
  decide

end Anyonce
