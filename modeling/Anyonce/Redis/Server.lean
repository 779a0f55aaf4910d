import Anyonce.Core.Program
import Anyonce.Core.Table
import Anyonce.Types

/-!
# A Redis server with scripts

The commands the scripts of the store use, over a keyspace of hashes.  A Lua script is a program over
these commands that may raise an error; the server runs it to its end before anything else, so a
script is one atomic step on the keyspace.  What it wrote before it raised stays written.

A number a script passes to `redis.call` becomes its decimal text when it is an exact integer, and
`tonumber` reads such a text back.  `PEXPIRE` deletes the key at once when the time is not positive;
otherwise a script sees nothing of it until the expiry fires.
-/

namespace Anyonce

open Interaction Relational

/-- The fields of a key. -/
abbrev Hash : Type := OrderedMap JsString JsString

/-- The keys of a database. -/
abbrev Keyspace : Type := OrderedMap JsString Hash

/-- The fields of a key; a key that is absent has none. -/
def Keyspace.hash (s : Keyspace) (k : JsString) : Hash := (s.get k).getD Table.empty

lemma Keyspace.hash_of_get {s : Keyspace} {k : JsString} {h : Hash} (hget : s.get k = some h) :
    Keyspace.hash s k = h := by
  rw [hash, hget]
  rfl

lemma Keyspace.hash_of_none {s : Keyspace} {k : JsString} (hget : s.get k = none) :
    Keyspace.hash s k = Table.empty := by
  rw [hash, hget]
  rfl

@[simp] lemma Keyspace.hash_set (s : Keyspace) (k : JsString) (h : Hash) :
    Keyspace.hash (s.set k h) k = h := by
  simp [hash]

/-- The commands the scripts call. -/
inductive RedisCommand
  | Hmget (key : JsString) (fields : List JsString)
  | Hgetall (key : JsString)
  | Hset (key : JsString) (pairs : List (JsString × JsString))
  | Hdel (key : JsString) (fields : List JsString)
  | Del (key : JsString)
  | Pexpire (key : JsString) (milliseconds : ℤ)

/-- What a command returns to a script.  No script looks at the counts of the writing commands. -/
abbrev RedisReply : RedisCommand → Type
  | .Hmget _ _ => List (Option JsString)
  | .Hgetall _ => List (JsString × JsString)
  | .Hset _ _ => Unit
  | .Hdel _ _ => Unit
  | .Del _ => Unit
  | .Pexpire _ _ => Unit

namespace Hash

/-- A hash with fields written, one after another. -/
def setAll (h : Hash) (pairs : List (JsString × JsString)) : Hash :=
  pairs.foldl (fun h p => OrderedMap.set h p.1 p.2) h

/-- A hash with fields deleted. -/
def deleteAll (h : Hash) (fields : List JsString) : Hash := fields.foldl OrderedMap.delete h

end Hash

/-- One command on the keyspace. -/
def redisMachine : (c : RedisCommand) → Keyspace → RedisReply c × Keyspace
  | .Hmget k fields, s => (fields.map (Keyspace.hash s k).get, s)
  | .Hgetall k, s => ((Keyspace.hash s k).rows, s)
  | .Hset k pairs, s => ((), s.set k ((Keyspace.hash s k).setAll pairs))
  | .Hdel k fields, s =>
      let h := (Keyspace.hash s k).deleteAll fields
      -- a hash without fields does not exist
      ((), if h.rows.isEmpty then s.delete k else s.set k h)
  | .Del k, s => ((), s.delete k)
  | .Pexpire k milliseconds, s => ((), if milliseconds ≤ 0 then s.delete k else s)

/-! ## Scripts -/

/-- The error of a script: it used something that is no number as one. -/
inductive LuaError
  | NotANumber
  deriving DecidableEq

/-- A value in what a script returns. -/
inductive LuaValue
  | Str (s : JsString)
  | Num (n : ℤ)
  deriving DecidableEq

/-- What a script returns: one string, or a table. -/
inductive LuaReply
  | Text (s : JsString)
  | Items (values : List LuaValue)
  deriving DecidableEq

/-- A Lua script: commands, and possibly an error. -/
abbrev Lua (α : Type) : Type := ExceptT LuaError (Prog RedisCommand RedisReply) α

namespace Lua

/-- A command, as a step of a script. -/
def call (c : RedisCommand) : Lua (RedisReply c) := ExceptT.lift (Prog.call c)

/-- `HMGET`: the values of some fields; a script sees a missing one as `false`, here `none`. -/
def hmget (k : JsString) (fields : List JsString) : Lua (List (Option JsString)) :=
  call (.Hmget k fields)

/-- `HGETALL`, as the flat table a script gets. -/
def hgetall (k : JsString) : Lua (List LuaValue) := do
  let rows ← call (.Hgetall k)
  return rows.flatMap fun p => [.Str p.1, .Str p.2]

/-- `HSET` of some fields. -/
def hset (k : JsString) (pairs : List (JsString × JsString)) : Lua Unit := call (.Hset k pairs)

/-- `HDEL` of some fields; a hash that loses its last field is gone. -/
def hdel (k : JsString) (fields : List JsString) : Lua Unit := call (.Hdel k fields)

/-- `DEL` of a key. -/
def del (k : JsString) : Lua Unit := call (.Del k)

/-- `PEXPIRE`: the deadline of a key, in milliseconds from now. -/
def pexpire (k : JsString) (milliseconds : ℤ) : Lua Unit := call (.Pexpire k milliseconds)

/-- `tonumber` of a field or an argument; `nil` for what is absent or no number. -/
def tonumber (text : Option JsString) : Option ℤ := text.bind Ecma.parseInt

/-- A number that is compared or added to; `nil` raises. -/
def number : Option ℤ → Lua ℤ
  | none => throw .NotANumber
  | some n => return n

section

variable {σ : Type} (m : (c : RedisCommand) → σ → RedisReply c × σ)

/-- A script in sequence, on whatever answers its commands: an error skips the rest. -/
lemma exec_run_bind {α β : Type} (x : Lua α) (f : α → Lua β) (s : σ) :
    exec m (ExceptT.run (x >>= f)) s
      = match exec m (ExceptT.run x) s with
        | (.ok a, s') => exec m (ExceptT.run (f a)) s'
        | (.error e, s') => (.error e, s') := by
  rw [ExceptT.run_bind, exec_bind]
  rcases exec m (ExceptT.run x) s with ⟨_ | a, s'⟩
  · rfl
  · rfl

lemma exec_number (n : ℤ) (s : σ) : exec m (ExceptT.run (number (some n))) s = (.ok n, s) := rfl

lemma exec_hmget (k : JsString) (fields : List JsString) (s : σ) :
    exec m (ExceptT.run (hmget k fields)) s
      = (.ok (m (.Hmget k fields) s).1, (m (.Hmget k fields) s).2) := rfl

end

/-- Run a script to its end. -/
def run {α : Type} (script : Lua α) (s : Keyspace) : Except LuaError α × Keyspace :=
  exec redisMachine (ExceptT.run script) s

section

variable {α β : Type} (s : Keyspace)

@[simp] lemma run_pure (a : α) : run (pure a : Lua α) s = (.ok a, s) := rfl

@[simp] lemma run_throw (e : LuaError) : run (throw e : Lua α) s = (.error e, s) := rfl

@[simp] lemma run_bind (x : Lua α) (f : α → Lua β) : run (x >>= f) s
    = match run x s with
      | (.ok a, s') => run (f a) s'
      | (.error e, s') => (.error e, s') := by
  rw [run, exec_run_bind, run]
  rcases exec redisMachine (ExceptT.run x) s with ⟨_ | a, s'⟩
  · rfl
  · rfl

@[simp] lemma run_hmget (k : JsString) (fields : List JsString) :
    run (hmget k fields) s = (.ok (fields.map (Keyspace.hash s k).get), s) := rfl

@[simp] lemma run_hgetall (k : JsString) : run (hgetall k) s
    = (.ok ((Keyspace.hash s k).rows.flatMap fun p => [.Str p.1, .Str p.2]), s) := rfl

@[simp] lemma run_hset (k : JsString) (pairs : List (JsString × JsString)) :
    run (hset k pairs) s = (.ok (), s.set k ((Keyspace.hash s k).setAll pairs)) := rfl

/-- Fields deleted from a hash that keeps another one. -/
lemma run_hdel {k : JsString} {fields : List JsString} (name : JsString) {v : JsString}
    (h : ((Keyspace.hash s k).deleteAll fields).get name = some v) :
    run (hdel k fields) s = (.ok (), s.set k ((Keyspace.hash s k).deleteAll fields)) := by
  have hne : ((Keyspace.hash s k).deleteAll fields).rows.isEmpty = false := by
    have hmem := OrderedMap.get_eq_some_iff.mp h
    cases hrows : ((Keyspace.hash s k).deleteAll fields).rows with
    | nil =>
        rw [hrows] at hmem
        cases hmem
    | cons p rest => rfl
  show (Except.ok (), if ((Keyspace.hash s k).deleteAll fields).rows.isEmpty then _ else _) = _
  rw [hne]
  rfl

/-- An expiry in the future is not seen. -/
lemma run_pexpire {k : JsString} {milliseconds : ℤ} (h : 0 < milliseconds) :
    run (pexpire k milliseconds) s = (.ok (), s) := by
  show (Except.ok (), if milliseconds ≤ 0 then _ else _) = _
  rw [if_neg (not_le.mpr h)]

@[simp] lemma run_del (k : JsString) : run (del k) s = (.ok (), s.delete k) := rfl

@[simp] lemma run_number (n : ℤ) : run (number (some n)) s = (.ok n, s) := rfl

lemma tonumber_intText (n : ℤ) : tonumber (some (Ecma.intText n)) = some n :=
  Ecma.parseInt_intText n

end

end Lua

end Anyonce
