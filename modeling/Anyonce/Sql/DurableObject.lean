import Anyonce.Sql.Programs

/-!
# The Durable Object

`IdempotencyObject` of `packages/stores/src/durable-objects.ts`: the shared statements over the
object's own table, beside a second table with the wall-clock expiry of each row and the alarm that
sweeps by it.  One object is one writer, so a method runs from its first statement to its last
without another one in between, and is written here as a function on the state.

`DurableObjectsStore` is the Worker side: it picks the object by the scope, or by the scope and the
key, and passes the call on.

The tables exist from the start: `init` creates them when they are missing, and does nothing else.
`Date.now()` and the grace the Worker passes come with each call as a `Wall`.
-/

namespace Anyonce

open Relational

/-- A row of `anyonce_sweep`. -/
structure SweepRow where
  scope : JsString
  key : JsString
  expiresWall : ℤ
  deriving DecidableEq

/-- The primary key of `anyonce_sweep`. -/
def SweepRow.primaryKey (row : SweepRow) : JsString × JsString := (row.scope, row.key)

/-- The table `anyonce_sweep`. -/
abbrev Sweep : Type := Table SweepRow.primaryKey

/-- The wall clock at a call, and the grace the Worker passes with it. -/
structure Wall where
  dateNow : ℤ
  graceMs : ℤ
  deriving DecidableEq

/-- The storage of one object: both tables, and the time the alarm is set to. -/
structure IdempotencyObject where
  records : Records JsString
  sweep : Sweep
  alarmAt : Option ℤ

namespace IdempotencyObject

/-- An object that was never addressed: no rows, no sweep entries, no alarm. -/
def empty : IdempotencyObject := ⟨Table.empty, Table.empty, none⟩

/-! ## The statements over the sweep table -/

/-- `SWEEP_UPSERT_SQL`. -/
def sweepUpsert (sweep : Sweep) (scope key : JsString) (expiresWall : ℤ) : Sweep :=
  sweep.put ⟨scope, key, expiresWall⟩

/-- `SWEEP_REMOVE_SQL`. -/
def sweepRemove (sweep : Sweep) (scope key : JsString) : Sweep :=
  sweep.remove fun row => row.primaryKey = (scope, key)

/-- `SWEEP_PRUNE_SQL`: drops the entries whose record is gone. -/
def sweepPrune (sweep : Sweep) (records : Records JsString) : Sweep :=
  sweep.remove fun row => !records.rows.any fun r => r.primaryKey = row.primaryKey

/-- `SWEEP_DUE_SQL`. -/
def sweepDue (sweep : Sweep) (dateNow : ℤ) : List SweepRow :=
  sweep.rows.filter fun row => row.expiresWall ≤ dateNow

/-- `SWEEP_NEXT_SQL`: the smallest expiry, `NULL` over no rows. -/
def sweepNext (sweep : Sweep) : Option ℤ := (sweep.rows.map SweepRow.expiresWall).min?

/-! ## The methods -/

section

variable {X : Type} (o : IdempotencyObject)

/-- Writes the wall-clock deadline of a claim and moves the alarm forward to it; an earlier alarm stays. -/
def scheduleSweep (wall : Wall) (scope key : JsString) (expiresAt now : ℤ) : IdempotencyObject :=
  let at_ := wall.dateNow + (expiresAt - now) + wall.graceMs
  { o with
    sweep := sweepUpsert o.sweep scope key at_
    alarmAt :=
      match o.alarmAt with
      | none => some at_
      | some current => if current > at_ then some at_ else some current }

/-- One turn of the loop: `none` is `continue`.  The turn after the `SELECT` is that of `D1Store`. -/
def beginAttempt (wall : Wall) (op : Operation) (opts : BeginOptions) :
    Option (Except (SqlFailure X) (BeginOutcome IdempotencyRecord)) × IdempotencyObject :=
  match beginSql o.records op.columns opts.columns with
  | (some fence, records) =>
      (some (.ok (.Acquired fence)),
        { o with records := records }.scheduleSweep wall op.scope op.key (opts.now + opts.ttlMs)
          opts.now)
  | (none, records) =>
      (D1Store.classify op opts (selectSql records op.scope op.key), { o with records := records })

/-- The attempts that are left, and the error after the last. -/
def beginLoop (wall : Wall) (op : Operation) (opts : BeginOptions) : ℕ → IdempotencyObject →
    Except (SqlFailure X) (BeginOutcome IdempotencyRecord) × IdempotencyObject
  | 0, o =>
      (.error (.Unsettled (js "anyonce: durable object begin could not settle after three attempts")),
        o)
  | attempts + 1, o =>
      match o.beginAttempt wall op opts with
      | (some out, o) => (out, o)
      | (none, o) => beginLoop wall op opts attempts o

/-- The loop of three attempts, inside one object and so without a race. -/
def begin (wall : Wall) (op : Operation) (opts : BeginOptions) :
    Except (SqlFailure X) (BeginOutcome IdempotencyRecord) × IdempotencyObject :=
  beginLoop wall op opts 3 o

/-- One statement, and the classification of a refused one.  The sweep entry stays until its deadline. -/
def complete (op : Operation) (fence : ℤ) (result : Completion) (now : ℤ) :
    CompleteStatus × IdempotencyObject :=
  match completeSql o.records op.scope op.key fence now result.columns with
  | (some _, records) => (.Ok, { o with records := records })
  | (none, records) =>
      (completeStatus fence now (selectSql records op.scope op.key), { o with records := records })

/-- One statement; a claim that is deleted takes its sweep entry along. -/
def abandon (op : Operation) (fence : ℤ) : CompleteStatus × IdempotencyObject :=
  match abandonSql o.records op.scope op.key fence with
  | (some _, records) =>
      (.Ok, { o with records := records, sweep := sweepRemove o.sweep op.scope op.key })
  | (none, records) =>
      (abandonStatus fence (selectSql records op.scope op.key), { o with records := records })

/-- The live row, decoded. -/
def get (op : Operation) (now : ℤ) : Except (SqlFailure X) (Option IdempotencyRecord) :=
  match getSql o.records op.scope op.key now with
  | none => .ok none
  | some row => (readRow row).map some

/-- Deletes the rows that expired at the caller's clock; only when there were any, the sweep entries without a row go too. -/
def purge (now : ℤ) : ℕ × IdempotencyObject :=
  let (removed, records) := purgeSql o.records now
  (removed,
    { o with
      records := records
      sweep := if removed > 0 then sweepPrune o.sweep records else o.sweep })

/-- Test-only: deletes one row, expired or not, and its sweep entry. -/
def physicallyRemove (op : Operation) : IdempotencyObject :=
  { o with
    records := (removeSql o.records op.scope op.key).2
    sweep := sweepRemove o.sweep op.scope op.key }

/-- Delete the rows of the sweep entries that are due, and the entries. -/
def removeDue (due : List SweepRow) : IdempotencyObject :=
  due.foldl (fun o row =>
    { o with
      records := (removeSql o.records row.scope row.key).2
      sweep := sweepRemove o.sweep row.scope row.key }) o

/-- Deletes rows whose wall-clock expiry passed and reschedules for the earliest remaining one. -/
def alarm (dateNow : ℤ) : IdempotencyObject :=
  let swept := o.removeDue (sweepDue o.sweep dateNow)
  match sweepNext swept.sweep with
  | none => swept
  | some next => { swept with alarmAt := some next }

/-- One call of the object, under the wall clock at that call. -/
def apply (wall : Wall) : (c : StoreCall Operation BeginOptions Completion) →
    Except (SqlFailure X) (StoreReply IdempotencyRecord c) × IdempotencyObject
  | .Begin op opts => o.begin wall op opts
  | .Complete op fence result now =>
      (.ok (o.complete op fence result now).1, (o.complete op fence result now).2)
  | .Abandon op fence => (.ok (o.abandon op fence).1, (o.abandon op fence).2)
  | .Get op now => (o.get op now, o)
  | .Purge now => (.ok (o.purge now).1, (o.purge now).2)
  | .PhysicallyRemove op => (.ok (), o.physicallyRemove op)

end

end IdempotencyObject

/-! ## The Worker side -/

/-- One object per scope, or per scope and key. -/
inductive Shard
  | Scope
  | ScopeKey
  deriving DecidableEq

/-- `DurableObjectsStoreOptions`, without the namespace. -/
structure DurableObjectsStore where
  shard : Shard := .Scope
  grace : ℤ := 60000
  trackForPurge : Bool := false

/-- What a Worker addresses: the objects of the namespace, each there from the start, and the names
it has addressed so far. -/
structure Worker where
  objects : JsString → IdempotencyObject
  touched : List JsString

namespace DurableObjectsStore

variable {X : Type} (store : DurableObjectsStore)

/-- The name of the object that owns the scope, or the scope and the key. -/
def objectName (op : Operation) : JsString :=
  match store.shard with
  | .Scope => op.scope
  | .ScopeKey => op.scope ++ 0x1f :: op.key

/-- `stub`: the name is remembered when `trackForPurge` is set. -/
def stub (w : Worker) (op : Operation) : Worker :=
  if store.trackForPurge && !w.touched.contains (store.objectName op) then
    { w with touched := w.touched ++ [store.objectName op] }
  else w

/-- One RPC to the object of an operation. -/
def rpc (w : Worker) (dateNow : ℤ) (op : Operation) (c : StoreCall Operation BeginOptions Completion) :
    Except (SqlFailure X) (StoreReply IdempotencyRecord c) × Worker :=
  let w := store.stub w op
  let name := store.objectName op
  let (reply, o) := (w.objects name).apply ⟨dateNow, store.grace⟩ c
  (reply, { w with objects := fun other => if other = name then o else w.objects other })

/-- `purge` sweeps the objects this instance has addressed, and forgets their names. -/
def purge (w : Worker) (now : ℤ) : ℕ × Worker :=
  if store.trackForPurge then
    let (removed, objects) := w.touched.foldl (fun (removed, objects) name =>
      (removed + ((objects name).purge now).1,
        fun other => if other = name then ((objects name).purge now).2 else objects other))
      (0, w.objects)
    (removed, ⟨objects, []⟩)
  else (0, w)

/-- One call of the store, with the wall clock at the call. -/
def apply (dateNow : ℤ) (c : StoreCall Operation BeginOptions Completion) (w : Worker) :
    Except (SqlFailure X) (StoreReply IdempotencyRecord c) × Worker :=
  match c with
  | .Begin op opts => store.rpc w dateNow op (.Begin op opts)
  | .Complete op fence result now => store.rpc w dateNow op (.Complete op fence result now)
  | .Abandon op fence => store.rpc w dateNow op (.Abandon op fence)
  | .Get op now => store.rpc w dateNow op (.Get op now)
  | .Purge now => (.ok (store.purge w now).1, (store.purge w now).2)
  | .PhysicallyRemove op => store.rpc w dateNow op (.PhysicallyRemove op)

end DurableObjectsStore

end Anyonce
