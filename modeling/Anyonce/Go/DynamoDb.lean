import Anyonce.DynamoDb.Store
import Anyonce.Go.SqlStore

/-!
# The Go DynamoDB store

`dynamodb.Store` of `go/store/dynamodb/dynamodb.go`.  The expressions are byte for byte those of the
TypeScript store and the methods are its methods, except that Go times are nanoseconds and the
attributes whole milliseconds, that the native `ttl` attribute is the wall clock in whole seconds, and
that a number which cannot be read counts as zero.

* `beginCondition`, `beginUpdate`, `completeCondition`, `abandonCondition` — the expressions.
* `itemToRow` — the row an item stands for.
* `DynamoDbStore.program` — the calls of the store.
-/

namespace Anyonce.Go

open Interaction

/-! ## Items -/

/-- The largest body an item takes, under the native cap of 400 KB. -/
def maxResultBytes : ℕ := 307200

/-- The scope and the key joined by the unit separator. -/
def itemKey (op : Operation) : GoString := op.scope ++ 0x1f :: op.key

/-- `splitKey` undoes `ItemKey`, splitting on the first separator. -/
def splitKey (pk : GoString) : GoString × GoString := Separator.splitFirst 0x1f pk

/-- The number of an attribute, or zero. -/
def readNum (item : Item GoString) (name : Attribute) : ℤ :=
  match item name with
  | some (.N number) => number
  | _ => 0

/-- The text of an attribute, or the empty string. -/
def readStr (item : Item GoString) (name : Attribute) : GoString :=
  match item name with
  | some (.S text) => text
  | _ => []

/-- The state a text stands for; an item without one is in flight. -/
def stateOf (text : GoString) : Option RecordState :=
  if text = [] then some .InFlight
  else if text = ascii "in_flight" then some .InFlight
  else if text = ascii "completed" then some .Completed
  else none

/-- The row an item stands for; `none` for a state no write stores. -/
def itemToRow (item : Item GoString) : Option (RecordRow GoString) := do
  let (scope, k) := splitKey (readStr item .Pk)
  let state ← stateOf (readStr item .State)
  return {
    scope := scope
    key := k
    fingerprint := readStr item .Fingerprint
    state := state
    fence := readNum item .Fence
    leaseUntil := readNum item .LeaseUntil
    createdAt := readNum item .CreatedAt
    expiresAt := readNum item .ExpiresAt
    resultMeta :=
      match item .ResultMeta with
      | some (.S text) => some text
      | _ => none
    resultBody :=
      match item .ResultBody with
      | some (.B bytes) => some bytes
      | _ => none
    resultOmitted := readNum item .ResultOmitted }

/-! ## Expressions -/

/-- The condition of the claim: no item, an expired one, or a lapsed claim of the same payload. -/
def beginCondition (fp : GoString) (now : ℤ) : Condition GoString :=
  .Or (.NotExists .Pk) (.Or (.Compare .ExpiresAt .Le (.N now))
    (.And (.Compare .Fingerprint .Eq (.S fp))
      (.And (.Compare .State .Eq (.S (ascii "in_flight"))) (.Compare .LeaseUntil .Le (.N now)))))

/-- The update of the claim: the next fence, the new terms, and nothing left of an earlier result. -/
def beginUpdate (fp : GoString) (now lease exp ttl : ℤ) : Update GoString where
  set :=
    [(.Fingerprint, .Value (.S fp)), (.State, .Value (.S (ascii "in_flight"))),
      (.Fence, .Plus (.IfNotExists .Fence (.N 0)) (.Value (.N 1))),
      (.LeaseUntil, .Value (.N lease)), (.CreatedAt, .Value (.N now)),
      (.ExpiresAt, .Value (.N exp)), (.Ttl, .Value (.N ttl)), (.ResultOmitted, .Value (.N 0))]
  remove := [.ResultMeta, .ResultBody]

/-- The condition of `Complete`: a live item in flight under the fence. -/
def completeCondition (fence now : ℤ) : Condition GoString :=
  .And (.Compare .Fence .Eq (.N fence)) (.And (.Compare .ExpiresAt .Gt (.N now))
    (.Compare .State .Eq (.S (ascii "in_flight"))))

/-- The update of `Complete`: the body is set where there is one, and removed otherwise. -/
def completeUpdate (resultMeta : GoString) (omitted : Bool) (body : Option (List UInt8)) :
    Update GoString :=
  let set : List (Attribute × Operand GoString) :=
    [(.State, .Value (.S (ascii "completed"))), (.ResultMeta, .Value (.S resultMeta)),
      (.ResultOmitted, .Value (.N (if omitted then 1 else 0)))]
  match omitted, body with
  | false, some bytes => ⟨set ++ [(.ResultBody, .Value (.B bytes))], []⟩
  | _, _ => ⟨set, [.ResultBody]⟩

/-- The condition of `Abandon`: an item in flight under the fence, expired or not. -/
def abandonCondition (fence : ℤ) : Condition GoString :=
  .And (.Compare .Fence .Eq (.N fence)) (.Compare .State .Eq (.S (ascii "in_flight")))

/-! ## Requests of the client -/

/-- What the store asks of its client, and the wall clock it reads for the native deadline. -/
inductive DynamoCommand
  | TimeNow
  | UpdateItem (pk : GoString) (cond : Condition GoString) (update : Update GoString)
  | DeleteItem (pk : GoString) (cond : Option (Condition GoString))
  | GetItem (pk : GoString)

/-- An error of the client: one of the service, or any other. -/
inductive ClientError
  | Service (err : WriteError GoString)
  | Failed (err : GoError)

/-- What a request gives. -/
abbrev DynamoReply : DynamoCommand → Type
  | .TimeNow => ℤ
  | .UpdateItem _ _ _ => Except ClientError (Item GoString)
  | .DeleteItem _ _ => Except ClientError Unit
  | .GetItem _ => Except ClientError (Option (Item GoString))

/-- A method of the store: what it asks, and what it makes of the replies. -/
abbrev DynamoProg (α : Type) : Type := Prog DynamoCommand DynamoReply α

/-- What a method returns as its error: that of a request under its context, a refusal that carried no
old item, a `Begin` that did not settle, a body that does not fit, metadata that does not encode, or an
item with a state that no write stores. -/
inductive DynamoError
  | Request (context : GoString) (err : ClientError)
  | UnclassifiableRefusal
  | Unsettled
  | TooLarge (length : ℕ)
  | Encode (err : SqlError)
  | Malformed

/-! ## The store -/

/-- `Store`, without the client and the name of the table. -/
structure DynamoDbStore where
  grace : ℤ

/-- One minute, in nanoseconds. -/
def defaultNativeTTLGrace : ℤ := 60 * 1000000000

namespace DynamoDbStore

/-- `New`: a grace of zero is the default. -/
def new (nativeTTLGrace : ℤ) : DynamoDbStore :=
  ⟨if nativeTTLGrace = 0 then defaultNativeTTLGrace else nativeTTLGrace⟩

section

variable (json : MetaJson)

/-- The turn of the loop after a refused write: `none` is `continue`, or the end of the body. -/
def classify (op : Operation) (opts : BeginOptions) (item : Item GoString) :
    Option (Except DynamoError (BeginOutcome Record)) :=
  match itemToRow item with
  | none => some (.error .Malformed)
  | some row =>
      if row.expiresAt ≤ ms opts.now then none
      else
        let record := toRecord json row
        if row.fingerprint ≠ op.fingerprint then some (.ok (.Mismatch record))
        else if row.state = .Completed then some (.ok (.Completed record))
        else if row.leaseUntil > ms opts.now then some (.ok (.InFlight (unixMilli row.leaseUntil)))
        else none

/-- What the conditional write of `Begin` came to. -/
def afterBegin (op : Operation) (opts : BeginOptions) :
    Except ClientError (Item GoString) → Option (Except DynamoError (BeginOutcome Record))
  | .ok attributes => some (.ok (.Acquired (readNum attributes .Fence)))
  | .error (.Service (.ConditionalCheckFailed none)) => some (.error .UnclassifiableRefusal)
  | .error (.Service (.ConditionalCheckFailed (some item))) => classify json op opts item
  | .error err => some (.error (.Request (ascii "dynamodb: begin") err))

/-- The conditional write of `Begin`, with the native deadline of its attempt. -/
def beginWrite (op : Operation) (opts : BeginOptions) (ttlSeconds : ℤ) : DynamoCommand :=
  .UpdateItem (itemKey op) (beginCondition op.fingerprint (ms opts.now))
    (beginUpdate op.fingerprint (ms opts.now) (ms (opts.now + opts.lease)) (ms (opts.now + opts.ttl))
      ttlSeconds)

/-- One turn of the loop. -/
def beginAttempt (s : DynamoDbStore) (op : Operation) (opts : BeginOptions) :
    DynamoProg (Option (Except DynamoError (BeginOutcome Record))) := do
  let wall ← Prog.call .TimeNow
  -- The two durations are added before the clock is: their sum is an `int64` and wraps.
  let reply ← Prog.call (beginWrite op opts ((wall + wrapInt (opts.ttl + s.grace)) / 1000000000))
  return afterBegin json op opts reply

/-- Three attempts at the conditional write, and an error when none of them settled. -/
def begin (s : DynamoDbStore) (op : Operation) (opts : BeginOptions) :
    DynamoProg (Except DynamoError (BeginOutcome Record)) :=
  Prog.retry (s.beginAttempt json op opts) (.error .Unsettled) 3

/-- What the conditional write of `Complete` came to. -/
def afterComplete (fence now : ℤ) :
    Except ClientError (Item GoString) → Except DynamoError CompleteStatus
  | .ok _ => .ok .Ok
  | .error (.Service (.ConditionalCheckFailed none)) => .ok .NotFound
  | .error (.Service (.ConditionalCheckFailed (some item))) =>
      match itemToRow item with
      | none => .error .Malformed
      | some row =>
          if row.expiresAt ≤ ms now then .ok .NotFound
          else if row.fence ≠ fence then .ok .StaleFence
          else .ok .Ok
  | .error err => .error (.Request (ascii "dynamodb: complete") err)

/-- A body above the limit, or metadata that does not encode, is refused before any request. -/
def complete (op : Operation) (fence : ℤ) (result : StoredResult) (now : ℤ) :
    DynamoProg (Except DynamoError CompleteStatus) :=
  if !result.omitted && decide (maxResultBytes < (result.body.getD []).length) then
    Prog.Ret (.error (.TooLarge (result.body.getD []).length))
  else
    match encodeMeta json result with
    | .error err => Prog.Ret (.error (.Encode err))
    | .ok text => do
        let reply ← Prog.call (.UpdateItem (itemKey op) (completeCondition fence (ms now))
          (completeUpdate text result.omitted result.body))
        return afterComplete fence now reply

/-- What the conditional deletion of `Abandon` came to. -/
def afterAbandon (fence : ℤ) : Except ClientError Unit → Except DynamoError CompleteStatus
  | .ok _ => .ok .Ok
  | .error (.Service (.ConditionalCheckFailed none)) => .ok .NotFound
  | .error (.Service (.ConditionalCheckFailed (some item))) =>
      match itemToRow item with
      | none => .error .Malformed
      | some row =>
          if row.state ≠ .InFlight then .ok .NotFound
          else if row.fence = fence then .ok .NotFound
          else .ok .StaleFence
  | .error err => .error (.Request (ascii "dynamodb: abandon") err)

/-- One conditional deletion. -/
def abandon (op : Operation) (fence : ℤ) : DynamoProg (Except DynamoError CompleteStatus) := do
  let reply ← Prog.call (.DeleteItem (itemKey op) (some (abandonCondition fence)))
  return afterAbandon fence reply

/-- What `Get` makes of the item it read. -/
def afterGet (now : ℤ) :
    Except ClientError (Option (Item GoString)) → Except DynamoError (Option Record)
  | .error err => .error (.Request (ascii "dynamodb: get") err)
  | .ok none => .ok none
  | .ok (some item) =>
      match itemToRow item with
      | none => .error .Malformed
      | some row => if row.expiresAt ≤ ms now then .ok none else .ok (some (toRecord json row))

/-- One consistent reading; an expired item counts as absent. -/
def get (op : Operation) (now : ℤ) : DynamoProg (Except DynamoError (Option Record)) := do
  let reply ← Prog.call (.GetItem (itemKey op))
  return afterGet json now reply

/-- The native attribute sweeps expired items. -/
def purge (_now : ℤ) : DynamoProg (Except DynamoError ℕ) := Prog.Ret (.ok 0)

/-- Test-only: what a TTL sweep does. -/
def physicallyRemove (op : Operation) : DynamoProg (Except DynamoError Unit) := do
  let reply : Except ClientError Unit ← Prog.call (DynamoCommand.DeleteItem (itemKey op) none)
  return reply.mapError (.Request (ascii "dynamodb: physically remove"))

/-- One call of the store, as the requests it sends. -/
def program (s : DynamoDbStore) : (c : StoreCall Operation BeginOptions StoredResult) →
    DynamoProg (Except DynamoError (StoreReply Record c))
  | .Begin op opts => s.begin json op opts
  | .Complete op fence result now => complete json op fence result now
  | .Abandon op fence => abandon op fence
  | .Get op now => get json op now
  | .Purge now => purge now
  | .PhysicallyRemove op => physicallyRemove op

end

end DynamoDbStore

/-- The table that answers every request, under a wall clock that stands still. -/
def dynamoMachine (wall : ℤ) : (c : DynamoCommand) → Items GoString → DynamoReply c × Items GoString
  | .TimeNow, items => (wall, items)
  | .UpdateItem pk cond update, items =>
      ((updateItem items pk cond update).1.mapError .Service, (updateItem items pk cond update).2)
  | .DeleteItem pk cond, items =>
      ((deleteItem items pk cond).1.mapError .Service, (deleteItem items pk cond).2)
  | .GetItem pk, items => (.ok (getItem items pk), items)

end Anyonce.Go
