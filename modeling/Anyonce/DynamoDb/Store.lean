import Anyonce.Claim.Store
import Anyonce.Core.Separator
import Anyonce.DynamoDb.Table
import Anyonce.Store.Codec

/-!
# The DynamoDB store

`DynamoDbStore` of `packages/stores/src/dynamodb.ts`: one item per record under the partition key
`scope ␟ key`, and one conditional write per state transition.  A refused write carries the old item
back, from which the method tells why it was refused.

The methods are programs over the requests of the client, and the reading of the wall clock that goes
into the native `ttl` attribute.  A request may fail with an error of the service or with any other.

* `beginCondition`, `beginUpdate`, `completeCondition`, `abandonCondition` — the expressions.
* `itemToRow` — the row an item stands for.
* `DynamoDbStore.program` — the calls of the store.
-/

namespace Anyonce

open Interaction

/-! ## Items -/

/-- The largest body an item takes, under the native cap of 400 KB. -/
def dynamodbMaxResultBytes : ℕ := 307200

/-- The scope and the key joined by the unit separator. -/
def itemKey (op : Operation) : JsString := op.scope ++ 0x1f :: op.key

/-- `splitItemKey`: the text is split on its first separator. -/
def splitItemKey (pk : JsString) : JsString × JsString := Separator.splitFirst 0x1f pk

/-- `item.name?.S`. -/
def Item.text (item : Item JsString) (a : Attribute) : Option JsString :=
  match item a with
  | some (.S text) => some text
  | _ => none

/-- `item.name?.N`. -/
def Item.number (item : Item JsString) (a : Attribute) : Option ℤ :=
  match item a with
  | some (.N number) => some number
  | _ => none

/-- `item.name?.B`. -/
def Item.bytes (item : Item JsString) (a : Attribute) : Option (List UInt8) :=
  match item a with
  | some (.B bytes) => some bytes
  | _ => none

/-- `item.state?.S ?? 'in_flight'`. -/
def Item.state (item : Item JsString) : Option RecordState :=
  match item.text .State with
  | none => some .InFlight
  | some text => stateOfText text

/-- The row an item stands for; `none` for a state no write stores. -/
def itemToRow (item : Item JsString) : Option (RecordRow JsString) := do
  let (scope, key) := splitItemKey ((item.text .Pk).getD [])
  let state ← item.state
  return {
    scope := scope
    key := key
    fingerprint := (item.text .Fingerprint).getD []
    state := state
    fence := (item.number .Fence).getD 0
    leaseUntil := (item.number .LeaseUntil).getD 0
    createdAt := (item.number .CreatedAt).getD 0
    expiresAt := (item.number .ExpiresAt).getD 0
    resultMeta := item.text .ResultMeta
    resultBody := item.bytes .ResultBody
    resultOmitted := (item.number .ResultOmitted).getD 0 }

/-! ## Expressions -/

/-- `BEGIN_CONDITION`. -/
def beginCondition (fp : JsString) (now : ℤ) : Condition JsString :=
  .Or (.NotExists .Pk) (.Or (.Compare .ExpiresAt .Le (.N now))
    (.And (.Compare .Fingerprint .Eq (.S fp))
      (.And (.Compare .State .Eq (.S (js "in_flight"))) (.Compare .LeaseUntil .Le (.N now)))))

/-- `BEGIN_UPDATE`. -/
def beginUpdate (fp : JsString) (now lease exp ttl : ℤ) : Update JsString where
  set :=
    [(.Fingerprint, .Value (.S fp)), (.State, .Value (.S (js "in_flight"))),
      (.Fence, .Plus (.IfNotExists .Fence (.N 0)) (.Value (.N 1))),
      (.LeaseUntil, .Value (.N lease)), (.CreatedAt, .Value (.N now)),
      (.ExpiresAt, .Value (.N exp)), (.Ttl, .Value (.N ttl)), (.ResultOmitted, .Value (.N 0))]
  remove := [.ResultMeta, .ResultBody]

/-- `COMPLETE_CONDITION`. -/
def completeCondition (fence now : ℤ) : Condition JsString :=
  .And (.Compare .Fence .Eq (.N fence)) (.And (.Compare .ExpiresAt .Gt (.N now))
    (.Compare .State .Eq (.S (js "in_flight"))))

/-- The update of `complete`: the body is set where there is one, and removed otherwise. -/
def completeUpdate (resultMeta : JsString) (omitted : Bool) (body : Option (List UInt8)) :
    Update JsString :=
  let set : List (Attribute × Operand JsString) :=
    [(.State, .Value (.S (js "completed"))), (.ResultMeta, .Value (.S resultMeta)),
      (.ResultOmitted, .Value (.N (if omitted then 1 else 0)))]
  match body with
  | some bytes => ⟨set ++ [(.ResultBody, .Value (.B bytes))], []⟩
  | none => ⟨set, [.ResultBody]⟩

/-- `ABANDON_CONDITION`. -/
def abandonCondition (fence : ℤ) : Condition JsString :=
  .And (.Compare .Fence .Eq (.N fence)) (.Compare .State .Eq (.S (js "in_flight")))

/-- The body `complete` stores: an omitted result has none. -/
def Completion.storedBody : Completion → Option (List UInt8)
  | .Omitted _ => none
  | .Stored result => result.body

/-! ## Requests of the client -/

/-- What the store asks of its client, and the wall clock it reads for the native deadline. -/
inductive DynamoCommand
  | DateNow
  | UpdateItem (pk : JsString) (cond : Condition JsString) (update : Update JsString)
  | DeleteItem (pk : JsString) (cond : Option (Condition JsString))
  | GetItem (pk : JsString)

/-- What the client throws: an error of the service, or any other. -/
inductive SdkError (X : Type)
  | Service (err : WriteError JsString)
  | Failed (err : X)

/-- What a request gives: the new item of an update, nothing for a deletion, the item that was read. -/
abbrev DynamoReply (X : Type) : DynamoCommand → Type
  | .DateNow => ℤ
  | .UpdateItem _ _ _ => Except (SdkError X) (Item JsString)
  | .DeleteItem _ _ => Except (SdkError X) Unit
  | .GetItem _ => Except (SdkError X) (Option (Item JsString))

/-- A method of the store: what it asks, and what it makes of the replies. -/
abbrev DynamoProg (X α : Type) : Type := Prog DynamoCommand (DynamoReply X) α

/-- What a method throws: the error of a request, an error of its own, or the error of a row that
cannot be read. -/
inductive DynamoFailure (X : Type)
  | Thrown (err : SdkError X)
  | Raised (message : String)
  | Malformed

/-- `rowToRecord(row)`. -/
def readItem {X : Type} (row : RecordRow JsString) : Except (DynamoFailure X) IdempotencyRecord :=
  match rowToRecord row with
  | none => .error .Malformed
  | some record => .ok record

/-! ## The store -/

/-- `DynamoDbStoreOptions`, without the client and the name of the table. -/
structure DynamoDbStore where
  grace : ℤ := 60000

namespace DynamoDbStore

variable {X : Type}

/-- The refusal that cannot be classified. -/
def unclassifiable : String :=
  "anyonce: dynamodb refused the begin write without returning the old item, so the refusal " ++
  "cannot be classified; the endpoint must honour ReturnValuesOnConditionCheckFailure (DynamoDB " ++
  "Local 2.x or later, or a live table)"

/-- The error after the loop. -/
def unsettled : String :=
  "anyonce: dynamodb begin could not settle after three attempts; the row for this scope and key " ++
  "expired or was rewritten between every conditional write and its classification, or the stored " ++
  "row is malformed (expires_at not a number)"

/-- The error of a body that does not fit. -/
def tooLarge (length : ℕ) : String :=
  s!"anyonce: dynamodb cannot store a {length} byte body because an item is capped at 400 KB " ++
  s!"(Q20); set maxResultBytes to at most {dynamodbMaxResultBytes} so a larger result is stored " ++
  "in the omitted form instead"

/-- The turn of the loop after a refused write: `none` is `continue`, or the end of the body. -/
def classify (op : Operation) (opts : BeginOptions) (item : Item JsString) :
    Option (Except (DynamoFailure X) (BeginOutcome IdempotencyRecord)) :=
  match itemToRow item with
  | none => some (.error .Malformed)
  | some row =>
      if row.expiresAt ≤ opts.now then none
      else
        match readItem row with
        | .error err => some (.error err)
        | .ok record =>
            if row.fingerprint ≠ op.fingerprint then some (.ok (.Mismatch record))
            else if row.state = .Completed then some (.ok (.Completed record))
            else if row.leaseUntil > opts.now then some (.ok (.InFlight row.leaseUntil))
            else none

/-- What the conditional write of `begin` came to. -/
def afterBegin (op : Operation) (opts : BeginOptions) :
    Except (SdkError X) (Item JsString) →
      Option (Except (DynamoFailure X) (BeginOutcome IdempotencyRecord))
  | .ok attributes =>
      match attributes.number .Fence with
      | some fence => some (.ok (.Acquired fence))
      | none => some (.error .Malformed)
  | .error (.Service (.ConditionalCheckFailed none)) => some (.error (.Raised unclassifiable))
  | .error (.Service (.ConditionalCheckFailed (some item))) => classify op opts item
  | .error err => some (.error (.Thrown err))

/-- The conditional write of `begin`, with the wall clock reading of its attempt. -/
def beginWrite (op : Operation) (opts : BeginOptions) (ttlSeconds : ℤ) : DynamoCommand :=
  .UpdateItem (itemKey op) (beginCondition op.fingerprint opts.now)
    (beginUpdate op.fingerprint opts.now (opts.now + opts.leaseMs) (opts.now + opts.ttlMs) ttlSeconds)

/-- One turn of the loop. -/
def beginAttempt (store : DynamoDbStore) (op : Operation) (opts : BeginOptions) :
    DynamoProg X (Option (Except (DynamoFailure X) (BeginOutcome IdempotencyRecord))) := do
  let wall ← Prog.call .DateNow
  let reply ← Prog.call (beginWrite op opts ((wall + opts.ttlMs + store.grace) / 1000))
  return afterBegin op opts reply

/-- Three attempts at the conditional write, and an error when none of them settled. -/
def begin (store : DynamoDbStore) (op : Operation) (opts : BeginOptions) :
    DynamoProg X (Except (DynamoFailure X) (BeginOutcome IdempotencyRecord)) :=
  Prog.retry (store.beginAttempt op opts) (.error (.Raised unsettled)) 3

/-- What the conditional write of `complete` came to. -/
def afterComplete (fence now : ℤ) :
    Except (SdkError X) (Item JsString) → Except (DynamoFailure X) CompleteStatus
  | .ok _ => .ok .Ok
  | .error (.Service (.ConditionalCheckFailed none)) => .ok .NotFound
  | .error (.Service (.ConditionalCheckFailed (some item))) =>
      match itemToRow item with
      | none => .error .Malformed
      | some row =>
          if row.expiresAt ≤ now then .ok .NotFound
          else if row.fence ≠ fence then .ok .StaleFence
          else .ok .Ok
  | .error err => .error (.Thrown err)

/-- A body above the limit is refused before any request; otherwise one conditional update, and a refused one is told
apart by the item it was refused for. -/
def complete (op : Operation) (fence : ℤ) (result : Completion) (now : ℤ) :
    DynamoProg X (Except (DynamoFailure X) CompleteStatus) :=
  if dynamodbMaxResultBytes < (result.storedBody.getD []).length then
    Prog.Ret (.error (.Raised (tooLarge (result.storedBody.getD []).length)))
  else do
    let reply ← Prog.call (.UpdateItem (itemKey op) (completeCondition fence now)
      (completeUpdate (encodeResultMeta result) result.isOmitted result.storedBody))
    return afterComplete fence now reply

/-- What the conditional deletion of `abandon` came to. -/
def afterAbandon (fence : ℤ) :
    Except (SdkError X) Unit → Except (DynamoFailure X) CompleteStatus
  | .ok _ => .ok .Ok
  | .error (.Service (.ConditionalCheckFailed none)) => .ok .NotFound
  | .error (.Service (.ConditionalCheckFailed (some item))) =>
      match itemToRow item with
      | none => .error .Malformed
      | some row =>
          if row.state ≠ .InFlight then .ok .NotFound
          else if row.fence = fence then .ok .NotFound
          else .ok .StaleFence
  | .error err => .error (.Thrown err)

/-- One conditional deletion. -/
def abandon (op : Operation) (fence : ℤ) :
    DynamoProg X (Except (DynamoFailure X) CompleteStatus) := do
  let reply ← Prog.call (.DeleteItem (itemKey op) (some (abandonCondition fence)))
  return afterAbandon fence reply

/-- What `get` makes of the item it read. -/
def afterGet (now : ℤ) :
    Except (SdkError X) (Option (Item JsString)) →
      Except (DynamoFailure X) (Option IdempotencyRecord)
  | .error err => .error (.Thrown err)
  | .ok none => .ok none
  | .ok (some item) =>
      match itemToRow item with
      | none => .error .Malformed
      | some row => if row.expiresAt > now then (readItem row).map some else .ok none

/-- One consistent reading; an expired item counts as absent. -/
def get (op : Operation) (now : ℤ) :
    DynamoProg X (Except (DynamoFailure X) (Option IdempotencyRecord)) := do
  let reply ← Prog.call (.GetItem (itemKey op))
  return afterGet now reply

/-- Native TTL sweeps expired items; nothing to do here. -/
def purge (_now : ℤ) : DynamoProg X (Except (DynamoFailure X) ℕ) := Prog.Ret (.ok 0)

/-- Test-only: what a TTL sweep would do. -/
def physicallyRemove (op : Operation) : DynamoProg X (Except (DynamoFailure X) Unit) := do
  let reply : Except (SdkError X) Unit ← Prog.call (DynamoCommand.DeleteItem (itemKey op) none)
  return reply.mapError .Thrown

/-- One call of the store, as the requests it sends. -/
def program (store : DynamoDbStore) : (c : StoreCall Operation BeginOptions Completion) →
    DynamoProg X (Except (DynamoFailure X) (StoreReply IdempotencyRecord c))
  | .Begin op opts => store.begin op opts
  | .Complete op fence result now => complete op fence result now
  | .Abandon op fence => abandon op fence
  | .Get op now => get op now
  | .Purge now => purge now
  | .PhysicallyRemove op => physicallyRemove op

end DynamoDbStore

end Anyonce
