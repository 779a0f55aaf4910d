import Anyonce.Core.Table
import Anyonce.Go.Queue

/-!
# What the Go queue options make of a message

`go/anyqmw/options.go`.  A header map is ranged over in an order the runtime chooses anew each time, so
the functions that do take that order, which is any arrangement of the entries.  `EqualFold`, the `%q`
of `fmt` and the hash are parameters.

* `Queue.headerValue`, `identityOf` — the identity, before it is validated.
* `queueName`, `scopeOf` — the scope.
* `queueMessage` — the message as the door sees it; its `resolveKey` is the door's.
-/

namespace Anyonce.Go

open Relational

/-! ## Messages -/

/-- The adapters of the switch, and any other. -/
inductive Driver
  | Memory
  | RedisStreams
  | SQS
  | Kafka
  | Pgmq
  | NATS
  | GooglePubSub
  | Other (name : GoString)
  deriving DecidableEq

/-- The name of a driver, as it stands in a scope. -/
def Driver.text : Driver → GoString
  | .Memory => ascii "memory"
  | .RedisStreams => ascii "redis-streams"
  | .SQS => ascii "sqs"
  | .Kafka => ascii "kafka"
  | .Pgmq => ascii "pgmq"
  | .NATS => ascii "nats"
  | .GooglePubSub => ascii "google-pubsub"
  | .Other name => name

/-- Where a message of a Redis stream came from. -/
structure RedisStreamsMetadata where
  stream : GoString := []
  consumerGroup : GoString := []

/-- What an adapter puts on the message: one pointer for each, nil where it is another's. -/
structure ProviderMetadata where
  provider : Driver
  memory : Option GoString := none
  redisStreams : Option RedisStreamsMetadata := none
  sqs : Option GoString := none
  kafka : Option GoString := none
  pgmq : Option GoString := none
  nats : Option GoString := none
  googlePubSub : Option GoString := none

/-- `core.MessageHeaders`. -/
abbrev MessageHeaders : Type := OrderedMap GoString (List UInt8)

/-- An order in which a map is ranged over. -/
abbrev RangeOrder : Type := List (GoString × List UInt8)

/-- What the door reads of a message. -/
structure Message where
  id : GoString
  body : List UInt8
  headers : MessageHeaders
  metadata : ProviderMetadata

/-! ## Options -/

/-- Where the key comes from: the message id, a header, or the hash of the body.  Any other text is a configuration error. -/
inductive KeySource
  | ID
  | Header
  | Body
  | Other (source : GoString)
  deriving DecidableEq

/-- The options that read a message.  An empty key source or key header is one that is not given. -/
structure MessageOptions where
  key : Option KeySource := none
  keyFunc : Option (Message → Except GoError GoString) := none
  keyHeader : GoString := []
  scope : GoString := []
  scopeFunc : Option (Message → Except GoError GoString) := none
  consumerGroup : GoString := []
  fingerprint : Option (Message → Except GoError GoString) := none

/-- The options after the defaults. -/
structure ResolvedOptions where
  key : KeySource
  keyFunc : Option (Message → Except GoError GoString)
  keyHeader : GoString
  scope : GoString
  scopeFunc : Option (Message → Except GoError GoString)
  consumerGroup : GoString
  fingerprint : Message → Except GoError GoString

/-- The header that carries the key by default. -/
def defaultKeyHeader : GoString := ascii "idempotency-key"

/-- An error that wraps `ErrConfiguration`. -/
def configuration (text : GoString) : QueueError :=
  .Options (.Opaque (ascii "anyqmw: configuration: " ++ text))

section

variable (sha256Hex : List UInt8 → GoString) (equalFold : GoString → GoString → Bool)
  (quoted : GoString → GoString)

/-- The options with what was left out filled in. -/
def withDefaults (o : MessageOptions) : ResolvedOptions where
  key := o.key.getD .ID
  keyFunc := o.keyFunc
  keyHeader := if o.keyHeader = [] then defaultKeyHeader else o.keyHeader
  scope := o.scope
  scopeFunc := o.scopeFunc
  consumerGroup := o.consumerGroup
  fingerprint := o.fingerprint.getD fun msg => .ok (sha256Hex msg.body)

/-! ## The identity -/

/-- The loop of `headerValue`. -/
def Queue.headerValue (order : RangeOrder) (name : GoString) : Option GoString :=
  match order with
  | [] => none
  | (field, value) :: rest => if equalFold field name then some value else Queue.headerValue rest name

/-- The refusal of a message without the header. -/
def noHeader (keyHeader : GoString) : QueueError :=
  configuration (ascii "key source \"header\" found no " ++ keyHeader
    ++ ascii " header on this message")

/-- What `resolveKey` validates. -/
def identityOf (o : ResolvedOptions) (msg : Message) (order : RangeOrder) :
    Except QueueError GoString :=
  match o.keyFunc with
  | some keyFunc => (keyFunc msg).mapError .Options
  | none =>
      match o.key with
      | .Body => .ok (sha256Hex msg.body)
      | .Header =>
          match Queue.headerValue equalFold order o.keyHeader with
          | none => .error (noHeader o.keyHeader)
          | some found => .ok found
      | .ID => .ok msg.id
      | .Other source => .error (configuration (ascii "unknown key source " ++ quoted source))

/-! ## The scope -/

/-- The queue and the consumer group of the adapter's own metadata. -/
def queueName (metadata : ProviderMetadata) : GoString × GoString :=
  match metadata.provider with
  | .Memory => (metadata.memory.getD [], [])
  | .RedisStreams =>
      ((metadata.redisStreams.getD {}).stream, (metadata.redisStreams.getD {}).consumerGroup)
  | .SQS => (metadata.sqs.getD [], [])
  | .Kafka => (metadata.kafka.getD [], [])
  | .Pgmq => (metadata.pgmq.getD [], [])
  | .NATS => (metadata.nats.getD [], [])
  | .GooglePubSub => (metadata.googlePubSub.getD [], [])
  | .Other _ => ([], [])

/-- The refusal of a message whose adapter names no queue. -/
def noQueue (provider : Driver) : QueueError :=
  configuration (ascii "the " ++ provider.text
    ++ ascii " adapter does not name its queue on the message; set Options.Scope")

/-- `resolveScope` of the queue door. -/
def scopeOf (o : ResolvedOptions) (msg : Message) : Except QueueError GoString :=
  match o.scopeFunc with
  | some scopeFunc => (scopeFunc msg).mapError .Options
  | none =>
      if o.scope ≠ [] then .ok o.scope
      else
        let (queue, group) := queueName msg.metadata
        if queue = [] then .error (noQueue msg.metadata.provider)
        else
          let group := if o.consumerGroup ≠ [] then o.consumerGroup else group
          if group = [] then .ok queue else .ok (queue ++ 0x2f :: group)

/-- The message as the door sees it, under one order of its headers. -/
def queueMessage (o : ResolvedOptions) (msg : Message) (order : RangeOrder) : QueueMessage where
  scope := scopeOf o msg
  identity := identityOf sha256Hex equalFold quoted o msg order
  fingerprint := (o.fingerprint msg).mapError .Options

end

end Anyonce.Go
