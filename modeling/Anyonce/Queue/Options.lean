import Anyonce.Core.Table
import Anyonce.Core.Utf8
import Anyonce.Jcs
import Anyonce.Queue.Door

/-!
# What the queue options make of a message

`packages/anyq/src/options.ts` and `fingerprint.ts`: the scope, the identity and the fingerprint of a
message.  The entries of an object are in the order `Object.entries` lists them; an optional property is
an `Option`.  The case mapping of names and the hash are parameters, and so is the value an error of the
canonicalizer is thrown as.

* `Queue.headerValue`, `identityOf` — the identity, before it is validated.
* `queueName`, `scopeOf` — the scope.
* `queueMessage` — the message as the door sees it; its `resolveKey` is the door's.
-/

namespace Anyonce

open NumberText Relational

/-! ## Messages -/

/-- The adapters of the switch, and any other. -/
inductive Provider
  | Memory
  | RedisStreams
  | Sqs
  | Kafka
  | Pgmq
  | Nats
  | GooglePubsub
  | CloudflareQueues
  | Other (name : JsString)
  deriving DecidableEq

/-- The name of a provider, as it stands in a scope. -/
def Provider.text : Provider → JsString
  | .Memory => js "memory"
  | .RedisStreams => js "redis-streams"
  | .Sqs => js "sqs"
  | .Kafka => js "kafka"
  | .Pgmq => js "pgmq"
  | .Nats => js "nats"
  | .GooglePubsub => js "google-pubsub"
  | .CloudflareQueues => js "cloudflare-queues"
  | .Other name => name

/-- The metadata of a Redis stream. -/
structure RedisStreamsMetadata where
  stream : Option JsString := none
  consumerGroup : Option JsString := none

/-- What an adapter puts on the message: one property for each, with the name of the queue in it. -/
structure ProviderMetadata where
  provider : Provider
  memory : Option JsString := none
  redisStreams : Option RedisStreamsMetadata := none
  sqs : Option JsString := none
  kafka : Option JsString := none
  pgmq : Option JsString := none
  nats : Option JsString := none
  googlePubsub : Option JsString := none
  cloudflareQueues : Option JsString := none

/-- A header value: bytes on brokers with binary headers. -/
inductive HeaderData
  | Text (text : JsString)
  | Bytes (bytes : List UInt8)

/-- The body of a message: text, bytes, or a value that was parsed. -/
inductive MessageBody (F : Type)
  | Text (text : JsString)
  | Bytes (bytes : List UInt8)
  | Value (value : JsValue F)

/-- What the door reads of a message. -/
structure IMessage (F : Type) where
  id : JsString
  body : MessageBody F
  headers : OrderedMap JsString (Option HeaderData)
  metadata : ProviderMetadata

/-! ## Options -/

section

variable {E F : Type}

/-- Where the key comes from: the message id, a header, the hash of the body, or a function of the user. -/
inductive KeySource (E F : Type)
  | Id
  | Header
  | Body
  | Function (f : IMessage F → Except E JsString)

/-- The scope given in the options: a text, or a function of the message. -/
inductive ScopeOverride (E F : Type)
  | Text (scope : JsString)
  | Function (f : IMessage F → Except E JsString)

/-- The options that read a message, as they are given. -/
structure MessageOptions (E F : Type) where
  key : Option (KeySource E F) := none
  keyHeader : Option JsString := none
  scope : Option (ScopeOverride E F) := none
  consumerGroup : Option JsString := none
  fingerprint : Option (IMessage F → Except E JsString) := none

/-- The options after the defaults. -/
structure ResolvedOptions (E F : Type) where
  key : KeySource E F
  keyHeader : JsString
  scope : Option (ScopeOverride E F)
  consumerGroup : Option JsString
  fingerprint : IMessage F → Except (QueueError E) JsString

/-- The header that carries the key by default. -/
def defaultKeyHeader : JsString := js "idempotency-key"

variable (d : Doubles F) (sha256Hex : List UInt8 → JsString) (thrown : JcsError → E)

/-- `messageFingerprint`: the hash of the text, of the bytes, or of the canonical form. -/
def messageFingerprint : MessageBody F → Except (QueueError E) JsString
  | .Text text => .ok (sha256Hex (Unicode.encode text))
  | .Bytes bytes => .ok (sha256Hex bytes)
  | .Value value =>
      match canonicalize d value with
      | .ok canonical => .ok (sha256Hex (Unicode.encode canonical))
      | .error cause => .error (.Fingerprint (thrown cause))

/-- `resolveOptions`, the part about the identity of a message: what was left out is filled in. -/
def resolveOptions (options : MessageOptions E F) : ResolvedOptions E F where
  key := options.key.getD .Id
  keyHeader := options.keyHeader.getD defaultKeyHeader
  scope := options.scope
  consumerGroup := options.consumerGroup
  fingerprint := match options.fingerprint with
    | some fingerprint => fun message => (fingerprint message).mapError .Thrown
    | none => fun message => messageFingerprint d sha256Hex thrown message.body

/-! ## The identity -/

variable (toLowerCase : JsString → JsString)

/-- A value as a string: bytes are decoded. -/
def HeaderData.text : HeaderData → JsString
  | .Text text => text
  | .Bytes bytes => Unicode.utf16 (Unicode.decode bytes)

/-- The loop of `headerValue`. -/
def findHeader (wanted : JsString) : List (JsString × Option HeaderData) → Option JsString
  | [] => none
  | (field, value) :: rest =>
      match value with
      | none => findHeader wanted rest
      | some data =>
          if toLowerCase field ≠ wanted then findHeader wanted rest else some data.text

/-- The value of a header under a name, in any case of its letters. -/
def Queue.headerValue (headers : OrderedMap JsString (Option HeaderData)) (name : JsString) :
    Option JsString :=
  findHeader toLowerCase (toLowerCase name) headers.rows

/-- The refusal of a message without the header. -/
def noHeader (keyHeader : JsString) : JsString :=
  js "anyonce: key source \"header\" found no " ++ keyHeader ++ js " header on this message"

/-- What `resolveKey` validates. -/
def identityOf (message : IMessage F) (options : ResolvedOptions E F) :
    Except (QueueError E) JsString :=
  match options.key with
  | .Function f => (f message).mapError .Thrown
  | .Id => .ok message.id
  | .Body => messageFingerprint d sha256Hex thrown message.body
  | .Header =>
      match Queue.headerValue toLowerCase message.headers options.keyHeader with
      | none => .error (.Configuration (noHeader options.keyHeader))
      | some found => .ok found

/-! ## The scope -/

/-- Q42: the queue and the group the adapter names. -/
def queueName (metadata : ProviderMetadata) : Option JsString × Option JsString :=
  match metadata.provider with
  | .Memory => (metadata.memory, none)
  | .RedisStreams =>
      (metadata.redisStreams.bind RedisStreamsMetadata.stream,
        metadata.redisStreams.bind RedisStreamsMetadata.consumerGroup)
  | .Sqs => (metadata.sqs, none)
  | .Kafka => (metadata.kafka, none)
  | .Pgmq => (metadata.pgmq, none)
  | .Nats => (metadata.nats, none)
  | .GooglePubsub => (metadata.googlePubsub, none)
  | .CloudflareQueues => (metadata.cloudflareQueues, none)
  | .Other _ => (none, none)

/-- The refusal of a message whose adapter names no queue. -/
def noQueue (provider : Provider) : JsString :=
  js "anyonce: the " ++ provider.text
    ++ js " adapter does not name its queue on the message; pass scope"

/-- `resolveScope` of the queue door. -/
def scopeOf (message : IMessage F) (options : ResolvedOptions E F) : Except (QueueError E) JsString :=
  match options.scope with
  | some (.Text scope) => .ok scope
  | some (.Function f) => (f message).mapError .Thrown
  | none =>
      let (queue, group) := queueName message.metadata
      match queue with
      | none => .error (.Configuration (noQueue message.metadata.provider))
      | some queue =>
          if queue = [] then .error (.Configuration (noQueue message.metadata.provider))
          else
            match options.consumerGroup.or group with
            | none => .ok queue
            | some group => if group = [] then .ok queue else .ok (queue ++ 0x2f :: group)

/-- The message as the door sees it. -/
def queueMessage (message : IMessage F) (options : ResolvedOptions E F) : QueueMessage E where
  scope := scopeOf message options
  identity := identityOf d sha256Hex thrown toLowerCase message options
  fingerprint := options.fingerprint message

end

end Anyonce
