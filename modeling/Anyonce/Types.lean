import Anyonce.Core.Decimal

/-!
# The data model of the store contract

The types of `packages/core/src/types.ts`, under their names.  A JavaScript string is its list of
UTF-16 code units, so that lone surrogates and embedded NULs are values like any other.  Clock
readings, leases, TTLs and fences are integers (epoch milliseconds in TypeScript).  An optional
property is an `Option`: `none` is a property that is absent.
-/

namespace Anyonce

/-- A JavaScript string: its UTF-16 code units. -/
abbrev JsString : Type := List UInt16

/-- The code units of an ASCII literal. -/
def js (s : String) : JsString := Ecma.units s

/-- An idempotent operation identity: `scope` isolates tenants and routes, `key` comes from the
client, `fingerprint` hashes the payload. -/
structure Operation where
  scope : JsString
  key : JsString
  fingerprint : JsString
  deriving DecidableEq

/-- The two states of a record: a claim under a lease, and a stored result. -/
inductive RecordState
  | InFlight
  | Completed
  deriving DecidableEq

/-- Whether a result is a response to a request or the outcome of a message. -/
inductive ResultKind
  | Http
  | Message
  deriving DecidableEq

/-- The outcome of a message result. -/
inductive MessageOutcome
  | Ok
  | Error
  deriving DecidableEq

/-- What is kept of the error of a failed message. -/
structure MessageError where
  name : JsString
  message : JsString
  deriving DecidableEq

/-- The result a record holds: of a response the status, headers and body, of a message the outcome and the error. -/
structure StoredResult where
  kind : ResultKind
  status : Option ℤ := none
  headers : Option (List (JsString × JsString)) := none
  body : Option (List UInt8) := none
  outcome : Option MessageOutcome := none
  error : Option MessageError := none
  deriving DecidableEq

/-- The form `complete` receives when the body exceeded `maxResultBytes`: status and headers
survive, the body does not. -/
structure OmittedResult where
  kind : ResultKind
  status : Option ℤ := none
  headers : Option (List (JsString × JsString)) := none
  deriving DecidableEq

/-- What `complete` takes: `StoredResult | OmittedResult`. -/
inductive Completion
  | Stored (result : StoredResult)
  | Omitted (result : OmittedResult)
  deriving DecidableEq

/-- `isOmitted`. -/
def Completion.isOmitted : Completion → Bool
  | Stored _ => false
  | Omitted _ => true

/-- One record of a store.  The fence is the token of the claim it is under, and times are epoch milliseconds. -/
structure IdempotencyRecord where
  scope : JsString
  key : JsString
  fingerprint : JsString
  state : RecordState
  fence : ℤ
  leaseUntil : ℤ
  createdAt : ℤ
  expiresAt : ℤ
  result : Option StoredResult := none
  resultOmitted : Option Bool := none
  deriving DecidableEq

/-- What `begin` returns.  The record type is a parameter: each language has its own. -/
inductive BeginOutcome (Record : Type)
  | Acquired (fence : ℤ)
  | InFlight (leaseUntil : ℤ)
  | Completed (record : Record)
  | Mismatch (record : Record)
  deriving DecidableEq

/-- The same outcome with its record converted. -/
def BeginOutcome.map {A B : Type} (f : A → B) : BeginOutcome A → BeginOutcome B
  | Acquired fence => Acquired fence
  | InFlight leaseUntil => InFlight leaseUntil
  | Completed record => Completed (f record)
  | Mismatch record => Mismatch (f record)

/-- The terms of a claim: how long the lease and the record last, and the caller's clock. -/
structure BeginOptions where
  leaseMs : ℤ
  ttlMs : ℤ
  now : ℤ
  deriving DecidableEq

/-- What a `complete` or an `abandon` reports; `StaleFence` is a claim that somebody else holds by now. -/
inductive CompleteStatus
  | Ok
  | StaleFence
  | NotFound
  deriving DecidableEq

end Anyonce
