import Anyonce.Core.Interpret
import Anyonce.Go.ByteLimits
import Anyonce.Go.Door
import Anyonce.Webhook.Receiver

/-!
# The webhook receiver in Go

`Middleware.Handler` of `go/webhookmw/middleware.go`, with `KeyRejected` and `ReadBody` of `go/internal/httpx/door.go`:
the configuration check, the method filter, the bounded read, the verification, and then the door of the engine with
the id, the scope and the fingerprint of the delivery.  The method set and `DocsURL` are given as `resolve` leaves
them.

* `WebhookCall` — everything the receiver asks of its surroundings.
* `handler` — the handler.
-/

namespace Anyonce.Go

open Interaction

/-! ## The texts -/

/-- The log line of a receiver with nothing to verify by. -/
def configurationMessage : GoString :=
  ascii ("anyonce: webhookmw was built with neither Verify nor VerifiedMarker, so no delivery can be accepted "
    ++ "(REQ-WH-2)")

/-- The log line of a verifier that failed. -/
def verifierFailedMessage : GoString :=
  ascii "anyonce: the webhook verify callback failed, so no delivery can be accepted (REQ-WH-2)"

/-- The line that is logged for a cause. -/
def logMessage : LogCause → GoString
  | .Unconfigured => configurationMessage
  | .VerifierFailed => verifierFailedMessage

/-- The detail of the problem that a cause is answered with. -/
def logDetail : LogCause → GoString
  | .Unconfigured => ascii "no verify callback or verifiedMarker is configured"
  | .VerifierFailed => ascii "the verify callback failed"

/-- The challenge of a refused signature. -/
def signatureChallenge : GoString × GoString := (ascii "Www-Authenticate", ascii "Signature")

/-- The Standard Webhooks header that carries the id. -/
def defaultIDHeader : GoString := ascii "webhook-id"

/-! ## What the receiver asks for -/

/-- The problems the receiver answers with itself. -/
inductive ReceiverProblem
  | MissingKey
  | InvalidKey
  | PayloadTooLarge
  | ConfigurationError
  | SignatureInvalid
  deriving DecidableEq

/-- What the receiver writes itself: a problem with its detail and the headers beside it, or a plain text. -/
inductive ReceiverResponse
  | Fail (code : ReceiverProblem) (detail : GoString) (extra : List (GoString × GoString))
  | HttpError (text : GoString) (status : ℤ)

/-- Everything the receiver asks of its surroundings.  `Once` tells whether the line of a cause is still to be logged,
`IsVerified` whether the context of the request carries a marker, and `Next` is the wrapped handler outside the engine. -/
inductive WebhookCall
  | Once (cause : LogCause)
  | Logf (message : GoString)
  | Verify (body : List UInt8)
  | IsVerified (marker : GoString)
  | Key (body : List UInt8)
  | Fingerprint (body : List UInt8)
  | OnSuspicious (record : Record)
  | Next
  | Respond (response : ReceiverResponse)
  | Door (c : DoorCall)

/-- An error on the outside is a panic. -/
abbrev WebhookReply (V : Type) : WebhookCall → Type
  | .Once _ => Bool
  | .Logf _ => Except V Unit
  | .Verify _ => Except V (Bool × Option GoError)
  | .IsVerified _ => Bool
  | .Key _ => Except V (GoString × Bool)
  | .Fingerprint _ => Except V (GoString × Option GoError)
  | .OnSuspicious _ => Except V Unit
  | .Next => Except V Unit
  | .Respond _ => Except V Unit
  | .Door c => DoorReply V c

/-- The receiver as a program over its calls. -/
abbrev WebhookProg (V : Type) : Type → Type := Prog WebhookCall (WebhookReply V)

/-- One call of a run, with its reply. -/
abbrev WebhookEvent (V : Type) : Type := Event WebhookCall (WebhookReply V)

/-- The data of a receiver; its functions are the environment's.  The flags say which of the optional functions are
set. -/
structure WebhookConfig where
  idHeader : GoString := []
  key : Bool := false
  verify : Bool := false
  verifiedMarker : GoString := []
  onSuspicious : Bool := false
  scoping : WebhookOptions := {}
  fingerprint : Bool := false
  methods : List GoString
  required : Option Bool := none
  maxRequestBytes : ℤ := 0
  docsURL : GoString
  door : DoorConfig

/-- What a lookup of the id finds: the id, how it was found, and the reason that it is not valid. -/
abbrev FoundID : Type := GoString × KeyStatus × GoString

/-- The id that the `Key` function gave. -/
def keyID (raw : GoString) (ok : Bool) : FoundID :=
  if ok = false ∨ raw = [] then ([], .Missing, [])
  else
    match parseKey raw .Lenient with
    | .error reason => ([], .Invalid, ascii reason)
    | .ok parsed => (parsed, .Ok, [])

/-- The id in the header; an empty field counts as none. -/
def headerID (h : Header) (name : GoString) : FoundID :=
  if h.values name = [[]] then ([], .Missing, []) else lookupKey h name .Lenient

namespace WebhookConfig

variable {V : Type} (cfg : WebhookConfig)

/-- Issue one command of the receiver. -/
abbrev ask (c : WebhookCall) : WebhookProg V (WebhookReply V c) := Prog.call c

abbrev respond (response : ReceiverResponse) : WebhookProg V (Except V Unit) := ask (.Respond response)

abbrev fail (code : ReceiverProblem) (detail : GoString) (extra : List (GoString × GoString)) :
    WebhookProg V (Except V Unit) :=
  respond (.Fail code detail extra)

def header : GoString := if cfg.idHeader = [] then defaultIDHeader else cfg.idHeader

/-- REQ-WH-2: a receiver with neither a `Verify` function nor the name of a marker accepts no delivery. -/
def configured : Bool := cfg.verify || cfg.verifiedMarker ≠ []

/-- A problem that has its one line the first time. -/
def malfunction (cause : LogCause) : WebhookProg V (Except V Unit) := do
  if ← ask (.Once cause) then
    match ← ask (.Logf (logMessage cause)) with
    | .error p => pure (.error p)
    | .ok () => fail .ConfigurationError (logDetail cause) []
  else fail .ConfigurationError (logDetail cause) []

/-- `verified`: the result, and whether the verifier could decide. -/
def verified (body : List UInt8) : WebhookProg V (Except V (Bool × Bool)) := do
  if cfg.verify then
    match ← ask (.Verify body) with
    | .error p => pure (.error p)
    | .ok (_, some _) => pure (.ok (false, false))
    | .ok (result, none) => pure (.ok (result, true))
  else
    let found ← ask (.IsVerified cfg.verifiedMarker)
    pure (.ok (found, true))

/-- `lookupID`: the `Key` function wins over the header. -/
def lookupID (r : HttpRequest) (body : List UInt8) : WebhookProg V (Except V FoundID) := do
  if cfg.key then
    match ← ask (.Key body) with
    | .error p => pure (.error p)
    | .ok (raw, ok) => pure (.ok (keyID raw ok))
  else pure (.ok (headerID r.header cfg.header))

variable (sha256Hex : List UInt8 → GoString)

/-- D9: the hash of the body bytes alone, unless `Fingerprint` is set. -/
def fingerprintOf (body : List UInt8) : WebhookProg V (Except V (GoString × Option GoError)) :=
  if cfg.fingerprint then ask (.Fingerprint body) else pure (.ok (sha256Hex body, none))

/-- How the receiver answers its door: the mismatch hook of the door is `onSuspicious`, which recovers a panic. -/
def answerDoor : (c : DoorCall) → WebhookProg V (DoorReply V c)
  | .Hook (.DoorMismatch record) => do
      if cfg.onSuspicious then
        let _ ← ask (.OnSuspicious record)
        pure (.ok ())
      else pure (.ok ())
  | c => ask (.Door c)

/-- The door that `New` builds: its mismatch hook is always set. -/
def doorConfig : DoorConfig := { cfg.door with name := ascii "webhookmw", doorMismatch := true }

/-- Past the gate: the id, the fingerprint and the scope of the delivery, and the door. -/
def deliver (r : HttpRequest) (body : List UInt8) : WebhookProg V (Except V Unit) := do
  match ← cfg.lookupID r body with
  | .error p => pure (.error p)
  | .ok (_, .Missing, _) =>
      -- `KeyRejected`
      if cfg.required.getD true then
        fail .MissingKey [] [(ascii "Link", ascii "<" ++ cfg.docsURL ++ ascii ">; rel=\"describedby\"")]
      else ask .Next
  | .ok (_, .Invalid, reason) => fail .InvalidKey reason []
  | .ok (key, .Ok, _) =>
      match ← cfg.fingerprintOf sha256Hex body with
      | .error p => pure (.error p)
      | .ok (_, some _) => respond (.HttpError (ascii "webhookmw: fingerprint failed") 500)
      | .ok (fp, none) =>
          (doorCalls cfg.doorConfig ⟨webhookScope r body cfg.scoping, key, fp⟩).interpret cfg.answerDoor

/-- **The handler of a receiver**, for a request with that body. -/
def handler (r : HttpRequest) (b : BodyRequest) : WebhookProg V (Except V Unit) := do
  if cfg.configured = false then malfunction .Unconfigured
  else if !cfg.methods.contains r.method then ask .Next
  else
    match (readBody b (resolveMaxRequestBytes cfg.maxRequestBytes)).1 with
    | .error .TooLarge => fail .PayloadTooLarge [] []
    | .error (.ReadBody _) => respond (.HttpError (ascii "webhookmw: could not read the request body") 400)
    | .ok body =>
        match ← cfg.verified body with
        | .error p => pure (.error p)
        | .ok (_, false) => malfunction .VerifierFailed
        | .ok (false, true) => fail .SignatureInvalid [] [signatureChallenge]
        | .ok (true, true) => cfg.deliver sha256Hex r body

end WebhookConfig

end Anyonce.Go
