import Anyonce.Http.Environment
import Anyonce.Webhook.Scope

/-!
# The webhook receiver

`webhookReceiver` of `packages/webhooks/src/receiver.ts`: the configuration check, the method filter, the bounded
read, the verification, and then the transport bridge with the id, the scope and the body of the delivery.  The
method set and the other common options are given as `resolveHttpOptions` resolves them.

* `receive` — the handler.
* `webhookReceiver` — the construction, which refuses two kinds of options.
* `receiverCalls` — the receiver in an arbitrary environment.
* `receive_eq` — **behind the gate stands the bridge of an arbitrary environment**, answered.
-/

namespace Anyonce

open Interaction

/-! ## The code -/

/-- The two causes of a configuration error, with a latch each. -/
inductive LogCause
  | Unconfigured
  | VerifierFailed
  deriving DecidableEq

/-- The message of a log line. -/
def LogCause.message : LogCause → JsString
  | .Unconfigured => js ("anyonce: webhookReceiver was built with neither verify nor verifiedMarker, so no delivery "
      ++ "can be accepted (REQ-WH-2)")
  | .VerifierFailed => js "anyonce: the webhook verify callback failed, so no delivery can be accepted (REQ-WH-2)"

/-- The detail of the problem a receiver answers with when it logs. -/
def LogCause.detail : LogCause → JsString
  | .Unconfigured => js "no verify callback or verifiedMarker is configured"
  | .VerifierFailed => js "the verify callback failed"

/-- The Standard Webhooks header that carries the id. -/
def defaultIdHeader : JsString := js "webhook-id"

/-- The challenge of a refused signature. -/
def signatureChallenge : JsString × JsString := (js "WWW-Authenticate", js "Signature")

/-- The titles of the problems, which name the header of the id; an override comes first. -/
def webhookTitles (idHeader : JsString) (overrides : ProblemCode → Option JsString) (code : ProblemCode) :
    Option JsString :=
  match overrides code with
  | some title => some title
  | none =>
      match code with
      | .MissingKey => some (js "The " ++ idHeader ++ js " header is required for this request")
      | .InvalidKey => some (js "The " ++ idHeader ++ js " header value is not a valid key")
      | .Conflict => some (js "A delivery with this " ++ idHeader ++ js " is still in progress")
      | .FingerprintMismatch =>
          some (js "This " ++ idHeader ++ js " was already delivered with a different payload")
      | .ConfigurationError => some (js "The webhook endpoint could not establish that this delivery is genuine")
      | .SignatureInvalid => some (js "The webhook signature could not be verified")
      | _ => none

section

variable (m : Type → Type) (E Res : Type)

/-- What `webhookReceiver` reads of its options.  `common` are those it shares with the bridge; `verify` says whether
the user's function resolved to exactly `true`. -/
structure ReceiverOptions where
  common : BridgeOptions m E Res
  idHeader : Option JsString := none
  required : Option Bool := none
  fingerprint : Option (FingerprintOption m E) := none
  problemTitles : ProblemCode → Option JsString := fun _ => none
  scoping : WebhookReceiverOptions := {}
  key : Option (Request → List UInt8 → m (Except E (Option JsString))) := none
  verify : Option (Request → List UInt8 → m (Except E Bool)) := none
  verifiedMarker : Option JsString := none
  onSuspicious : Option (Request → IdempotencyRecord → m (Except E Unit)) := none

/-- The functions of a receiver and of one request: the marker set, a latch that is set and tells whether it was, the
logger, and what the bridge needs. -/
structure ReceiverTransport where
  bridge : Transport m E Res
  isVerified : JsString → m Bool
  latch : LogCause → m Bool
  log : JsString → m (Except E Unit)

end

section

variable {F : Type} (d : NumberText.Doubles F) (sha256Hex : List UInt8 → JsString)
variable {m : Type → Type} [Monad m] {E Res : Type}

namespace ReceiverOptions

variable (options : ReceiverOptions m E Res)

def header : JsString := options.idHeader.getD defaultIdHeader

/-- The options of the bridge: the id header, and the fingerprint of the body bytes alone unless another is set. -/
def resolved : BridgeOptions m E Res :=
  { options.common with
    headerName := options.header
    required := options.required.getD true
    scoping := {}
    fingerprint := options.fingerprint.getD (.Function fun _ body => pure (.ok (sha256Hex body)))
    problemTitles := webhookTitles options.header options.problemTitles }

/-- The mismatch hook of one request: `onSuspicious`, and then the user's own hook, each of which may throw. -/
def onMismatch (onSuspicious : Request → IdempotencyRecord → m (Except E Unit)) (req : Request) (op : Operation)
    (record : IdempotencyRecord) : m (Except E Unit) := do
  let _ ← onSuspicious req record
  match ← fire ((options.common.policy.hooks.getD {}).onMismatch.map fun hook => hook op record) with
  | .ok () => pure (.ok ())
  | .error _ =>
      match options.common.policy.hookErrors with
      | none => pure (.ok ())
      | some count => do
          count
          pure (.ok ())

/-- The options of the bridge for one request. -/
def runOptions (req : Request) : BridgeOptions m E Res :=
  let resolved := options.resolved sha256Hex
  match options.onSuspicious with
  | none => resolved
  | some onSuspicious =>
      { resolved with
        policy := { resolved.policy with
          hooks := some { resolved.policy.hooks.getD {} with
            onMismatch := some fun op record => options.onMismatch onSuspicious req op record } } }

/-- REQ-WH-1: the key function wins over the header, and the id is checked and never parsed. -/
def resolveKey (req : Request) (body : List UInt8) : m (Except E KeyLookup) := do
  match ← (match options.key with
    | some key => key req body
    | none => pure (.ok (req.headers.get options.header))) with
  | .error thrown => pure (.error thrown)
  | .ok none => pure (.ok .Missing)
  | .ok (some raw) =>
      if raw = [] then pure (.ok .Missing)
      else
        match parseKey raw .Lenient with
        | .Fail reason => pure (.ok (.Invalid reason))
        | .Ok key => pure (.ok (.Ok key))

/-- A configuration error, with its one line the first time. -/
def malfunction (t : ReceiverTransport m E Res) (req : Request) (cause : LogCause) : m (Except E (Answer Res)) := do
  let logged ← t.latch cause
  match ← (if logged then pure (.ok ()) else t.log cause.message) with
  | .error thrown => pure (.error thrown)
  | .ok () => (options.resolved sha256Hex).fail req .ConfigurationError (some cause.detail) []

/-- What the verification comes to. -/
def verified (t : ReceiverTransport m E Res) (req : Request) (body : List UInt8) : m (Except E Bool) :=
  match options.verify with
  | some verify => verify req body
  | none =>
      match options.verifiedMarker with
      | some marker => do
          let found ← t.isVerified marker
          pure (.ok found)
      | none => pure (.ok false)

/-- Past the gate: the id and the scope of the delivery, and the bridge. -/
def deliver (t : ReceiverTransport m E Res) (req : Request) (body : List UInt8) : m (Except E (Answer Res)) := do
  match ← options.resolveKey req body with
  | .error thrown => pure (.error thrown)
  | .ok keyLookup =>
      let routeScope := webhookScope req body options.scoping
      runIdempotent d sha256Hex t.bridge (options.runOptions sha256Hex req) req
        { routeScope := some routeScope, keyLookup := some keyLookup, body := some body }

/-- **The handler of a receiver.** -/
def receive (t : ReceiverTransport m E Res) (req : Request) : m (Except E (Answer Res)) := do
  let resolved := options.resolved sha256Hex
  if options.verify.isNone && options.verifiedMarker.isNone then options.malfunction sha256Hex t req .Unconfigured
  else if !resolved.methods.contains req.method then passThrough t.bridge
  else
    match ← t.bridge.readBody resolved.maxRequestBytes with
    | .error thrown => pure (.error thrown)
    | .ok none => resolved.fail req .PayloadTooLarge none []
    | .ok (some body) =>
        match ← options.verified t req body with
        | .error _ => options.malfunction sha256Hex t req .VerifierFailed
        | .ok false => resolved.fail req .SignatureInvalid none [signatureChallenge]
        | .ok true => options.deliver d sha256Hex t req body

end ReceiverOptions

/-- The construction: a scope and a sender exclude each other, and a marker has a name. -/
def webhookReceiver (options : ReceiverOptions m E Res) :
    Except JsString (ReceiverTransport m E Res → Request → m (Except E (Answer Res))) :=
  if options.scoping.scope.isSome && options.scoping.sourceId.isSome then
    .error (js ("anyonce: webhookReceiver was given both scope and sourceId, and scope replaces the computed scope "
      ++ "entirely, so sourceId would never be read"))
  else if options.verifiedMarker = some [] then
    .error (js "anyonce: webhookReceiver was given an empty verifiedMarker; name it or omit it")
  else .ok (options.receive d sha256Hex)

end

/-! ## Over an arbitrary environment -/

/-- Everything the receiver asks of its surroundings. -/
inductive ReceiverCall (E Res : Type)
  | Bridge (c : BridgeCall E Res)
  | Verify (body : List UInt8)
  | IsVerified (marker : JsString)
  | Key (body : List UInt8)
  | OnSuspicious (record : IdempotencyRecord)
  | Latch (cause : LogCause)
  | Log (message : JsString)

/-- What a call of the receiver gives. -/
abbrev ReceiverReply (E Res : Type) : ReceiverCall E Res → Type
  | .Bridge c => BridgeReply E Res c
  | .Verify _ => Except E Bool
  | .IsVerified _ => Bool
  | .Key _ => Except E (Option JsString)
  | .OnSuspicious _ => Except E Unit
  | .Latch _ => Bool
  | .Log _ => Except E Unit

/-- The receiver as a program over its calls. -/
abbrev ReceiverProg (E Res : Type) : Type → Type := Prog (ReceiverCall E Res) (ReceiverReply E Res)

/-- One call of a run, with its reply. -/
abbrev ReceiverEvent (E Res : Type) : Type := Event (ReceiverCall E Res) (ReceiverReply E Res)

/-- What the `fingerprint` option is. -/
inductive FingerprintSetting
  | Unset
  | Mode (mode : FingerprintMode)
  | Function

/-- The data of the options; their functions are the environment's.  The flags say which of the optional functions are
set. -/
structure ReceiverConfig where
  common : BridgeConfig
  idHeader : Option JsString := none
  required : Option Bool := none
  fingerprint : FingerprintSetting := .Unset
  problemTitles : ProblemCode → Option JsString := fun _ => none
  scoping : WebhookReceiverOptions := {}
  key : Bool := false
  verify : Bool := false
  verifiedMarker : Option JsString := none
  onSuspicious : Bool := false

section

variable {E Res : Type}

/-- Issue one command of the receiver. -/
abbrev askReceiver (c : ReceiverCall E Res) : ReceiverProg E Res (ReceiverReply E Res c) := Prog.call c

/-- Issue one command of the bridge. -/
def askBridge (c : BridgeCall E Res) : ReceiverProg E Res (BridgeReply E Res c) := askReceiver (.Bridge c)

namespace ReceiverConfig

variable (cfg : ReceiverConfig)

/-- The options whose functions are the environment's. -/
def options : ReceiverOptions (ReceiverProg E Res) E Res where
  common := cfg.common.options askBridge
  idHeader := cfg.idHeader
  required := cfg.required
  fingerprint := match cfg.fingerprint with
    | .Unset => none
    | .Mode mode => some (.Mode mode)
    | .Function => some (.Function fun _ body => askBridge (.Fingerprint body))
  problemTitles := cfg.problemTitles
  scoping := cfg.scoping
  key := if cfg.key then some fun _ body => askReceiver (.Key body) else none
  verify := if cfg.verify then some fun _ body => askReceiver (.Verify body) else none
  verifiedMarker := cfg.verifiedMarker
  onSuspicious := if cfg.onSuspicious then some fun _ record => askReceiver (.OnSuspicious record) else none

def transport (unreachable : E) : ReceiverTransport (ReceiverProg E Res) E Res where
  bridge := transportOf askBridge unreachable
  isVerified marker := askReceiver (.IsVerified marker)
  latch cause := askReceiver (.Latch cause)
  log message := askReceiver (.Log message)

end ReceiverConfig

/-- The receiver in an arbitrary environment. -/
def receiverCalls {F : Type} (d : NumberText.Doubles F) (sha256Hex : List UInt8 → JsString) (unreachable : E)
    (cfg : ReceiverConfig) (req : Request) : ReceiverProg E Res (Except E (Answer Res)) :=
  cfg.options.receive d sha256Hex (ReceiverConfig.transport unreachable) req

/-! ## The bridge behind the gate -/

namespace ReceiverConfig

variable (cfg : ReceiverConfig) (sha256Hex : List UInt8 → JsString)

def header : JsString := cfg.idHeader.getD defaultIdHeader

/-- The configuration of the bridge behind the gate. -/
def bridge : BridgeConfig :=
  { cfg.common with
    headerName := cfg.header
    required := cfg.required.getD true
    scoping := {}
    fingerprint := match cfg.fingerprint with
      | .Mode mode => some mode
      | _ => none
    problemTitles := webhookTitles cfg.header cfg.problemTitles
    policy := if cfg.onSuspicious then
        { cfg.common.policy with hooks := some { cfg.common.policy.hooks.getD {} with onMismatch := true } }
      else cfg.common.policy }

/-- How the receiver answers the bridge: it passes its calls on, except for the default fingerprint and the hook that
calls `onSuspicious`. -/
def answerBridge (req : Request) : (c : BridgeCall E Res) → ReceiverProg E Res (BridgeReply E Res c)
  | .Fingerprint body =>
      match cfg.fingerprint with
      | .Unset => pure (.ok (sha256Hex body))
      | _ => askBridge (.Fingerprint body)
  | .Engine (.Hook (.OnMismatch op record)) =>
      if cfg.onSuspicious then cfg.options.onMismatch (fun _ record => askReceiver (.OnSuspicious record)) req op record
      else askBridge (.Engine (.Hook (.OnMismatch op record)))
  | c => askBridge c

/-- The fingerprint option is the bridge's, answered. -/
lemma fingerprint_eq (req : Request) :
    ((cfg.options : ReceiverOptions (ReceiverProg E Res) E Res).resolved sha256Hex).fingerprint
      = (cfg.bridge.options (cfg.answerBridge sha256Hex req)).fingerprint := by
  cases hfn : cfg.fingerprint with
  | Unset => simp [ReceiverOptions.resolved, options, bridge, BridgeConfig.options, answerBridge, hfn]
  | Mode mode => simp [ReceiverOptions.resolved, options, bridge, BridgeConfig.options, hfn]
  | Function => simp [ReceiverOptions.resolved, options, bridge, BridgeConfig.options, answerBridge, hfn]

variable (Res) in
/-- Without `onSuspicious` the calls of the engine are passed on. -/
lemma answerBridge_engine (hsuspicious : cfg.onSuspicious = false) (req : Request) (c : EngineCall E) :
    (cfg.answerBridge sha256Hex req (.Engine c) : ReceiverProg E Res (EngineReply E c)) = askBridge (.Engine c) := by
  cases c with
  | Hook call =>
      cases call with
      | OnMismatch op record => simp [answerBridge, hsuspicious]
      | _ => rfl
  | _ => rfl

variable (E Res) in
/-- With it the mismatch hook is replaced. -/
lemma hooksOf_answerBridge (hsuspicious : cfg.onSuspicious = true) (req : Request) (installed : Installed) :
    hooksOf (fun c => (cfg.answerBridge sha256Hex req (.Engine c) : ReceiverProg E Res (EngineReply E c)))
        { installed with onMismatch := true }
      = { hooksOf (fun c => (askBridge (.Engine c) : ReceiverProg E Res (EngineReply E c))) installed with
          onMismatch := some fun op record =>
            cfg.options.onMismatch (fun _ record => askReceiver (.OnSuspicious record)) req op record } := by
  have honMismatch : ∀ op record, (cfg.answerBridge sha256Hex req (.Engine (.Hook (.OnMismatch op record))) :
      ReceiverProg E Res (Except E Unit))
      = cfg.options.onMismatch (fun _ record => askReceiver (.OnSuspicious record)) req op record := by
    intro op record
    simp [answerBridge, hsuspicious]
  simp only [hooksOf, honMismatch, if_true]
  rfl

/-- The policy of one request is the bridge's, answered. -/
lemma policy_eq (req : Request) :
    ((cfg.options : ReceiverOptions (ReceiverProg E Res) E Res).runOptions sha256Hex req).policy
      = cfg.bridge.policy.policyOf fun c => cfg.answerBridge sha256Hex req (.Engine c) := by
  cases hsuspicious : cfg.onSuspicious with
  | false =>
      have hengine := answerBridge_engine (E := E) Res cfg sha256Hex hsuspicious req
      simp only [hengine, ReceiverOptions.runOptions, options, hsuspicious, bridge, Bool.false_eq_true, if_false]
      rfl
  | true =>
      have hhooks := hooksOf_answerBridge E Res cfg sha256Hex hsuspicious req
      simp only [PolicyConfig.policyOf, ReceiverOptions.runOptions, options, hsuspicious, bridge, if_true,
        Option.map_some, hhooks, ← hooksOf_getD]
      rfl

/-- **The options of one request are the bridge's, answered.** -/
lemma runOptions_eq (req : Request) :
    (cfg.options : ReceiverOptions (ReceiverProg E Res) E Res).runOptions sha256Hex req
      = cfg.bridge.options (cfg.answerBridge sha256Hex req) := by
  refine BridgeOptions.ext ?_ ?_ ?_ ?_ ?_ ?_ (.trans ?_ (fingerprint_eq cfg sha256Hex req)) ?_ ?_ (policy_eq cfg sha256Hex req)
    ?_ ?_ ?_ ?_ ?_
  all_goals
    cases hsuspicious : cfg.onSuspicious
    all_goals simp only [ReceiverOptions.runOptions, options, hsuspicious]
    all_goals rfl

end ReceiverConfig

end

end Anyonce
