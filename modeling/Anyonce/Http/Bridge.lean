import Anyonce.Engine.Environment
import Anyonce.Fingerprint
import Anyonce.Http.Scope

/-!
# The transport bridge

`runIdempotent` of `packages/core/src/http/run.ts`: what comes before the engine, the engine around the
handler, and the response.  The options and the request's own functions are parameters, in whatever monad they
live; what the callbacks share, `degraded` and `capture`, is the state of a state monad over it.  A response of
the handler is whatever it is; `captureResponse` is in `Http/Capture.lean`.

**Over an arbitrary environment.**  `BridgeCall` is everything the bridge asks of its surroundings.

* `runIdempotent` — the bridge.
* `bridgeCalls` — the bridge in an arbitrary environment.
-/

namespace Anyonce

open Interaction

/-! ## Problems -/

/-- The problem codes of the bridge. -/
inductive ProblemCode
  | MissingKey
  | InvalidKey
  | Conflict
  | FingerprintMismatch
  | PayloadTooLarge
  | StoreUnavailable
  | MissingPrincipal
  | ConfigurationError
  | SignatureInvalid
  deriving DecidableEq

/-- The last part of a problem's type URI, and its `code` member. -/
def ProblemCode.text : ProblemCode → JsString
  | .MissingKey => js "missing-key"
  | .InvalidKey => js "invalid-key"
  | .Conflict => js "conflict"
  | .FingerprintMismatch => js "fingerprint-mismatch"
  | .PayloadTooLarge => js "payload-too-large"
  | .StoreUnavailable => js "store-unavailable"
  | .MissingPrincipal => js "missing-principal"
  | .ConfigurationError => js "configuration-error"
  | .SignatureInvalid => js "signature-invalid"

/-- The status of each problem. -/
def problemStatus : ProblemCode → ℤ
  | .MissingKey => 400
  | .InvalidKey => 400
  | .Conflict => 409
  | .FingerprintMismatch => 422
  | .PayloadTooLarge => 413
  | .StoreUnavailable => 503
  | .MissingPrincipal => 500
  | .ConfigurationError => 500
  | .SignatureInvalid => 401

/-- The title of each problem, where it is not overridden. -/
def problemTitle : ProblemCode → JsString
  | .MissingKey => js "The Idempotency-Key header is required for this request"
  | .InvalidKey => js "The Idempotency-Key header value is not a valid key"
  | .Conflict => js "A request with this Idempotency-Key is still in progress"
  | .FingerprintMismatch => js "This Idempotency-Key was already used with a different request payload"
  | .PayloadTooLarge => js "The request body exceeds the size this idempotent endpoint accepts"
  | .StoreUnavailable => js "The idempotency store is unavailable"
  | .MissingPrincipal => js "The idempotency scope requires a principal and none was found"
  | .ConfigurationError => js "This endpoint is not configured correctly and cannot accept the request"
  | .SignatureInvalid => js "The request signature could not be verified"

/-- RFC 9457 problem details with the code member. -/
structure Problem where
  type : JsString
  title : JsString
  status : ℤ
  detail : Option JsString
  code : ProblemCode

/-- `problem`: the document of a code, with its type URI under the base. -/
def problem (code : ProblemCode) (baseUri : JsString) (detail title : Option JsString) : Problem where
  type := baseUri ++ code.text
  title := title.getD (problemTitle code)
  status := problemStatus code
  detail := detail
  code := code

/-- Names and values of headers. -/
abbrev HeaderFields : Type := List (JsString × JsString)

/-- What the client is answered: the handler's response, as it is or captured; a replay; or a problem, rendered by
`problemResponse` or by the user's `onError`. -/
inductive Answer (Res : Type)
  | Passed (res : Res)
  | Captured (res : Res) (extraHeaders : HeaderFields)
  | Replayed (record : IdempotencyRecord)
  | Problem (p : Problem) (extraHeaders : HeaderFields)
  | Rendered (res : Res) (protocolHeaders : HeaderFields)

/-! ## What the bridge is given -/

/-- REQ-HTTP-14: what a handler can learn about the claim it runs under. -/
structure IdempotencyInfo where
  key : JsString
  fence : ℤ
  deriving DecidableEq

section

variable (m : Type → Type) (E Res : Type)

/-- A mode, or a function of the request and its body. -/
inductive FingerprintOption
  | Mode (mode : FingerprintMode)
  | Function (fn : Request → List UInt8 → m (Except E JsString))

/-- What `runIdempotent` reads of its resolved options.  `skip` says whether the user's function returned exactly
`true`. -/
@[ext]
structure BridgeOptions where
  store : Store m E
  methods : List JsString
  headerName : JsString
  required : Bool
  keySyntax : KeySyntax
  scoping : ResolvedHttpOptions
  fingerprint : FingerprintOption m E
  maxRequestBytes : ℤ
  storeHeaders : List JsString
  policy : ExecutePolicy m E
  problemBaseUri : JsString
  docsUrl : JsString
  problemTitles : ProblemCode → Option JsString
  onError : Option (Problem → Request → m (Except E Res))
  skip : Option (Request → m (Except E Bool))

/-- The request's own functions: the bounded read of its body, which is `none` when it is too large, the wrapped
handler, and the capture of a response with what it stores.  The last is an error of the bridge's own. -/
structure Transport where
  readBody : ℤ → m (Except E (Option (List UInt8)))
  run : Option IdempotencyInfo → m (Except E Res)
  captureResponse : Res → List JsString → ℤ → HeaderFields → m (Except E Unit)
  stored : m (Except E StoredResult)
  executedWithoutResponse : E

end

/-- What a transport hands to the bridge besides the request. -/
structure RunContext where
  routeScope : Option JsString := none
  keyLookup : Option KeyLookup := none
  body : Option (List UInt8) := none

/-- The variables `runIdempotent` shares with its callbacks. -/
structure BridgeState (Res : Type) where
  degraded : Bool := false
  capture : Option (Res × HeaderFields) := none

/-- At least a second, and the seconds left of a lease. -/
def retryAfterSeconds (leaseUntil now : ℤ) : JsString :=
  Ecma.intText (max 1 (-((now - leaseUntil) / 1000)))

/-- The path and the query, as they are fingerprinted. -/
def requestPath (req : Request) : JsString := req.url.pathname ++ req.url.search

/-! ## The bridge -/

section

variable {F : Type} (d : NumberText.Doubles F) (sha256Hex : List UInt8 → JsString)
variable {m : Type → Type} [Monad m] {E Res : Type}

/-- The fingerprint of a request under an option: a mode, or a function of the user that may throw. -/
def requestFingerprint (req : Request) (body : List UInt8) : FingerprintOption m E → m (Except E JsString)
  | .Function fn => fn req body
  | .Mode mode => pure (.ok (sha256Hex (requestPreimage d mode req.method (requestPath req) body)))

namespace BridgeOptions

variable (options : BridgeOptions m E Res) (req : Request)

/-- Render a problem, honouring `onError`. -/
def fail (code : ProblemCode) (detail : Option JsString) (headers : HeaderFields) : m (Except E (Answer Res)) := do
  let p := problem code options.problemBaseUri detail (options.problemTitles code)
  match options.onError with
  | some onError =>
      match ← onError p req with
      | .error thrown => pure (.error thrown)
      | .ok res => pure (.ok (.Rendered res (headers ++ [(js "Cache-Control", js "no-store")])))
  | none => pure (.ok (.Problem p headers))

/-- `options.skip?.(req) === true`. -/
def skips : m (Except E Bool) :=
  match options.skip with
  | none => pure (.ok false)
  | some skip => skip req

end BridgeOptions

/-- A computation of the environment, beside the shared variables. -/
abbrev BridgeM (m : Type → Type) (Res : Type) : Type → Type := StateT (BridgeState Res) m

def Store.lift (store : Store m E) : Store (BridgeM m Res) E where
  begin op opts := StateT.lift (store.begin op opts)
  complete op fence payload now := StateT.lift (store.complete op fence payload now)
  abandon op fence := StateT.lift (store.abandon op fence)

/-- The policy the bridge runs the engine with: the user's, whose `onStoreError` hook first marks the request as
degraded. -/
def ExecutePolicy.lift (policy : ExecutePolicy m E) : ExecutePolicy (BridgeM m Res) E where
  leaseMs := policy.leaseMs
  ttlMs := policy.ttlMs
  maxResultBytes := policy.maxResultBytes
  storeResult result := StateT.lift (policy.storeResult result)
  onStoreError := policy.onStoreError
  clock := StateT.lift policy.clock
  hooks :=
    let userHooks := policy.hooks.getD {}
    some
      { onAcquired := userHooks.onAcquired.map fun hook op => StateT.lift (hook op)
        onReplayed := userHooks.onReplayed.map fun hook op record => StateT.lift (hook op record)
        onConflict := userHooks.onConflict.map fun hook op leaseUntil => StateT.lift (hook op leaseUntil)
        onMismatch := userHooks.onMismatch.map fun hook op record => StateT.lift (hook op record)
        onStoreError := some fun op error => do
          modify fun st => { st with degraded := true }
          StateT.lift (fire (userHooks.onStoreError.map fun hook => hook op error)) }
  hookErrors := policy.hookErrors.map fun count => StateT.lift count

section

variable (t : Transport m E Res) (options : BridgeOptions m E Res) (req : Request)

/-- The run callback: the handler, and the capture of its response. -/
def runCallback (key : JsString) (fence : ℤ) : BridgeM m Res (Except E StoredResult) := do
  match ← StateT.lift (t.run (some ⟨key, fence⟩)) with
  | .error thrown => pure (.error thrown)
  | .ok res =>
      let st ← get
      let extraHeaders := if st.degraded then [(js "Idempotency-Degraded", js "true")] else []
      match ← StateT.lift (t.captureResponse res options.storeHeaders options.policy.maxResultBytes extraHeaders) with
      | .error thrown => pure (.error thrown)
      | .ok () =>
          modify fun st => { st with capture := some (res, extraHeaders) }
          StateT.lift t.stored

/-- The response once the engine has returned.  A captured response that streams has been handed to the client
before; it is the same one. -/
def settled : Except E (ExecuteResult E) × BridgeState Res → m (Except E (Answer Res))
  | (.ok (.Executed _ _), st) =>
      match st.capture with
      | none => pure (.error t.executedWithoutResponse)
      | some (res, extraHeaders) => pure (.ok (.Captured res extraHeaders))
  | (.ok (.Replayed record), _) => pure (.ok (.Replayed record))
  | (.ok (.Conflict leaseUntil), _) => do
      let now ← options.policy.clock
      options.fail req .Conflict none [(js "Retry-After", retryAfterSeconds leaseUntil now)]
  | (.ok (.Mismatch _), _) => options.fail req .FingerprintMismatch none []
  | (.ok (.StoreError _), _) => options.fail req .StoreUnavailable none [(js "Retry-After", js "1")]
  | (.error error, st) =>
      match st.capture with
      | some (res, extraHeaders) => pure (.ok (.Captured res extraHeaders))
      | none => pure (.error error)

/-- The engine around the handler. -/
def runOperation (op : Operation) : m (Except E (Answer Res)) := do
  let out ← (execute options.store.lift op (runCallback t options op.key) options.policy.lift).run {}
  settled t options req out

/-- Hand the request to the handler, outside the layer. -/
def passThrough : m (Except E (Answer Res)) := do
  let r ← t.run none
  pure (r.map Answer.Passed)

/-- The body the caller has read, or the bounded read. -/
def bodyOf (ctx : RunContext) : m (Except E (Option (List UInt8))) :=
  match ctx.body with
  | some body => pure (.ok (some body))
  | none => t.readBody options.maxRequestBytes

/-- **`runIdempotent`.**  An error is what the returned promise rejects with. -/
def runIdempotent (ctx : RunContext) : m (Except E (Answer Res)) := do
  if req.method ∉ options.methods then passThrough t
  else
    match ← options.skips req with
    | .error thrown => pure (.error thrown)
    | .ok true => passThrough t
    | .ok false =>
        match ctx.keyLookup.getD (lookupKey req.headers options.headerName options.keySyntax) with
        | .Missing =>
            if options.required then
              options.fail req .MissingKey none
                [(js "Link", js "<" ++ options.docsUrl ++ js ">; rel=\"describedby\"")]
            else passThrough t
        | .Invalid reason => options.fail req .InvalidKey (some (js reason)) []
        | .Ok key =>
            match resolveScope req options.scoping ctx.routeScope with
            | .MissingPrincipal => options.fail req .MissingPrincipal none []
            | .Ok scope =>
                match ← bodyOf t options ctx with
                | .error thrown => pure (.error thrown)
                | .ok none => options.fail req .PayloadTooLarge none []
                | .ok (some body) =>
                    match ← requestFingerprint d sha256Hex req body options.fingerprint with
                    | .error thrown => pure (.error thrown)
                    | .ok fingerprint => runOperation t options req ⟨scope, key, fingerprint⟩

end

end

/-! ## Over an arbitrary environment -/

/-- Everything the bridge asks of its surroundings. -/
inductive BridgeCall (E Res : Type)
  | Skip
  | ReadBody (limit : ℤ)
  | Fingerprint (body : List UInt8)
  | Run (info : Option IdempotencyInfo)
  | Capture (res : Res) (extraHeaders : HeaderFields)
  | Stored
  | Engine (c : EngineCall E)
  | OnError (p : Problem)

/-- What a call of the bridge gives. -/
abbrev BridgeReply (E Res : Type) : BridgeCall E Res → Type
  | .Skip => Except E Bool
  | .ReadBody _ => Except E (Option (List UInt8))
  | .Fingerprint _ => Except E JsString
  | .Run _ => Except E Res
  | .Capture _ _ => Except E Unit
  | .Stored => Except E StoredResult
  | .Engine c => EngineReply E c
  | .OnError _ => Except E Res

/-- `runIdempotent` as a program over its calls. -/
abbrev BridgeProg (E Res : Type) : Type → Type := Prog (BridgeCall E Res) (BridgeReply E Res)

/-- One call of a run, with its reply. -/
abbrev BridgeEvent (E Res : Type) : Type := Event (BridgeCall E Res) (BridgeReply E Res)

/-- The data of the options; their functions are the environment's.  A fingerprint that is no mode is a function,
and the flags say which of the optional functions are set. -/
structure BridgeConfig where
  methods : List JsString
  headerName : JsString
  required : Bool
  keySyntax : KeySyntax
  scoping : ResolvedHttpOptions
  fingerprint : Option FingerprintMode
  maxRequestBytes : ℤ
  storeHeaders : List JsString
  policy : PolicyConfig
  problemBaseUri : JsString
  docsUrl : JsString
  problemTitles : ProblemCode → Option JsString
  onError : Bool := false
  skip : Bool := false

section

variable {m : Type → Type} {E Res : Type}

/-- A store whose every answer is the environment's. -/
def storeOf (ask : (c : EngineCall E) → m (EngineReply E c)) : Store m E where
  begin op opts := ask (.Begin op opts)
  complete op fence payload now := ask (.Complete op fence payload now)
  abandon op fence := ask (.Abandon op fence)

/-- The hooks of an environment. -/
def hooksOf (ask : (c : EngineCall E) → m (EngineReply E c)) (installed : Installed) : ExecuteHooks m E where
  onAcquired := if installed.onAcquired then some fun op => ask (.Hook (.OnAcquired op)) else none
  onReplayed := if installed.onReplayed then some fun op rec => ask (.Hook (.OnReplayed op rec)) else none
  onConflict := if installed.onConflict then some fun op n => ask (.Hook (.OnConflict op n)) else none
  onMismatch := if installed.onMismatch then some fun op rec => ask (.Hook (.OnMismatch op rec)) else none
  onStoreError := if installed.onStoreError then some fun op e => ask (.Hook (.OnStoreError op e)) else none

/-- The policy whose functions are an environment's. -/
def PolicyConfig.policyOf (cfg : PolicyConfig) (ask : (c : EngineCall E) → m (EngineReply E c)) :
    ExecutePolicy m E where
  leaseMs := cfg.leaseMs
  ttlMs := cfg.ttlMs
  maxResultBytes := cfg.maxResultBytes
  storeResult result := ask (.StoreResult result)
  onStoreError := cfg.onStoreError
  clock := ask .Clock
  hooks := cfg.hooks.map (hooksOf ask)
  hookErrors := if cfg.hookErrors then some (ask .CountHookError) else none

/-- The options whose functions are an environment's. -/
def BridgeConfig.options (cfg : BridgeConfig) (ask : (c : BridgeCall E Res) → m (BridgeReply E Res c)) :
    BridgeOptions m E Res where
  store := storeOf fun c => ask (.Engine c)
  methods := cfg.methods
  headerName := cfg.headerName
  required := cfg.required
  keySyntax := cfg.keySyntax
  scoping := cfg.scoping
  fingerprint := match cfg.fingerprint with
    | some mode => .Mode mode
    | none => .Function fun _ body => ask (.Fingerprint body)
  maxRequestBytes := cfg.maxRequestBytes
  storeHeaders := cfg.storeHeaders
  policy := cfg.policy.policyOf fun c => ask (.Engine c)
  problemBaseUri := cfg.problemBaseUri
  docsUrl := cfg.docsUrl
  problemTitles := cfg.problemTitles
  onError := if cfg.onError then some fun p _ => ask (.OnError p) else none
  skip := if cfg.skip then some fun _ => ask .Skip else none

section

variable (cfg : BridgeConfig) (ask : (c : BridgeCall E Res) → m (BridgeReply E Res c))

@[simp] lemma options_headerName : (cfg.options ask).headerName = cfg.headerName := rfl

@[simp] lemma options_keySyntax : (cfg.options ask).keySyntax = cfg.keySyntax := rfl

@[simp] lemma options_required : (cfg.options ask).required = cfg.required := rfl

@[simp] lemma options_scoping : (cfg.options ask).scoping = cfg.scoping := rfl

@[simp] lemma options_docsUrl : (cfg.options ask).docsUrl = cfg.docsUrl := rfl

end

/-- The functions of a request in an environment. -/
def transportOf (ask : (c : BridgeCall E Res) → m (BridgeReply E Res c)) (unreachable : E) : Transport m E Res where
  readBody limit := ask (.ReadBody limit)
  run info := ask (.Run info)
  captureResponse res _ _ extraHeaders := ask (.Capture res extraHeaders)
  stored := ask .Stored
  executedWithoutResponse := unreachable

/-- `runIdempotent` in an arbitrary environment. -/
def bridgeCalls {F : Type} (d : NumberText.Doubles F) (sha256Hex : List UInt8 → JsString) (unreachable : E)
    (cfg : BridgeConfig) (req : Request) (ctx : RunContext) : BridgeProg E Res (Except E (Answer Res)) :=
  runIdempotent d sha256Hex (transportOf Prog.call unreachable) (cfg.options Prog.call) req ctx

end

end Anyonce
