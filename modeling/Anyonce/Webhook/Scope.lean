import Anyonce.Go.Scope

/-!
# The scope of a webhook delivery

`webhookScope` of `packages/webhooks/src/receiver.ts` and `Middleware.scope` of
`go/webhookmw/middleware.go`: the route, and the sender behind a slash where there is one.

* `webhookScope_eq`, `Go.webhookScope_eq` — the scope as the join of the route and the sender.
-/

namespace Anyonce

/-- A route pattern, or a function of the request. -/
inductive RoutePattern
  | Pattern (text : JsString)
  | Function (f : Request → JsString)

/-- What `webhookScope` reads of the options. -/
structure WebhookReceiverOptions where
  routePattern : Option RoutePattern := none
  sourceId : Option (Request → List UInt8 → Option JsString) := none
  scope : Option (Request → List UInt8 → JsString) := none

namespace WebhookReceiverOptions

variable (options : WebhookReceiverOptions) (req : Request) (body : List UInt8)

/-- The route half of the scope. -/
def route : JsString :=
  match options.routePattern with
  | none => req.url.pathname
  | some (.Pattern text) => text
  | some (.Function f) => f req

/-- `options.sourceId?.(req, body)`. -/
def source : Option JsString := options.sourceId.bind fun sourceId => sourceId req body

/-- The route and the sender of a delivery: an absent or empty source counts as none. -/
def sender : JsString × Option JsString :=
  (options.route req, Separator.given (options.source req body))

end WebhookReceiverOptions

/-- `webhookScope`: the scope of the options, or the route and the source with a slash between them. -/
def webhookScope (req : Request) (body : List UInt8) (options : WebhookReceiverOptions) : JsString :=
  match options.scope with
  | some scope => scope req body
  | none =>
      let route := options.route req
      match options.source req body with
      | none => route
      | some source => if source = [] then route else route ++ 0x2f :: source

/-- **The computed scope joins the route and the sender.** -/
lemma webhookScope_eq {options : WebhookReceiverOptions} (hscope : options.scope = none)
    (req : Request) (body : List UInt8) :
    webhookScope req body options = Separator.join 0x2f (options.sender req body) := by
  unfold webhookScope WebhookReceiverOptions.sender
  rw [hscope]
  cases options.source req body with
  | none => rfl
  | some source =>
      by_cases hsource : source = []
      · simp only [hsource, if_true, Separator.given_nil]
        rfl
      · simp only [if_neg hsource, Separator.given_of_ne hsource]
        rfl

namespace Go

/-- What `scope` reads of the options. -/
structure WebhookOptions where
  routePattern : GoString := []
  sourceID : Option (HttpRequest → List UInt8 → GoString) := none
  scope : Option (HttpRequest → List UInt8 → GoString) := none

namespace WebhookOptions

variable (o : WebhookOptions) (r : HttpRequest) (body : List UInt8)

/-- The route half of the scope. -/
def route : GoString := if o.routePattern = [] then r.url.escapedPath else o.routePattern

/-- The route and the sender of a delivery: an empty source counts as none. -/
def sender : GoString × Option GoString :=
  (o.route r, Separator.given (o.sourceID.map fun sourceID => sourceID r body))

end WebhookOptions

/-- `Middleware.scope`. -/
def webhookScope (r : HttpRequest) (body : List UInt8) (o : WebhookOptions) : GoString :=
  match o.scope with
  | some scope => scope r body
  | none =>
      let route := o.route r
      match o.sourceID with
      | none => route
      | some sourceID =>
          let source := sourceID r body
          if source = [] then route else route ++ 0x2f :: source

/-- **The computed scope joins the route and the sender.** -/
lemma webhookScope_eq {o : WebhookOptions} (hscope : o.scope = none) (r : HttpRequest)
    (body : List UInt8) :
    webhookScope r body o = Separator.join 0x2f (o.sender r body) := by
  unfold webhookScope WebhookOptions.sender
  rw [hscope]
  cases o.sourceID with
  | none => rfl
  | some sourceID =>
      by_cases hsource : sourceID r body = []
      · simp only [hsource, if_true, Option.map_some, Separator.given_nil]
        rfl
      · simp only [if_neg hsource, Option.map_some, Separator.given_of_ne hsource]
        rfl

end Go

end Anyonce
