import Anyonce.Go.QueueOptions
import Anyonce.Queue.Options
import Anyonce.Webhook.Scope

/-!
# What webhook and queue scopes keep apart

Both doors join two names with a slash, and either name may have slashes of its own.  So two pairs that
differ may share one scope, and with it one dedupe namespace: the route of one goes on, behind a slash,
into the sender of the other, or it is the whole of the other's join.

* `scopeOf_eq_ok`, `Go.scopeOf_eq_ok` — the computed scope as the join of the queue and the group.
* `dedupe_scopes_separate_iff` — when different pairs have different scopes.
-/

namespace Anyonce

section

variable {E F : Type}

/-- The queue and the consumer group of a message: an absent or empty group counts as none. -/
def queueGroup (message : IMessage F) (options : ResolvedOptions E F) :
    JsString × Option JsString :=
  ((queueName message.metadata).1.getD [],
    Separator.given (options.consumerGroup.or (queueName message.metadata).2))

lemma scopeOf_eq_ok {message : IMessage F} {options : ResolvedOptions E F} {scope : JsString}
    (hscope : options.scope = none) (h : scopeOf message options = .ok scope) :
    scope = Separator.join 0x2f (queueGroup message options) := by
  unfold scopeOf at h
  unfold queueGroup
  rw [hscope] at h
  rcases hname : queueName message.metadata with ⟨_ | queue, group⟩
  · rw [hname] at h
    cases h
  · simp only [hname] at h
    split_ifs at h with hqueue
    cases hgroup : options.consumerGroup.or group with
    | none =>
        rw [hgroup] at h
        cases h
        rfl
    | some group =>
        simp only [hgroup] at h
        by_cases hempty : group = []
        · rw [if_pos hempty] at h
          cases h
          simp only [hempty, Separator.given_nil]
          rfl
        · rw [if_neg hempty] at h
          cases h
          simp only [Separator.given_of_ne hempty]
          rfl

end

namespace Go

/-- The queue and the consumer group of a message: an empty group counts as none. -/
def queueGroup (msg : Message) (o : ResolvedOptions) : GoString × Option GoString :=
  ((queueName msg.metadata).1, Separator.given (some
    (if o.consumerGroup ≠ [] then o.consumerGroup else (queueName msg.metadata).2)))

lemma scopeOf_eq_ok {msg : Message} {o : ResolvedOptions} {scope : GoString}
    (hfunc : o.scopeFunc = none) (hscope : o.scope = []) (h : scopeOf o msg = .ok scope) :
    scope = Separator.join 0x2f (queueGroup msg o) := by
  unfold scopeOf at h
  unfold queueGroup
  rw [hfunc] at h
  dsimp only at h
  rw [if_neg (not_not.mpr hscope)] at h
  generalize (if o.consumerGroup ≠ [] then o.consumerGroup else (queueName msg.metadata).2) = group
    at h ⊢
  split_ifs at h with hqueue hempty
  · cases h
    rw [hempty, Separator.given_nil]
    rfl
  · cases h
    rw [Separator.given_of_ne hempty]
    rfl

end Go

/-! ## Pairs and scopes -/

open Separator (Straddles join_ne_iff)

/-- **When dedupe namespaces are separate.**  Two deliveries with different routes or senders, and two
messages with different queues or consumer groups, have different scopes exactly when neither pair
straddles the other: neither first name goes on, behind the other's and a slash, into the other's second
name.  In both languages. -/
theorem dedupe_scopes_separate_iff (E F : Type) :
    (∀ (req req' : Request) (body body' : List UInt8) (options options' : WebhookReceiverOptions),
      options.scope = none → options'.scope = none →
      options.sender req body ≠ options'.sender req' body' →
      (webhookScope req body options ≠ webhookScope req' body' options' ↔
        ¬ Straddles 0x2f (options.sender req body) (options'.sender req' body')
          ∧ ¬ Straddles 0x2f (options'.sender req' body') (options.sender req body)))
    ∧ (∀ (r r' : Go.HttpRequest) (body body' : List UInt8) (o o' : Go.WebhookOptions),
      o.scope = none → o'.scope = none → o.sender r body ≠ o'.sender r' body' →
      (Go.webhookScope r body o ≠ Go.webhookScope r' body' o' ↔
        ¬ Straddles 0x2f (o.sender r body) (o'.sender r' body')
          ∧ ¬ Straddles 0x2f (o'.sender r' body') (o.sender r body)))
    ∧ (∀ (message message' : IMessage F) (options options' : ResolvedOptions E F)
        (scope scope' : JsString), options.scope = none → options'.scope = none →
      scopeOf message options = .ok scope → scopeOf message' options' = .ok scope' →
      queueGroup message options ≠ queueGroup message' options' →
      (scope ≠ scope' ↔ ¬ Straddles 0x2f (queueGroup message options) (queueGroup message' options')
        ∧ ¬ Straddles 0x2f (queueGroup message' options') (queueGroup message options)))
    ∧ ∀ (msg msg' : Go.Message) (o o' : Go.ResolvedOptions) (scope scope' : Go.GoString),
      o.scopeFunc = none → o'.scopeFunc = none → o.scope = [] → o'.scope = [] →
      Go.scopeOf o msg = .ok scope → Go.scopeOf o' msg' = .ok scope' →
      Go.queueGroup msg o ≠ Go.queueGroup msg' o' →
      (scope ≠ scope' ↔ ¬ Straddles 0x2f (Go.queueGroup msg o) (Go.queueGroup msg' o')
        ∧ ¬ Straddles 0x2f (Go.queueGroup msg' o') (Go.queueGroup msg o)) := by
  refine ⟨?_, ?_, ?_, ?_⟩
  · intro req req' body body' options options' hscope hscope' hne
    rw [webhookScope_eq hscope, webhookScope_eq hscope']
    exact join_ne_iff hne
  · intro r r' body body' o o' hscope hscope' hne
    rw [Go.webhookScope_eq hscope, Go.webhookScope_eq hscope']
    exact join_ne_iff hne
  · intro message message' options options' scope scope' hscope hscope' h h' hne
    rw [scopeOf_eq_ok hscope h, scopeOf_eq_ok hscope' h']
    exact join_ne_iff hne
  · intro msg msg' o o' scope scope' hfunc hfunc' hscope hscope' h h' hne
    rw [Go.scopeOf_eq_ok hfunc hscope h, Go.scopeOf_eq_ok hfunc' hscope' h']
    exact join_ne_iff hne

/-- A receiver with a route pattern and a sender. -/
def receiverOf (route source : JsString) : WebhookReceiverOptions where
  routePattern := some (.Pattern route)
  sourceId := some fun _ _ => some source

def Go.receiverOf (route source : GoString) : Go.WebhookOptions where
  routePattern := route
  sourceID := some fun _ _ => source

/-- A message of a Redis stream and its consumer group. -/
def streamMessage (stream group : JsString) : IMessage Unit where
  id := js "1-0"
  body := .Text []
  headers := Relational.Table.empty
  metadata := { provider := .RedisStreams, redisStreams := some ⟨some stream, some group⟩ }

def Go.streamMessage (stream group : GoString) : Go.Message where
  id := ascii "1-0"
  body := []
  headers := Relational.Table.empty
  metadata := { provider := .RedisStreams, redisStreams := some ⟨stream, group⟩ }

/-- The options with nothing given. -/
def defaultOptions : ResolvedOptions Empty Unit where
  key := .Id
  keyHeader := defaultKeyHeader
  scope := none
  consumerGroup := none
  fingerprint _ := .ok []

def Go.defaultOptions : Go.ResolvedOptions := Go.withDefaults (fun _ => []) {}

/-- Two senders of one route, and two groups of one stream. -/
theorem dedupe_scopes_separate_iff_senders :
    webhookScope spacedRequest [] (receiverOf (js "/hooks") (js "eu/acme"))
        ≠ webhookScope spacedRequest [] (receiverOf (js "/hooks") (js "eu"))
      ∧ Go.webhookScope Go.spacedRequest [] (Go.receiverOf (Go.ascii "/hooks") (Go.ascii "eu/acme"))
        ≠ Go.webhookScope Go.spacedRequest [] (Go.receiverOf (Go.ascii "/hooks") (Go.ascii "eu"))
      ∧ js "orders/eu/billing" ≠ js "orders/eu"
      ∧ Go.ascii "orders/eu/billing" ≠ Go.ascii "orders/eu" := by
  obtain ⟨hts, hgo, hqueue, hgoQueue⟩ := dedupe_scopes_separate_iff Empty Unit
  refine ⟨?_, ?_, ?_, ?_⟩
  · refine (hts _ _ _ _ _ _ rfl rfl (by decide)).mpr ⟨?_, ?_⟩
    · exact Separator.not_straddles_of_fst_eq rfl
    · exact Separator.not_straddles_of_fst_eq rfl
  · refine (hgo _ _ _ _ _ _ rfl rfl (by decide)).mpr ⟨?_, ?_⟩
    · exact Separator.not_straddles_of_fst_eq rfl
    · exact Separator.not_straddles_of_fst_eq rfl
  · refine (hqueue (streamMessage (js "orders") (js "eu/billing"))
      (streamMessage (js "orders") (js "eu")) defaultOptions defaultOptions _ _ rfl rfl rfl rfl
      (by decide)).mpr ⟨?_, ?_⟩
    · exact Separator.not_straddles_of_fst_eq rfl
    · exact Separator.not_straddles_of_fst_eq rfl
  · refine (hgoQueue (Go.streamMessage (Go.ascii "orders") (Go.ascii "eu/billing"))
      (Go.streamMessage (Go.ascii "orders") (Go.ascii "eu")) Go.defaultOptions Go.defaultOptions _ _
      rfl rfl rfl rfl rfl rfl (by decide)).mpr ⟨?_, ?_⟩
    · exact Separator.not_straddles_of_fst_eq rfl
    · exact Separator.not_straddles_of_fst_eq rfl

/-- **Two senders, and two groups, that share a namespace**: `eu/acme` of the route `/hooks`, and `acme`
of the route `/hooks/eu`. -/
theorem dedupe_scopes_shared :
    ((receiverOf (js "/hooks") (js "eu/acme")).sender spacedRequest []
        ≠ (receiverOf (js "/hooks/eu") (js "acme")).sender spacedRequest []
      ∧ webhookScope spacedRequest [] (receiverOf (js "/hooks") (js "eu/acme"))
        = webhookScope spacedRequest [] (receiverOf (js "/hooks/eu") (js "acme")))
    ∧ ((Go.receiverOf (Go.ascii "/hooks") (Go.ascii "eu/acme")).sender Go.spacedRequest []
        ≠ (Go.receiverOf (Go.ascii "/hooks/eu") (Go.ascii "acme")).sender Go.spacedRequest []
      ∧ Go.webhookScope Go.spacedRequest [] (Go.receiverOf (Go.ascii "/hooks") (Go.ascii "eu/acme"))
        = Go.webhookScope Go.spacedRequest [] (Go.receiverOf (Go.ascii "/hooks/eu") (Go.ascii "acme")))
    ∧ (queueGroup (streamMessage (js "orders") (js "eu/billing")) defaultOptions
        ≠ queueGroup (streamMessage (js "orders/eu") (js "billing")) defaultOptions
      ∧ scopeOf (streamMessage (js "orders") (js "eu/billing")) defaultOptions
        = .ok (js "orders/eu/billing")
      ∧ scopeOf (streamMessage (js "orders/eu") (js "billing")) defaultOptions
        = .ok (js "orders/eu/billing"))
    ∧ Go.queueGroup (Go.streamMessage (Go.ascii "orders") (Go.ascii "eu/billing")) Go.defaultOptions
        ≠ Go.queueGroup (Go.streamMessage (Go.ascii "orders/eu") (Go.ascii "billing")) Go.defaultOptions
      ∧ Go.scopeOf Go.defaultOptions (Go.streamMessage (Go.ascii "orders") (Go.ascii "eu/billing"))
        = .ok (Go.ascii "orders/eu/billing")
      ∧ Go.scopeOf Go.defaultOptions (Go.streamMessage (Go.ascii "orders/eu") (Go.ascii "billing"))
        = .ok (Go.ascii "orders/eu/billing") := by
  refine ⟨⟨by decide, by decide⟩, ⟨by decide, by decide⟩, ⟨by decide, ?_, ?_⟩, by decide, ?_, ?_⟩
  all_goals rfl

end Anyonce
