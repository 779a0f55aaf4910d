import Anyonce.Http.Order
import Anyonce.Webhook.Receiver

/-!
# Runs of the receiver

A delivery is refused before the bridge, or it passes by the receiver because of its method, or the bridge runs and
the receiver answers it.

* `receiver_run` — **every run takes one of the courses**.
* `bridge_interpreted`, `interpreted_bridge` — what the bridge asks, the receiver asks, and the other way round.
-/

namespace Anyonce

open Interaction Interaction.Lawful

section

variable {E Res : Type}

/-! ## What the receiver does before the bridge -/

/-- The id of a delivery, as it was found. -/
def deliveryKey : Option JsString → KeyLookup
  | none => .Missing
  | some raw =>
      if raw = [] then .Missing
      else
        match parseKey raw .Lenient with
        | .Fail reason => .Invalid reason
        | .Ok key => .Ok key

namespace ReceiverConfig

variable (cfg : ReceiverConfig)

/-- There is something to verify a delivery with. -/
def Configured : Prop := cfg.verify = true ∨ cfg.verifiedMarker.isSome = true

/-- A problem with this code, detail and headers, or what the user's `onError` makes of it. -/
def IsProblem (code : ProblemCode) (detail : Option JsString) (headers : HeaderFields)
    (t : List (ReceiverEvent E Res)) (a : Except E (Answer Res)) : Prop :=
  let p := problem code cfg.common.problemBaseUri detail (webhookTitles cfg.header cfg.problemTitles code)
  if cfg.common.onError then
    ∃ r, ⟨.Bridge (.OnError p), r⟩ ∈ t
      ∧ a = r.map fun res => .Rendered res (headers ++ [(js "Cache-Control", js "no-store")])
  else a = .ok (.Problem p headers)

/-- A configuration error of this cause, unless the logger throws. -/
def IsMalfunction (cause : LogCause) (t : List (ReceiverEvent E Res)) (a : Except E (Answer Res)) : Prop :=
  (∃ thrown, ⟨.Log cause.message, .error thrown⟩ ∈ t ∧ a = .error thrown)
    ∨ cfg.IsProblem .ConfigurationError (some cause.detail) [] t a

/-- The calls that establish whether a delivery is genuine. -/
def IsVerdict (body : List UInt8) (v : List (ReceiverEvent E Res)) (r : Except E Bool) : Prop :=
  if cfg.verify then v = [⟨.Verify body, r⟩]
  else
    match cfg.verifiedMarker with
    | some marker => ∃ found, v = [⟨.IsVerified marker, found⟩] ∧ r = .ok found
    | none => v = [] ∧ r = .ok false

/-- The calls that find the id of a delivery. -/
def IsKey (req : Request) (body : List UInt8) (k : List (ReceiverEvent E Res)) (r : Except E KeyLookup) : Prop :=
  if cfg.key then ∃ raw, k = [⟨.Key body, raw⟩] ∧ r = raw.map deliveryKey
  else k = [] ∧ r = .ok (deliveryKey (req.headers.get cfg.header))

/-- What the receiver hands to the bridge. -/
def context (req : Request) (body : List UInt8) (keyLookup : KeyLookup) : RunContext where
  routeScope := some (webhookScope req body cfg.scoping)
  keyLookup := some keyLookup
  body := some body

/-- How the receiver answers the bridge, beside no state. -/
def answerState (sha256Hex : List UInt8 → JsString) (req : Request) (c : BridgeCall E Res) :
    StateT Unit (ReceiverProg E Res) (BridgeReply E Res c) :=
  StateT.lift (cfg.answerBridge sha256Hex req c)

end ReceiverConfig

/-- What is done to report a problem. -/
def ReceiverCall.isReport : ReceiverCall E Res → Bool
  | .Bridge (.OnError _) => true
  | .Log _ => true
  | _ => false

variable {cfg : ReceiverConfig} {req : Request} {t : List (ReceiverEvent E Res)} {a : Except E (Answer Res)}

lemma ReceiverConfig.IsProblem.mono {code : ProblemCode} {detail : Option JsString} {headers : HeaderFields}
    {t' : List (ReceiverEvent E Res)} (h : cfg.IsProblem code detail headers t a) (ht : ∀ e ∈ t, e ∈ t') :
    cfg.IsProblem code detail headers t' a := by
  unfold IsProblem at h ⊢
  split_ifs at h ⊢
  · obtain ⟨r, hmem, ha⟩ := h
    exact ⟨r, ht _ hmem, ha⟩
  · exact h

lemma ReceiverConfig.IsMalfunction.mono {cause : LogCause} {t' : List (ReceiverEvent E Res)}
    (h : cfg.IsMalfunction cause t a) (ht : ∀ e ∈ t, e ∈ t') : cfg.IsMalfunction cause t' a := by
  rcases h with ⟨thrown, hmem, ha⟩ | hproblem
  · exact Or.inl ⟨thrown, ht _ hmem, ha⟩
  · exact Or.inr (hproblem.mono ht)

section

variable {sha256Hex : List UInt8 → JsString} {unreachable : E}

lemma runs_gate_fail {code : ProblemCode} {detail : Option JsString} {headers : HeaderFields}
    (h : Runs ((cfg.options.resolved sha256Hex).fail req code detail headers) t a) :
    (∀ e ∈ t, ∃ p, e.1 = ReceiverCall.Bridge (.OnError p)) ∧ cfg.IsProblem code detail headers t a := by
  cases hon : cfg.common.onError with
  | false =>
      simp only [BridgeOptions.fail, ReceiverOptions.resolved, ReceiverConfig.options, BridgeConfig.options, hon,
        Bool.false_eq_true, if_false] at h
      obtain ⟨rfl, rfl⟩ := runs_ret_iff.mp h
      exact ⟨by simp, by rw [ReceiverConfig.IsProblem, hon]; rfl⟩
  | true =>
      simp only [BridgeOptions.fail, ReceiverOptions.resolved, ReceiverConfig.options, BridgeConfig.options, hon,
        if_true] at h
      obtain ⟨r, t', rfl, hrendered⟩ := runs_call_iff.mp h
      cases r with
      | error thrown =>
          obtain ⟨rfl, rfl⟩ := runs_ret_iff.mp hrendered
          refine ⟨by simp, ?_⟩
          rw [ReceiverConfig.IsProblem, if_pos hon]
          exact ⟨.error thrown, List.mem_cons_self, rfl⟩
      | ok res =>
          obtain ⟨rfl, rfl⟩ := runs_ret_iff.mp hrendered
          refine ⟨by simp, ?_⟩
          rw [ReceiverConfig.IsProblem, if_pos hon]
          exact ⟨.ok res, List.mem_cons_self, rfl⟩

lemma runs_malfunction {cause : LogCause}
    (h : Runs (cfg.options.malfunction sha256Hex (ReceiverConfig.transport unreachable) req cause) t a) :
    (∃ logged t', t = ⟨.Latch cause, logged⟩ :: t' ∧ (∀ e ∈ t', e.1.isReport = true)
        ∧ ∀ message r, ⟨.Log message, r⟩ ∈ t' → message = cause.message ∧ logged = false)
      ∧ cfg.IsMalfunction cause t a := by
  obtain ⟨logged, t', rfl, hrest⟩ := runs_call_iff.mp h
  cases logged with
  | true =>
      obtain ⟨honError, hproblem⟩ := runs_gate_fail hrest
      refine ⟨⟨true, t', rfl, fun e he => ?_, fun message r hmem => ?_⟩, Or.inr (hproblem.mono fun e he => by simp [he])⟩
      · obtain ⟨p, hp⟩ := honError e he
        rw [hp]
        rfl
      · obtain ⟨p, hp⟩ := honError _ hmem
        cases hp
  | false =>
      obtain ⟨written, t'', rfl, hfail⟩ := runs_call_iff.mp hrest
      cases written with
      | error thrown =>
          obtain ⟨rfl, rfl⟩ := runs_ret_iff.mp hfail
          refine ⟨⟨false, _, rfl, by simp [ReceiverCall.isReport], by simp⟩, Or.inl ⟨thrown, by simp, rfl⟩⟩
      | ok u =>
          obtain ⟨honError, hproblem⟩ := runs_gate_fail hfail
          refine ⟨⟨false, _, rfl, fun e he => ?_, fun message r hmem => ?_⟩,
            Or.inr (hproblem.mono fun e he => by simp [he])⟩
          · rcases List.mem_cons.mp he with rfl | he
            · rfl
            · obtain ⟨p, hp⟩ := honError e he
              rw [hp]
              rfl
          · rcases List.mem_cons.mp hmem with heq | hmem
            · cases heq
              exact ⟨rfl, rfl⟩
            · obtain ⟨p, hp⟩ := honError _ hmem
              cases hp

lemma runs_verified {body : List UInt8} {r : Except E Bool}
    (h : Runs (cfg.options.verified (ReceiverConfig.transport unreachable :
      ReceiverTransport (ReceiverProg E Res) E Res) req body) t r) :
    cfg.IsVerdict body t r := by
  unfold ReceiverOptions.verified at h
  cases hverify : cfg.verify with
  | true =>
      simp only [ReceiverConfig.options, hverify, if_true] at h
      obtain rfl := runs_prog_call_iff.mp h
      rw [ReceiverConfig.IsVerdict, if_pos hverify]
  | false =>
      simp only [ReceiverConfig.options, hverify, Bool.false_eq_true, if_false] at h
      rw [ReceiverConfig.IsVerdict, if_neg (by simp [hverify])]
      cases hmarker : cfg.verifiedMarker with
      | none =>
          simp only [hmarker] at h
          obtain ⟨rfl, rfl⟩ := runs_ret_iff.mp h
          exact ⟨rfl, rfl⟩
      | some marker =>
          simp only [hmarker] at h
          obtain ⟨found, t', rfl, hret⟩ := runs_call_iff.mp h
          obtain ⟨rfl, rfl⟩ := runs_ret_iff.mp hret
          exact ⟨found, rfl, rfl⟩

lemma runs_resolveKey {body : List UInt8} {r : Except E KeyLookup}
    (h : Runs ((cfg.options : ReceiverOptions (ReceiverProg E Res) E Res).resolveKey req body) t r) : cfg.IsKey req body t r := by
  unfold ReceiverOptions.resolveKey at h
  obtain ⟨t₁, t₂, raw, rfl, hraw, hrest⟩ := runs_bind_iff.mp h
  have hkey : t₂ = [] ∧ r = raw.map deliveryKey := by
    rcases raw with thrown | (_ | raw)
    · obtain ⟨rfl, rfl⟩ := runs_ret_iff.mp hrest
      exact ⟨rfl, rfl⟩
    · obtain ⟨rfl, rfl⟩ := runs_ret_iff.mp hrest
      exact ⟨rfl, rfl⟩
    · dsimp only at hrest
      split at hrest
      · next hempty =>
        obtain ⟨rfl, rfl⟩ := runs_ret_iff.mp hrest
        exact ⟨rfl, by simp [Except.map, deliveryKey, hempty]⟩
      · next hempty =>
        split at hrest
        · next reason hparse =>
          obtain ⟨rfl, rfl⟩ := runs_ret_iff.mp hrest
          exact ⟨rfl, by simp [Except.map, deliveryKey, hempty, hparse]⟩
        · next key hparse =>
          obtain ⟨rfl, rfl⟩ := runs_ret_iff.mp hrest
          exact ⟨rfl, by simp [Except.map, deliveryKey, hempty, hparse]⟩
  obtain ⟨rfl, rfl⟩ := hkey
  rw [List.append_nil]
  unfold ReceiverConfig.IsKey
  cases hset : cfg.key with
  | true =>
      simp only [ReceiverConfig.options, hset, if_true] at hraw
      obtain rfl := runs_prog_call_iff.mp hraw
      exact ⟨raw, rfl, rfl⟩
  | false =>
      simp only [ReceiverConfig.options, hset, Bool.false_eq_true, if_false] at hraw
      obtain ⟨rfl, rfl⟩ := runs_ret_iff.mp hraw
      exact ⟨rfl, rfl⟩

/-- The bridge of one request is the bridge of an arbitrary environment, answered. -/
lemma runs_bridge {F : Type} {d : NumberText.Doubles F} {ctx : RunContext}
    (h : Runs (runIdempotent d sha256Hex (ReceiverConfig.transport unreachable).bridge
      (cfg.options.runOptions sha256Hex req) req ctx) t a) :
    ∃ u, Runs (bridgeCalls d sha256Hex unreachable cfg.bridge req ctx) u a
      ∧ Interpreted (cfg.answerState sha256Hex req) () u t () := by
  have htransport : (ReceiverConfig.transport unreachable : ReceiverTransport (ReceiverProg E Res) E Res).bridge
      = transportOf (cfg.answerBridge sha256Hex req) unreachable := rfl
  rw [htransport, ReceiverConfig.runOptions_eq, ← runIdempotent_eq_interpret] at h
  exact runs_interpret_lift_iff.mp h

/-! ## The courses of a delivery -/

/-- The course of a delivery. -/
inductive ReceiverRun {F : Type} (d : NumberText.Doubles F) (sha256Hex : List UInt8 → JsString) (unreachable : E)
    (cfg : ReceiverConfig) (req : Request) : List (ReceiverEvent E Res) → Except E (Answer Res) → Prop
  | unconfigured (logged : Bool) (t : List (ReceiverEvent E Res)) (a : Except E (Answer Res)) (hcfg : ¬ cfg.Configured)
      (ht : ∀ e ∈ t, e.1.isReport = true)
      (hlog : ∀ message r, ⟨.Log message, r⟩ ∈ t → message = LogCause.Unconfigured.message ∧ logged = false)
      (ha : cfg.IsMalfunction .Unconfigured (⟨.Latch .Unconfigured, logged⟩ :: t) a) :
      ReceiverRun d sha256Hex unreachable cfg req (⟨.Latch .Unconfigured, logged⟩ :: t) a
  | passed (r : Except E Res) (hcfg : cfg.Configured) (hmethod : req.method ∉ cfg.common.methods) :
      ReceiverRun d sha256Hex unreachable cfg req [⟨.Bridge (.Run none), r⟩] (r.map .Passed)
  | unread (thrown : E) (hcfg : cfg.Configured) (hmethod : req.method ∈ cfg.common.methods) :
      ReceiverRun d sha256Hex unreachable cfg req
        [⟨.Bridge (.ReadBody cfg.common.maxRequestBytes), .error thrown⟩] (.error thrown)
  | oversized (t : List (ReceiverEvent E Res)) (a : Except E (Answer Res)) (hcfg : cfg.Configured)
      (hmethod : req.method ∈ cfg.common.methods) (ht : ∀ e ∈ t, ∃ p, e.1 = ReceiverCall.Bridge (.OnError p))
      (ha : cfg.IsProblem .PayloadTooLarge none [] t a) :
      ReceiverRun d sha256Hex unreachable cfg req
        (⟨.Bridge (.ReadBody cfg.common.maxRequestBytes), .ok none⟩ :: t) a
  | failed (body : List UInt8) (thrown : E) (v : List (ReceiverEvent E Res)) (logged : Bool)
      (t : List (ReceiverEvent E Res)) (a : Except E (Answer Res)) (hcfg : cfg.Configured)
      (hmethod : req.method ∈ cfg.common.methods) (hv : cfg.IsVerdict body v (.error thrown))
      (ht : ∀ e ∈ t, e.1.isReport = true)
      (hlog : ∀ message r, ⟨.Log message, r⟩ ∈ t → message = LogCause.VerifierFailed.message ∧ logged = false)
      (ha : cfg.IsMalfunction .VerifierFailed (⟨.Latch .VerifierFailed, logged⟩ :: t) a) :
      ReceiverRun d sha256Hex unreachable cfg req (⟨.Bridge (.ReadBody cfg.common.maxRequestBytes), .ok (some body)⟩
        :: (v ++ ⟨.Latch .VerifierFailed, logged⟩ :: t)) a
  | rejected (body : List UInt8) (v t : List (ReceiverEvent E Res)) (a : Except E (Answer Res)) (hcfg : cfg.Configured)
      (hmethod : req.method ∈ cfg.common.methods) (hv : cfg.IsVerdict body v (.ok false))
      (ht : ∀ e ∈ t, ∃ p, e.1 = ReceiverCall.Bridge (.OnError p))
      (ha : cfg.IsProblem .SignatureInvalid none [signatureChallenge] t a) :
      ReceiverRun d sha256Hex unreachable cfg req
        (⟨.Bridge (.ReadBody cfg.common.maxRequestBytes), .ok (some body)⟩ :: (v ++ t)) a
  | keyless (body : List UInt8) (v k : List (ReceiverEvent E Res)) (thrown : E) (hcfg : cfg.Configured)
      (hmethod : req.method ∈ cfg.common.methods) (hv : cfg.IsVerdict body v (.ok true))
      (hk : cfg.IsKey req body k (.error thrown)) :
      ReceiverRun d sha256Hex unreachable cfg req
        (⟨.Bridge (.ReadBody cfg.common.maxRequestBytes), .ok (some body)⟩ :: (v ++ k)) (.error thrown)
  | admitted (body : List UInt8) (v k : List (ReceiverEvent E Res)) (keyLookup : KeyLookup)
      (u : List (BridgeEvent E Res)) (t : List (ReceiverEvent E Res)) (a : Except E (Answer Res)) (hcfg : cfg.Configured)
      (hmethod : req.method ∈ cfg.common.methods) (hv : cfg.IsVerdict body v (.ok true))
      (hk : cfg.IsKey req body k (.ok keyLookup))
      (hrun : Runs (bridgeCalls d sha256Hex unreachable cfg.bridge req (cfg.context req body keyLookup)) u a)
      (ht : Interpreted (cfg.answerState sha256Hex req) () u t ()) :
      ReceiverRun d sha256Hex unreachable cfg req
        (⟨.Bridge (.ReadBody cfg.common.maxRequestBytes), .ok (some body)⟩ :: (v ++ (k ++ t))) a

@[simp] lemma options_verify : (cfg.options : ReceiverOptions (ReceiverProg E Res) E Res).verify.isNone = !cfg.verify := by
  cases hverify : cfg.verify <;> simp [ReceiverConfig.options, hverify]

@[simp] lemma options_verifiedMarker :
    (cfg.options : ReceiverOptions (ReceiverProg E Res) E Res).verifiedMarker = cfg.verifiedMarker := rfl

@[simp] lemma resolved_methods :
    ((cfg.options : ReceiverOptions (ReceiverProg E Res) E Res).resolved sha256Hex).methods = cfg.common.methods := rfl

/-- **Every run takes one of the courses.** -/
lemma receiver_run {F : Type} {d : NumberText.Doubles F} (h : Runs (receiverCalls d sha256Hex unreachable cfg req) t a) :
    ReceiverRun d sha256Hex unreachable cfg req t a := by
  unfold receiverCalls ReceiverOptions.receive at h
  split at h
  · next hnone =>
    have hcfg : ¬ cfg.Configured := by simpa [ReceiverConfig.Configured] using hnone
    obtain ⟨⟨logged, t', rfl, hfront, hlog⟩, ha⟩ := runs_malfunction h
    exact .unconfigured logged t' a hcfg hfront hlog ha
  · next hsome =>
    have hcfg : cfg.Configured := by
      cases hverify : cfg.verify <;> simp_all [ReceiverConfig.Configured, Option.isSome_iff_ne_none]
    dsimp only at h
    split at h
    · next hunlisted =>
      have hmethod : req.method ∉ cfg.common.methods := by simpa using hunlisted
      obtain ⟨r, t', rfl, hret⟩ := runs_call_iff.mp h
      obtain ⟨rfl, rfl⟩ := runs_ret_iff.mp hret
      exact .passed r hcfg hmethod
    · next hlisted =>
      have hmethod : req.method ∈ cfg.common.methods := by simpa using hlisted
      obtain ⟨t₁, t', read, rfl, hread, hrest⟩ := runs_bind_iff.mp h
      obtain rfl := runs_prog_call_iff.mp hread
      rcases read with thrown | (_ | body)
      · obtain ⟨rfl, rfl⟩ := runs_ret_iff.mp hrest
        exact .unread thrown hcfg hmethod
      · obtain ⟨honError, hproblem⟩ := runs_gate_fail hrest
        exact .oversized t' a hcfg hmethod honError hproblem
      · obtain ⟨v, t'', verdict, rfl, hverified, hthen⟩ := runs_bind_iff.mp hrest
        have hv := runs_verified hverified
        rcases verdict with thrown | (_ | _)
        · obtain ⟨⟨logged, t₃, rfl, hfront, hlog⟩, ha⟩ := runs_malfunction hthen
          exact .failed body thrown v logged t₃ a hcfg hmethod hv hfront hlog ha
        · obtain ⟨honError, hproblem⟩ := runs_gate_fail hthen
          exact .rejected body v t'' a hcfg hmethod hv honError hproblem
        · obtain ⟨k, t₃, found, rfl, hfound, hlast⟩ := runs_bind_iff.mp hthen
          have hk := runs_resolveKey hfound
          cases found with
          | error thrown =>
              obtain ⟨rfl, rfl⟩ := runs_ret_iff.mp hlast
              rw [List.append_nil]
              exact .keyless body v k thrown hcfg hmethod hv hk
          | ok keyLookup =>
              obtain ⟨u, hrun, hu⟩ := runs_bridge hlast
              exact .admitted body v k keyLookup u t₃ a hcfg hmethod hv hk hrun hu

/-! ## Between the calls of the bridge and those of the receiver -/

/-- What the receiver answers a command of the bridge with. -/
inductive AnsweredBridge (cfg : ReceiverConfig) (sha256Hex : List UInt8 → JsString) :
    (c : BridgeCall E Res) → BridgeReply E Res c → List (ReceiverEvent E Res) → Prop
  | asked (c : BridgeCall E Res) (r : BridgeReply E Res c)
      (hmismatch : cfg.onSuspicious = true → ∀ op record, c ≠ .Engine (.Hook (.OnMismatch op record)))
      (hfingerprint : cfg.fingerprint = .Unset → ∀ body, c ≠ .Fingerprint body) :
      AnsweredBridge cfg sha256Hex c r [⟨.Bridge c, r⟩]
  | hashed (body : List UInt8) (hunset : cfg.fingerprint = .Unset) :
      AnsweredBridge cfg sha256Hex (.Fingerprint body) (.ok (sha256Hex body)) []
  | suspected (op : Operation) (record : IdempotencyRecord) (told : Except E Unit) (r : Except E Unit)
      (t : List (ReceiverEvent E Res)) (ht : ∀ e ∈ t, e.1 = ReceiverCall.Bridge (.Engine (.Hook (.OnMismatch op record)))
        ∨ e.1 = ReceiverCall.Bridge (.Engine .CountHookError)) :
      AnsweredBridge cfg sha256Hex (.Engine (.Hook (.OnMismatch op record))) r (⟨.OnSuspicious record, told⟩ :: t)

lemma answerBridge_suspicious (hsuspicious : cfg.onSuspicious = true) (op : Operation) (record : IdempotencyRecord) :
    (cfg.answerBridge sha256Hex req (.Engine (.Hook (.OnMismatch op record))) : ReceiverProg E Res (Except E Unit))
      = cfg.options.onMismatch (fun _ record => askReceiver (.OnSuspicious record)) req op record := by
  simp [ReceiverConfig.answerBridge, hsuspicious]

/-- Behind `onSuspicious` stands the user's own hook, whose failure is counted. -/
lemma only_onMismatch (cfg : ReceiverConfig) (req : Request) (op : Operation) (record : IdempotencyRecord) :
    ∃ k, (cfg.options : ReceiverOptions (ReceiverProg E Res) E Res).onMismatch
        (fun _ record => askReceiver (.OnSuspicious record)) req op record = .Call (.OnSuspicious record) k
      ∧ ∀ r, (k r).Only fun c => c = ReceiverCall.Bridge (.Engine (.Hook (.OnMismatch op record)))
        ∨ c = ReceiverCall.Bridge (.Engine .CountHookError) := by
  refine ⟨_, rfl, fun r => ?_⟩
  simp only [Prog.bind]
  refine only_bind ?_ fun fired => ?_
  · simp only [ReceiverConfig.options, BridgeConfig.options, PolicyConfig.policyOf, hooksOf_getD, hooksOf, map_installed]
    cases (cfg.common.policy.hooks.getD {}).onMismatch with
    | false => exact only_ret _
    | true => exact ⟨Or.inl rfl, fun _ => trivial⟩
  · cases fired with
    | ok u => exact only_ret _
    | error thrown =>
        simp only [ReceiverConfig.options, BridgeConfig.options, PolicyConfig.policyOf]
        cases cfg.common.policy.hookErrors with
        | false => exact only_ret _
        | true => exact ⟨Or.inr rfl, fun _ => trivial⟩

lemma answeredBridge_of_runs {c : BridgeCall E Res} {s s' : Unit} {r : BridgeReply E Res c}
    (h : Runs (cfg.answerState sha256Hex req c s) t (r, s')) : AnsweredBridge cfg sha256Hex c r t := by
  have hrun := (runs_lift_iff.mp h).1
  cases c with
  | Fingerprint body =>
      cases hfn : cfg.fingerprint with
      | Unset =>
          simp only [ReceiverConfig.answerBridge, hfn] at hrun
          obtain ⟨rfl, rfl⟩ := runs_ret_iff.mp hrun
          exact .hashed body hfn
      | Mode mode =>
          simp only [ReceiverConfig.answerBridge, hfn] at hrun
          obtain rfl := runs_prog_call_iff.mp hrun
          exact .asked _ r (by simp) (by simp [hfn])
      | Function =>
          simp only [ReceiverConfig.answerBridge, hfn] at hrun
          obtain rfl := runs_prog_call_iff.mp hrun
          exact .asked _ r (by simp) (by simp [hfn])
  | Engine c =>
      by_cases hhook : ∃ op record, c = .Hook (.OnMismatch op record) ∧ cfg.onSuspicious = true
      · obtain ⟨op, record, rfl, hsuspicious⟩ := hhook
        rw [answerBridge_suspicious hsuspicious] at hrun
        obtain ⟨k, hk, honly⟩ := only_onMismatch cfg req op record
        rw [hk] at hrun
        obtain ⟨told, t', rfl, hrest⟩ := runs_call_iff.mp hrun
        exact .suspected op record told r t' (hrest.only (honly told))
      · have hmismatch : cfg.onSuspicious = true → ∀ op record,
            (BridgeCall.Engine c : BridgeCall E Res) ≠ .Engine (.Hook (.OnMismatch op record)) :=
          fun hsuspicious op record heq => hhook ⟨op, record, BridgeCall.Engine.inj heq, hsuspicious⟩
        have hasked : cfg.answerBridge sha256Hex req (.Engine c) = askBridge (.Engine c : BridgeCall E Res) := by
          cases hsuspicious : cfg.onSuspicious with
          | false => exact ReceiverConfig.answerBridge_engine Res cfg sha256Hex hsuspicious req c
          | true =>
              cases c with
              | Hook call =>
                  cases call with
                  | OnMismatch op record => exact absurd rfl (hmismatch hsuspicious op record)
                  | _ => rfl
              | _ => rfl
        rw [hasked] at hrun
        obtain rfl := runs_prog_call_iff.mp hrun
        exact .asked _ r hmismatch (by simp)
  | Skip =>
      obtain rfl := runs_prog_call_iff.mp hrun
      exact .asked _ r (by simp) (by simp)
  | ReadBody limit =>
      obtain rfl := runs_prog_call_iff.mp hrun
      exact .asked _ r (by simp) (by simp)
  | Run info =>
      obtain rfl := runs_prog_call_iff.mp hrun
      exact .asked _ r (by simp) (by simp)
  | Capture res extraHeaders =>
      obtain rfl := runs_prog_call_iff.mp hrun
      exact .asked _ r (by simp) (by simp)
  | Stored =>
      obtain rfl := runs_prog_call_iff.mp hrun
      exact .asked _ r (by simp) (by simp)
  | OnError p =>
      obtain rfl := runs_prog_call_iff.mp hrun
      exact .asked _ r (by simp) (by simp)

/-- What the bridge asked, it was answered. -/
lemma bridge_interpreted {s s' : Unit} {u : List (BridgeEvent E Res)}
    (hu : Interpreted (cfg.answerState sha256Hex req) s u t s') {c : BridgeCall E Res} {r : BridgeReply E Res c}
    (hmem : ⟨c, r⟩ ∈ u) : ∃ t', (∀ e ∈ t', e ∈ t) ∧ AnsweredBridge cfg sha256Hex c r t' := by
  obtain ⟨u₁, u₂, rfl⟩ := List.append_of_mem hmem
  obtain ⟨t₁, t₂, t₃, s₁, s₂, rfl, -, hcall, -⟩ := hu.split
  exact ⟨t₂, fun e he => by simp [he], answeredBridge_of_runs hcall⟩

/-- What the receiver asks of the bridge's environment, the bridge asked. -/
lemma interpreted_bridge {s s' : Unit} {u : List (BridgeEvent E Res)}
    (hu : Interpreted (cfg.answerState sha256Hex req) s u t s') {c : BridgeCall E Res} {r : BridgeReply E Res c}
    (hmem : ⟨.Bridge c, r⟩ ∈ t) (hmismatch : ∀ op record, c ≠ .Engine (.Hook (.OnMismatch op record)))
    (hcount : c ≠ .Engine .CountHookError) : ⟨c, r⟩ ∈ u := by
  obtain ⟨u₁, c', r', u₂, t₁, t₂, t₃, s₁, s₂, rfl, rfl, hmem', -, hcall, -⟩ := hu.mem hmem
  cases answeredBridge_of_runs hcall with
  | asked c' r' hsuspicious hfingerprint =>
      cases List.mem_singleton.mp hmem'
      simp
  | hashed body hunset => simp at hmem'
  | suspected op record told r' t₂ ht =>
      rcases List.mem_cons.mp hmem' with heq | hmem'
      · cases heq
      · rcases ht _ hmem' with heq | heq
        · exact absurd (ReceiverCall.Bridge.inj heq) (hmismatch op record)
        · exact absurd (ReceiverCall.Bridge.inj heq) hcount

/-- What the bridge asked and the receiver passes on, the receiver asked. -/
lemma bridge_asked {s s' : Unit} {u : List (BridgeEvent E Res)}
    (hu : Interpreted (cfg.answerState sha256Hex req) s u t s') {c : BridgeCall E Res} {r : BridgeReply E Res c}
    (hmem : ⟨c, r⟩ ∈ u) (hmismatch : ∀ op record, c ≠ .Engine (.Hook (.OnMismatch op record)))
    (hfingerprint : ∀ body, c ≠ .Fingerprint body) : ⟨.Bridge c, r⟩ ∈ t := by
  obtain ⟨t', hsub, hanswered⟩ := bridge_interpreted hu hmem
  cases hanswered with
  | asked c r _ _ => exact hsub _ List.mem_cons_self
  | hashed body hunset => exact absurd rfl (hfingerprint body)
  | suspected op record told r t' ht => exact absurd rfl (hmismatch op record)

/-- The bridge's problems are the receiver's. -/
lemma isProblem_interpreted {s s' : Unit} {u : List (BridgeEvent E Res)}
    (hu : Interpreted (cfg.answerState sha256Hex req) s u t s') {code : ProblemCode} {detail : Option JsString}
    {headers : HeaderFields} (h : IsProblem cfg.bridge code detail headers u a) :
    cfg.IsProblem code detail headers t a := by
  unfold IsProblem at h
  unfold ReceiverConfig.IsProblem
  cases hon : cfg.common.onError with
  | true =>
      rw [if_pos (show cfg.bridge.onError = true from hon)] at h
      obtain ⟨r, hmem, ha⟩ := h
      exact ⟨r, bridge_asked hu hmem (by simp) (by simp), ha⟩
  | false =>
      rw [if_neg (show ¬ cfg.bridge.onError = true by rw [show cfg.bridge.onError = false from hon]; simp)] at h
      exact h

/-- A call of the handler. -/
def ReceiverCall.isRun : ReceiverCall E Res → Bool
  | .Bridge c => c.isRun
  | _ => false

lemma AnsweredBridge.run_count {c : BridgeCall E Res} {r : BridgeReply E Res c}
    (h : AnsweredBridge cfg sha256Hex c r t) : t.countP (fun e => e.1.isRun) = if c.isRun then 1 else 0 := by
  cases h with
  | asked c r _ _ => simp [ReceiverCall.isRun]
  | hashed body hunset => simp [BridgeCall.isRun]
  | suspected op record told r t ht =>
      rw [List.countP_cons_of_neg (by simp [ReceiverCall.isRun])]
      simp only [BridgeCall.isRun, Bool.false_eq_true, if_false, List.countP_eq_zero]
      intro e he
      rcases ht e he with heq | heq <;> simp [heq, ReceiverCall.isRun, BridgeCall.isRun]

lemma interpreted_bridge_run_count {s s' : Unit} {u : List (BridgeEvent E Res)}
    (hu : Interpreted (cfg.answerState sha256Hex req) s u t s') :
    t.countP (fun e => e.1.isRun) = u.countP fun e => e.1.isRun := by
  induction hu with
  | nil s => rfl
  | cons hcall hrest ih =>
      rw [List.countP_append, ih, (answeredBridge_of_runs hcall).run_count, List.countP_cons, Nat.add_comm]

/-- Behind the gate nothing is verified and no id is looked for. -/
lemma interpreted_shape {s s' : Unit} {u : List (BridgeEvent E Res)}
    (hu : Interpreted (cfg.answerState sha256Hex req) s u t s') {e : ReceiverEvent E Res} (he : e ∈ t) :
    (∃ c, e.1 = ReceiverCall.Bridge c) ∨ ∃ record, e.1 = ReceiverCall.OnSuspicious record := by
  obtain ⟨u₁, c, r, u₂, t₁, t₂, t₃, s₁, s₂, rfl, rfl, he', -, hcall, -⟩ := hu.mem he
  cases answeredBridge_of_runs hcall with
  | asked c r _ _ =>
      obtain rfl := List.mem_singleton.mp he'
      exact Or.inl ⟨c, rfl⟩
  | hashed body hunset => simp at he'
  | suspected op record told r t ht =>
      rcases List.mem_cons.mp he' with rfl | he'
      · exact Or.inr ⟨record, rfl⟩
      · rcases ht e he' with heq | heq
        · exact Or.inl ⟨_, heq⟩
        · exact Or.inl ⟨_, heq⟩

end

end

end Anyonce
