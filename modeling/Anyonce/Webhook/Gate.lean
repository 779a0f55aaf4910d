import Anyonce.Webhook.ReceiverRun

/-!
# The gate of the receiver

Nothing is done for a delivery before it was read whole and established to be genuine.

**What may be asked when.**  `Permitted` is the rule for one command after some calls and replies; it speaks of every
moment of a delivery, so it does not matter what the other deliveries are doing.

* `webhook_gate` — **every partial run keeps the rule**.
* `webhook_answered` — **what a delivery is answered**.
-/

namespace Anyonce

open Interaction

section

variable {E Res : Type}

/-! ## What may be asked when -/

/-- What is neither done to establish that a delivery is genuine nor to report that it was not. -/
def ReceiverCall.isGuarded : ReceiverCall E Res → Bool
  | .Bridge (.ReadBody _) => false
  | .Bridge (.OnError _) => false
  | .Verify _ => false
  | .IsVerified _ => false
  | .Latch _ => false
  | .Log _ => false
  | _ => true

/-- The body that a user's function of the receiver is given. -/
def ReceiverCall.body : ReceiverCall E Res → Option (List UInt8)
  | .Verify body => some body
  | .Key body => some body
  | _ => none

/-- The operation of a store call. -/
def ReceiverCall.operation : ReceiverCall E Res → Option Operation
  | .Bridge c => c.operation
  | _ => none

/-- A delivery was read, and established to be genuine. -/
structure Genuine (cfg : ReceiverConfig) (t : List (ReceiverEvent E Res)) (body : List UInt8) : Prop where
  read : ⟨.Bridge (.ReadBody cfg.common.maxRequestBytes), .ok (some body)⟩ ∈ t
  genuine : if cfg.verify then ⟨.Verify body, .ok true⟩ ∈ t
    else ∃ marker, cfg.verifiedMarker = some marker ∧ ⟨.IsVerified marker, true⟩ ∈ t

/-- The operation a delivery is: its id, its scope, and the fingerprint of its body. -/
structure Delivery {F : Type} (d : NumberText.Doubles F) (sha256Hex : List UInt8 → JsString) (cfg : ReceiverConfig)
    (req : Request) (t : List (ReceiverEvent E Res)) (body : List UInt8) (op : Operation) : Prop where
  key : if cfg.key then ∃ raw, ⟨.Key body, .ok raw⟩ ∈ t ∧ deliveryKey raw = .Ok op.key
    else deliveryKey (req.headers.get cfg.header) = .Ok op.key
  scope : op.scope = webhookScope req body cfg.scoping
  fingerprint : match cfg.fingerprint with
    | .Unset => op.fingerprint = sha256Hex body
    | .Mode mode => op.fingerprint = sha256Hex (requestPreimage d mode req.method (requestPath req) body)
    | .Function => ⟨.Bridge (.Fingerprint body), .ok op.fingerprint⟩ ∈ t

/-- **What may be asked after which calls and replies.** -/
structure Permitted {F : Type} (d : NumberText.Doubles F) (sha256Hex : List UInt8 → JsString) (cfg : ReceiverConfig)
    (req : Request) (t : List (ReceiverEvent E Res)) (c : ReceiverCall E Res) : Prop where
  /-- Nothing is done for a delivery that was not established to be genuine, except that a request with another
  method is handed on; and for that the store is never asked. -/
  admitted : c.isGuarded = true → cfg.Configured
    ∧ (req.method ∈ cfg.common.methods ∧ (∃ body, Genuine cfg t body)
      ∨ req.method ∉ cfg.common.methods ∧ c = .Bridge (.Run none))
  /-- For a request with another method, that is all that is done. -/
  handed_on : cfg.Configured → req.method ∉ cfg.common.methods → c = .Bridge (.Run none)
  /-- The user's functions see the body that was read. -/
  body : ∀ body, c.body = some body → ⟨.Bridge (.ReadBody cfg.common.maxRequestBytes), .ok (some body)⟩ ∈ t
  /-- The store is asked about nothing but the delivery that was established to be genuine. -/
  delivery : ∀ op, c.operation = some op → ∃ body, Genuine cfg t body ∧ Delivery d sha256Hex cfg req t body op
  /-- An alarm is raised only when the store knows the id with another body. -/
  suspicious : ∀ record, c = .OnSuspicious record →
    ∃ op opts, ⟨.Bridge (.Engine (.Begin op opts)), .ok (.Mismatch record)⟩ ∈ t
  /-- A line is logged only when its latch was not set. -/
  logged : ∀ message, c = .Log message → ∃ cause, message = LogCause.message cause ∧ ⟨.Latch cause, false⟩ ∈ t

variable {F : Type} {d : NumberText.Doubles F} {sha256Hex : List UInt8 → JsString} {unreachable : E}
  {cfg : ReceiverConfig} {req : Request} {t t' : List (ReceiverEvent E Res)} {body : List UInt8}

lemma Genuine.mono (h : Genuine cfg t body) (ht : ∀ e ∈ t, e ∈ t') : Genuine cfg t' body := by
  obtain ⟨hread, hgenuine⟩ := h
  refine ⟨ht _ hread, ?_⟩
  split_ifs at hgenuine ⊢
  · exact ht _ hgenuine
  · obtain ⟨marker, hmarker, hmem⟩ := hgenuine
    exact ⟨marker, hmarker, ht _ hmem⟩

/-! ## Every run keeps the rule -/

instance [Nonempty E] (c : ReceiverCall E Res) : Nonempty (ReceiverReply E Res c) := by
  obtain ⟨e⟩ := (inferInstance : Nonempty E)
  cases c with
  | Bridge c => exact (inferInstance : Nonempty (BridgeReply E Res c))
  | IsVerified marker => exact ⟨true⟩
  | Latch cause => exact ⟨true⟩
  | _ => exact ⟨.error e⟩

/-- What reports a problem is allowed, when the latch of its line was not set. -/
lemma permitted_report {e : ReceiverEvent E Res} (hlisted : cfg.Configured → req.method ∈ cfg.common.methods)
    (he : e.1.isReport = true)
    (hlog : ∀ message, e.1 = .Log message → ∃ cause, message = LogCause.message cause ∧ ⟨.Latch cause, false⟩ ∈ t) :
    Permitted d sha256Hex cfg req t e.1 := by
  obtain ⟨c, r⟩ := e
  rcases c with (_ | _ | _ | _ | _ | _ | _ | p) | body | marker | body | record | cause | message
  all_goals cases he
  · exact ⟨by simp [ReceiverCall.isGuarded], fun hcfg hno => absurd (hlisted hcfg) hno, by simp [ReceiverCall.body], by
      simp [ReceiverCall.operation, BridgeCall.operation], by simp, by simp⟩
  · exact ⟨by simp [ReceiverCall.isGuarded], fun hcfg hno => absurd (hlisted hcfg) hno, by simp [ReceiverCall.body],
      by simp [ReceiverCall.operation], by simp, hlog⟩

/-- A command that is behind the gate and needs nothing else. -/
lemma permitted_admitted {c : ReceiverCall E Res} (hcfg : cfg.Configured) (hmethod : req.method ∈ cfg.common.methods)
    (ht : Genuine cfg t body) (hbody : c.body = none) (hop : c.operation = none)
    (hsuspicious : ∀ record, c ≠ .OnSuspicious record) (hlog : ∀ message, c ≠ .Log message) :
    Permitted d sha256Hex cfg req t c where
  admitted _ := ⟨hcfg, Or.inl ⟨hmethod, body, ht⟩⟩
  handed_on _ hno := absurd hmethod hno
  body := by simp [hbody]
  delivery := by simp [hop]
  suspicious record heq := absurd heq (hsuspicious record)
  logged message heq := absurd heq (hlog message)

/-- What establishes that a delivery is genuine is asked about the body that was read. -/
lemma permitted_verdict {v : List (ReceiverEvent E Res)} {r : Except E Bool} (hv : cfg.IsVerdict body v r)
    (hmethod : req.method ∈ cfg.common.methods)
    (ht : ⟨.Bridge (.ReadBody cfg.common.maxRequestBytes), .ok (some body)⟩ ∈ t) :
    Everywhere (fun u => Permitted d sha256Hex cfg req (t ++ u)) v := by
  unfold ReceiverConfig.IsVerdict at hv
  split_ifs at hv
  · subst hv
    refine everywhere_cons_iff.mpr ⟨?_, everywhere_nil⟩
    exact ⟨by simp [ReceiverCall.isGuarded], fun _ hno => absurd hmethod hno, by simpa [ReceiverCall.body] using ht,
      by simp [ReceiverCall.operation], by simp, by simp⟩
  · split at hv
    · obtain ⟨found, rfl, -⟩ := hv
      refine everywhere_cons_iff.mpr ⟨?_, everywhere_nil⟩
      exact ⟨by simp [ReceiverCall.isGuarded], fun _ hno => absurd hmethod hno, by simp [ReceiverCall.body],
        by simp [ReceiverCall.operation], by simp, by simp⟩
    · obtain ⟨rfl, -⟩ := hv
      exact everywhere_nil

lemma admitted_of_verdict {v : List (ReceiverEvent E Res)} (hv : cfg.IsVerdict body v (.ok true)) :
    Genuine cfg (⟨.Bridge (.ReadBody cfg.common.maxRequestBytes), .ok (some body)⟩ :: v) body := by
  refine ⟨List.mem_cons_self, ?_⟩
  unfold ReceiverConfig.IsVerdict at hv
  split_ifs at hv ⊢
  · simp [hv]
  · split at hv
    · next marker hmarker =>
      obtain ⟨found, rfl, hfound⟩ := hv
      obtain rfl := Except.ok.inj hfound
      exact ⟨marker, hmarker, by simp⟩
    · cases hv.2

/-- The id is looked for behind the gate. -/
lemma permitted_key {k : List (ReceiverEvent E Res)} {r : Except E KeyLookup} (hk : cfg.IsKey req body k r)
    (hcfg : cfg.Configured) (hmethod : req.method ∈ cfg.common.methods) (ht : Genuine cfg t body) :
    Everywhere (fun u => Permitted d sha256Hex cfg req (t ++ u)) k := by
  unfold ReceiverConfig.IsKey at hk
  split_ifs at hk
  · obtain ⟨raw, rfl, -⟩ := hk
    refine everywhere_cons_iff.mpr ⟨?_, everywhere_nil⟩
    rw [List.append_nil]
    exact ⟨fun _ => ⟨hcfg, Or.inl ⟨hmethod, body, ht⟩⟩, fun _ hno => absurd hmethod hno,
      by simpa [ReceiverCall.body] using ht.read,
      by simp [ReceiverCall.operation], by simp, by simp⟩
  · obtain ⟨rfl, -⟩ := hk
    exact everywhere_nil

lemma AnsweredBridge.of_fingerprint {r : Except E JsString} (h : AnsweredBridge cfg sha256Hex (.Fingerprint body) r t) :
    cfg.fingerprint = .Unset ∧ r = .ok (sha256Hex body)
      ∨ cfg.fingerprint ≠ .Unset ∧ t = [⟨.Bridge (.Fingerprint body), r⟩] := by
  cases h with
  | asked c r hmismatch hno => exact Or.inr ⟨fun hunset => hno hunset body rfl, rfl⟩
  | hashed body hunset => exact Or.inl ⟨hunset, rfl⟩

/-- The operation that the bridge has identified is the delivery. -/
lemma delivery_of_identified {k : List (ReceiverEvent E Res)} {keyLookup : KeyLookup} {u : List (BridgeEvent E Res)}
    {op : Operation} (hk : cfg.IsKey req body k (.ok keyLookup))
    (hu : Interpreted (cfg.answerState sha256Hex req) () u t' ())
    (hop : Identified d sha256Hex cfg.bridge req (cfg.context req body keyLookup) u op) (hkt : ∀ e ∈ k, e ∈ t)
    (ht : ∀ e ∈ t', e ∈ t) : Delivery d sha256Hex cfg req t body op := by
  obtain ⟨hkey, hscope, body', hbody, hfingerprint⟩ := hop
  obtain rfl : body = body' := by simpa [ReceiverConfig.context] using hbody
  refine ⟨?_, ?_, ?_⟩
  · obtain rfl : keyLookup = .Ok op.key := hkey
    unfold ReceiverConfig.IsKey at hk
    split_ifs at hk ⊢
    · obtain ⟨raw, rfl, hraw⟩ := hk
      cases raw with
      | error thrown => cases hraw
      | ok raw => exact ⟨raw, hkt _ List.mem_cons_self, (Except.ok.inj hraw).symm⟩
    · exact (Except.ok.inj hk.2).symm
  · exact (ScopeResult.Ok.inj hscope).symm
  · cases hfn : cfg.fingerprint with
    | Unset =>
        simp only [ReceiverConfig.bridge, hfn] at hfingerprint
        obtain ⟨t₂, -, hanswered⟩ := bridge_interpreted hu hfingerprint
        rcases hanswered.of_fingerprint with ⟨-, hhashed⟩ | ⟨hset, -⟩
        · exact Except.ok.inj hhashed
        · exact absurd hfn hset
    | Mode mode =>
        simp only [ReceiverConfig.bridge, hfn] at hfingerprint
        exact hfingerprint
    | Function =>
        simp only [ReceiverConfig.bridge, hfn] at hfingerprint
        obtain ⟨t₂, hsub, hanswered⟩ := bridge_interpreted hu hfingerprint
        rcases hanswered.of_fingerprint with ⟨hunset, -⟩ | ⟨-, rfl⟩
        · simp [hfn] at hunset
        · exact ht _ (hsub _ List.mem_cons_self)

/-- What the receiver answers the bridge with is behind the gate. -/
lemma answerState_guarded [Nonempty E] {pre k : List (ReceiverEvent E Res)} {keyLookup : KeyLookup} {u : List (BridgeEvent E Res)}
    {s : Unit} {c : BridgeCall E Res} (hcfg : cfg.Configured) (hmethod : req.method ∈ cfg.common.methods)
    (hpre : Genuine cfg pre body) (hk : cfg.IsKey req body k (.ok keyLookup)) (hkpre : ∀ e ∈ k, e ∈ pre)
    (hu : Interpreted (cfg.answerState sha256Hex req) () u t s)
    (hc : BridgeRule d sha256Hex cfg.bridge req (cfg.context req body keyLookup) u c) :
    (cfg.answerState sha256Hex req c s).Guarded fun w => Permitted d sha256Hex cfg req (pre ++ (t ++ w)) := by
  have hadmitted : ∀ w, Genuine cfg (pre ++ (t ++ w)) body := fun w => hpre.mono fun e he => List.mem_append_left _ he
  refine guarded_of_runs fun t' ⟨reply, s'⟩ hrun => ?_
  cases answeredBridge_of_runs hrun with
  | asked c r hmismatch hfingerprint =>
      refine everywhere_cons_iff.mpr ⟨?_, everywhere_nil⟩
      refine ⟨fun _ => ⟨hcfg, Or.inl ⟨hmethod, body, hadmitted _⟩⟩, fun _ hno => absurd hmethod hno,
        by simp [ReceiverCall.body], ?_, by simp, by simp⟩
      intro op hop
      refine ⟨body, hadmitted _, delivery_of_identified hk hu (hc.1 op hop) ?_ ?_⟩
      · intro e he
        simp [hkpre e he]
      · intro e he
        simp [he]
  | hashed body hunset => exact everywhere_nil
  | suspected op record told r t₂ ht =>
      refine everywhere_cons_iff.mpr ⟨?_, everywhere_of_forall fun e he w => ?_⟩
      · refine ⟨fun _ => ⟨hcfg, Or.inl ⟨hmethod, body, hadmitted _⟩⟩, fun _ hno => absurd hmethod hno,
          by simp [ReceiverCall.body], by simp [ReceiverCall.operation], ?_, by simp⟩
        rintro record' heq
        cases heq
        obtain ⟨opts, hbegin⟩ := hc.2 op record rfl
        obtain ⟨t₃, hsub, hanswered⟩ := bridge_interpreted hu hbegin
        refine ⟨op, opts, ?_⟩
        generalize hr : (Except.ok (BeginOutcome.Mismatch record) : Except E (BeginOutcome IdempotencyRecord)) = r' at hanswered
        cases hanswered with
        | asked c r hmismatch hfingerprint =>
            subst hr
            have hmem := hsub _ List.mem_cons_self
            simp [hmem]
      · rcases ht e he with heq | heq
        · rw [heq]
          exact permitted_admitted hcfg hmethod (hadmitted _) rfl rfl (by simp) (by simp)
        · rw [heq]
          exact permitted_admitted hcfg hmethod (hadmitted _) rfl rfl (by simp) (by simp)

/-- Reports of a malfunction, behind its latch. -/
lemma permitted_malfunction (pre : List (ReceiverEvent E Res)) {cause : LogCause} {logged : Bool}
    (hlisted : cfg.Configured → req.method ∈ cfg.common.methods)
    (ht : ∀ e ∈ t, e.1.isReport = true)
    (hlog : ∀ message r, ⟨.Log message, r⟩ ∈ t → message = cause.message ∧ logged = false) :
    Everywhere (fun u => Permitted d sha256Hex cfg req (pre ++ u)) (⟨.Latch cause, logged⟩ :: t) := by
  refine everywhere_cons_iff.mpr ⟨?_, everywhere_of_forall fun e he u => permitted_report hlisted (ht e he) ?_⟩
  · exact ⟨by simp [ReceiverCall.isGuarded], fun hcfg hno => absurd (hlisted hcfg) hno, by simp [ReceiverCall.body],
      by simp [ReceiverCall.operation], by simp, by simp⟩
  · obtain ⟨c, r⟩ := e
    rintro message rfl
    obtain ⟨rfl, rfl⟩ := hlog message r he
    exact ⟨cause, rfl, by simp⟩

lemma permitted_onError (hmethod : req.method ∈ cfg.common.methods)
    (ht : ∀ e ∈ t, ∃ p, e.1 = ReceiverCall.Bridge (.OnError p))
    {P : List (ReceiverEvent E Res) → List (ReceiverEvent E Res)} :
    Everywhere (fun u => Permitted d sha256Hex cfg req (P u)) t := by
  refine everywhere_of_forall fun e he u => ?_
  obtain ⟨p, hp⟩ := ht e he
  exact permitted_report (fun _ => hmethod) (by rw [hp]; rfl) (by simp [hp])

lemma permitted_read (hmethod : req.method ∈ cfg.common.methods) (t : List (ReceiverEvent E Res)) :
    Permitted d sha256Hex cfg req t (.Bridge (.ReadBody cfg.common.maxRequestBytes)) :=
  ⟨by simp [ReceiverCall.isGuarded], fun _ hno => absurd hmethod hno, by simp [ReceiverCall.body],
    by simp [ReceiverCall.operation, BridgeCall.operation], by simp, by simp⟩

/-- The receiver keeps the rule. -/
lemma receiver_guarded : (receiverCalls d sha256Hex unreachable cfg req :
    ReceiverProg E Res (Except E (Answer Res))).Guarded (Permitted d sha256Hex cfg req) := by
  have : Nonempty E := ⟨unreachable⟩
  refine guarded_of_runs fun t a hrun => ?_
  cases receiver_run hrun with
  | unconfigured logged t a hcfg ht hlog ha => exact permitted_malfunction [] (fun hcfg' => absurd hcfg' hcfg) ht hlog
  | passed r hcfg hmethod =>
      refine everywhere_cons_iff.mpr ⟨?_, everywhere_nil⟩
      exact ⟨fun _ => ⟨hcfg, Or.inr ⟨hmethod, rfl⟩⟩, fun _ _ => rfl, by simp [ReceiverCall.body],
        by simp [ReceiverCall.operation, BridgeCall.operation], by simp, by simp⟩
  | unread thrown hcfg hmethod => exact everywhere_cons_iff.mpr ⟨permitted_read hmethod _, everywhere_nil⟩
  | oversized t a hcfg hmethod ht ha => exact everywhere_cons_iff.mpr ⟨permitted_read hmethod _, permitted_onError hmethod ht⟩
  | failed body thrown v logged t a hcfg hmethod hv ht hlog ha =>
      refine everywhere_cons_iff.mpr ⟨permitted_read hmethod _, everywhere_append_iff.mpr ⟨?_, ?_⟩⟩
      · exact permitted_verdict (t := [_]) hv hmethod List.mem_cons_self
      · exact permitted_malfunction (_ :: v) (fun _ => hmethod) ht hlog
  | rejected body v t a hcfg hmethod hv ht ha =>
      refine everywhere_cons_iff.mpr ⟨permitted_read hmethod _, everywhere_append_iff.mpr ⟨?_, permitted_onError hmethod ht⟩⟩
      exact permitted_verdict (t := [_]) hv hmethod List.mem_cons_self
  | keyless body v k thrown hcfg hmethod hv hk =>
      refine everywhere_cons_iff.mpr ⟨permitted_read hmethod _, everywhere_append_iff.mpr ⟨?_, ?_⟩⟩
      · exact permitted_verdict (t := [_]) hv hmethod List.mem_cons_self
      · exact permitted_key (t := _ :: v) hk hcfg hmethod (admitted_of_verdict hv)
  | admitted body v k keyLookup u t a hcfg hmethod hv hk hbridge ht =>
      refine everywhere_cons_iff.mpr ⟨permitted_read hmethod _, everywhere_append_iff.mpr ⟨?_, everywhere_append_iff.mpr ⟨?_, ?_⟩⟩⟩
      · exact permitted_verdict (t := [_]) hv hmethod List.mem_cons_self
      · exact permitted_key (t := _ :: v) hk hcfg hmethod (admitted_of_verdict hv)
      · refine ht.everywhere (hbridge.guarded bridge_guarded) fun u t s c hu hc => ?_
        have hadmitted := (admitted_of_verdict hv).mono fun e he => List.mem_append_left k he
        have hguarded := answerState_guarded hcfg hmethod hadmitted hk (fun e he => by simp [he]) hu hc
        simpa only [List.cons_append, List.append_assoc] using hguarded

/-- **The gate of the receiver.**  At every moment of a delivery, whatever the store, the handler and the user's
functions do, everything that was asked was permitted when it was asked. -/
theorem webhook_gate (d : NumberText.Doubles F) (sha256Hex : List UInt8 → JsString) (unreachable : E)
    (cfg : ReceiverConfig) (req : Request) {t : List (ReceiverEvent E Res)}
    {q : ReceiverProg E Res (Except E (Answer Res))} (h : Steps (receiverCalls d sha256Hex unreachable cfg req) t q) :
    Everywhere (Permitted d sha256Hex cfg req) t :=
  h.guarded receiver_guarded

/-! ## What a delivery is answered -/

/-- What the verification came to. -/
def Concluded (t : List (ReceiverEvent E Res)) (r : Except E Bool) : Prop :=
  (∃ body, ⟨.Verify body, r⟩ ∈ t) ∨ ∃ marker found, ⟨.IsVerified marker, found⟩ ∈ t ∧ r = .ok found

/-- The handler does not run. -/
def NoDeliveryRun (t : List (ReceiverEvent E Res)) : Prop := ∀ e ∈ t, e.1.isRun = false

/-- A function of the user's, or the reading of the body, threw this. -/
def DeliveryThrows (thrown : E) : ReceiverEvent E Res → Prop
  | ⟨.Bridge c, r⟩ => Throws thrown ⟨c, r⟩
  | ⟨.Key _, r⟩ => r = .error thrown
  | _ => False

namespace ReceiverConfig

/-- What the id of the delivery was found to be. -/
def FoundKey (cfg : ReceiverConfig) (req : Request) (t : List (ReceiverEvent E Res)) (keyLookup : KeyLookup) : Prop :=
  ∃ raw, keyLookup = deliveryKey raw ∧ if cfg.key then ∃ body, ⟨.Key body, .ok raw⟩ ∈ t else raw = req.headers.get cfg.header

/-- Why a genuine delivery is refused before the store is asked, and the problem it is refused with. -/
inductive Refuses (cfg : ReceiverConfig) (req : Request) (t : List (ReceiverEvent E Res)) :
    ProblemCode → Option JsString → HeaderFields → Prop
  | missingKey (hkey : cfg.FoundKey req t .Missing) (hrequired : cfg.required.getD true = true) :
      Refuses cfg req t .MissingKey none
        [(js "Link", js "<" ++ cfg.common.docsUrl ++ js ">; rel=\"describedby\"")]
  | invalidKey (reason : String) (hkey : cfg.FoundKey req t (.Invalid reason)) :
      Refuses cfg req t .InvalidKey (some (js reason)) []

/-- **Past the gate**: the delivery is skipped, or has no id and needs none, and the handler answers it; or the store is
asked; or a function of the user's threw, or the delivery is refused. -/
def PastGate (cfg : ReceiverConfig) (req : Request) (t : List (ReceiverEvent E Res)) (a : Except E (Answer Res)) : Prop :=
  (∃ r, ⟨.Bridge (.Run none), r⟩ ∈ t
      ∧ (⟨.Bridge .Skip, .ok true⟩ ∈ t ∨ cfg.FoundKey req t .Missing ∧ cfg.required.getD true = false))
    ∨ (∃ op opts r, ⟨.Bridge (.Engine (.Begin op opts)), r⟩ ∈ t)
    ∨ NoDeliveryRun t ∧ ((∃ thrown, a = .error thrown ∧ ∃ e ∈ t, DeliveryThrows thrown e)
      ∨ ∃ code detail headers, cfg.Refuses req t code detail headers ∧ cfg.IsProblem code detail headers t a)

/-- What follows from the reading of the body. -/
def FollowsRead (cfg : ReceiverConfig) (t : List (ReceiverEvent E Res)) (a : Except E (Answer Res)) :
    Except E (Option (List UInt8)) → Prop
  | .ok (some _) => ∃ r, Concluded t r
  | .ok none => NoDeliveryRun t ∧ cfg.IsProblem .PayloadTooLarge none [] t a
  | .error thrown => NoDeliveryRun t ∧ a = .error thrown

/-- What follows from the verification. -/
def FollowsVerdict (cfg : ReceiverConfig) (req : Request) (t : List (ReceiverEvent E Res)) (a : Except E (Answer Res)) :
    Except E Bool → Prop
  | .ok true => cfg.PastGate req t a
  | .ok false => NoDeliveryRun t ∧ cfg.IsProblem .SignatureInvalid none [signatureChallenge] t a
  | .error _ => NoDeliveryRun t ∧ cfg.IsMalfunction .VerifierFailed t a

/-- What follows from the answer of `begin`. -/
def Follows (cfg : ReceiverConfig) (t : List (ReceiverEvent E Res)) (a : Except E (Answer Res)) (key : JsString) :
    Except E (BeginOutcome IdempotencyRecord) → Prop
  | .ok (.Acquired fence) => ∃ r, ⟨.Bridge (.Run (some ⟨key, fence⟩)), r⟩ ∈ t
  | .ok (.Completed record) => NoDeliveryRun t ∧ a = .ok (.Replayed record)
  | .ok (.InFlight leaseUntil) => NoDeliveryRun t ∧ ∃ now, ⟨.Bridge (.Engine .Clock), now⟩ ∈ t
      ∧ cfg.IsProblem .Conflict none [(js "Retry-After", retryAfterSeconds leaseUntil now)] t a
  | .ok (.Mismatch record) => NoDeliveryRun t ∧ cfg.IsProblem .FingerprintMismatch none [] t a
      ∧ (cfg.onSuspicious = true → ∃ told, ⟨.OnSuspicious record, told⟩ ∈ t)
  | .error _ => match cfg.common.policy.onStoreError with
      | .FailClosed => NoDeliveryRun t ∧ cfg.IsProblem .StoreUnavailable none [(js "Retry-After", js "1")] t a
      | .FailOpen => ∃ r, ⟨.Bridge (.Run (some ⟨key, 0⟩)), r⟩ ∈ t

end ReceiverConfig

/-- **What the handler's own answer comes to**: its response is captured, and is what the sender gets, whatever becomes of
the claim; what it throws, or the capture throws, the request throws; and outside the layer its answer is passed on. -/
structure HandlerAnswers (t : List (ReceiverEvent E Res)) (a : Except E (Answer Res)) : Prop where
  own_response : ∀ info res, ⟨.Bridge (.Run (some info)), .ok res⟩ ∈ t →
    ∃ extraHeaders r, ⟨.Bridge (.Capture res extraHeaders), r⟩ ∈ t
  captured : ∀ res extraHeaders r, ⟨.Bridge (.Capture res extraHeaders), r⟩ ∈ t →
    a = r.map fun _ => .Captured res extraHeaders
  own_error : ∀ info thrown, ⟨.Bridge (.Run info), .error thrown⟩ ∈ t → a = .error thrown
  passed : ∀ r, ⟨.Bridge (.Run none), r⟩ ∈ t → a = r.map .Passed

/-- **What a delivery is answered**, over the calls `t` of the receiver and its answer: step by step, from the
configuration to the store's answer and the handler's. -/
structure DeliveryAnswered (cfg : ReceiverConfig) (req : Request) (t : List (ReceiverEvent E Res))
    (a : Except E (Answer Res)) : Prop where
  /-- The handler runs at most once. -/
  run_once : t.countP (fun e => e.1.isRun) ≤ 1
  /-- A receiver that cannot verify anything refuses every request. -/
  unconfigured : ¬ cfg.Configured → NoDeliveryRun t ∧ cfg.IsMalfunction .Unconfigured t a
  /-- A request with another method is answered by the handler alone. -/
  passed : cfg.Configured → req.method ∉ cfg.common.methods → ∃ r, t = [⟨.Bridge (.Run none), r⟩] ∧ a = r.map .Passed
  /-- Any other is read, which decides whether it is judged. -/
  read : cfg.Configured → req.method ∈ cfg.common.methods → ∃ r rest,
    t = ⟨.Bridge (.ReadBody cfg.common.maxRequestBytes), r⟩ :: rest ∧ cfg.FollowsRead t a r
  /-- What the verification came to decides whether the delivery goes on. -/
  verdict : ∀ r, Concluded t r → cfg.FollowsVerdict req t a r
  /-- What the store answers decides the rest. -/
  follows : ∀ op opts r, ⟨.Bridge (.Engine (.Begin op opts)), r⟩ ∈ t → cfg.Follows t a op.key r
  /-- Where the handler runs, it decides the answer. -/
  handler : HandlerAnswers t a

/-- What is done before the bridge. -/
def ReceiverCall.isBefore : ReceiverCall E Res → Bool
  | .Bridge (.ReadBody _) => true
  | .Bridge (.OnError _) => true
  | .Bridge _ => false
  | .OnSuspicious _ => false
  | _ => true

lemma isBefore_not_run {e : ReceiverEvent E Res} (he : e.1.isBefore = true) : e.1.isRun = false := by
  obtain ⟨c, r⟩ := e
  rcases c with (_ | _ | _ | _ | _ | _ | _ | p) | body | marker | body | record | cause | message
  all_goals first | rfl | cases he

/-- Where the handler does not run, it answers nothing. -/
lemma handlerAnswers_before {a : Except E (Answer Res)} (ht : ∀ e ∈ t, e.1.isBefore = true) : HandlerAnswers t a where
  own_response _ _ hmem := by cases ht _ hmem
  captured _ _ _ hmem := by cases ht _ hmem
  own_error _ _ hmem := by cases ht _ hmem
  passed _ hmem := by cases ht _ hmem

/-- A delivery that does not come to the bridge. -/
lemma answered_before {a : Except E (Answer Res)} (ht : ∀ e ∈ t, e.1.isBefore = true)
    (hunconfigured : ¬ cfg.Configured → cfg.IsMalfunction .Unconfigured t a)
    (hmethod : cfg.Configured → req.method ∈ cfg.common.methods)
    (hread : NoDeliveryRun t → cfg.Configured → ∃ r rest,
      t = ⟨.Bridge (.ReadBody cfg.common.maxRequestBytes), r⟩ :: rest ∧ cfg.FollowsRead t a r)
    (hverdict : NoDeliveryRun t → ∀ r, Concluded t r → cfg.FollowsVerdict req t a r) : DeliveryAnswered cfg req t a := by
  have hnoRun : NoDeliveryRun t := fun e he => isBefore_not_run (ht e he)
  exact {
    run_once := by
      rw [List.countP_eq_zero.mpr fun e he => by simp [hnoRun e he]]
      exact Nat.zero_le 1
    unconfigured := fun hcfg => ⟨hnoRun, hunconfigured hcfg⟩
    passed := fun hcfg hno => absurd (hmethod hcfg) hno
    read := fun hcfg _ => hread hnoRun hcfg
    verdict := hverdict hnoRun
    follows := fun op opts r hmem => by cases ht _ hmem
    handler := handlerAnswers_before ht }

def ReceiverCall.isVerdict : ReceiverCall E Res → Bool
  | .Verify _ => true
  | .IsVerified _ => true
  | _ => false

lemma not_concluded (ht : ∀ e ∈ t, e.1.isVerdict = false) (r : Except E Bool) : ¬ Concluded t r := by
  rintro (⟨body, hmem⟩ | ⟨marker, found, hmem, -⟩)
  · cases ht _ hmem
  · cases ht _ hmem

lemma isVerdict_of_verdict {v : List (ReceiverEvent E Res)} {r : Except E Bool} (hv : cfg.IsVerdict body v r) :
    ∀ e ∈ v, e.1.isVerdict = true := by
  unfold ReceiverConfig.IsVerdict at hv
  split_ifs at hv
  · simp [hv, ReceiverCall.isVerdict]
  · split at hv
    · obtain ⟨found, rfl, -⟩ := hv
      simp [ReceiverCall.isVerdict]
    · simp [hv.1]

/-- A delivery that was judged has a verdict. -/
lemma concluded_of_verdict {v : List (ReceiverEvent E Res)} {r : Except E Bool} (hcfg : cfg.Configured)
    (hv : cfg.IsVerdict body v r) (hvt : ∀ e ∈ v, e ∈ t) : Concluded t r := by
  unfold ReceiverConfig.IsVerdict at hv
  split_ifs at hv with hverify
  · subst hv
    exact Or.inl ⟨body, hvt _ List.mem_cons_self⟩
  · split at hv
    · next marker hmarker =>
      obtain ⟨found, rfl, rfl⟩ := hv
      exact Or.inr ⟨marker, found, hvt _ List.mem_cons_self, rfl⟩
    · next hmarker => simp [ReceiverConfig.Configured, hverify, hmarker] at hcfg

/-- There is one verdict. -/
lemma concluded_eq {v rest : List (ReceiverEvent E Res)} {r r' : Except E Bool} (hv : cfg.IsVerdict body v r)
    (hrest : ∀ e ∈ rest, e.1.isVerdict = false) {read : Except E (Option (List UInt8))}
    (h : Concluded (⟨.Bridge (.ReadBody cfg.common.maxRequestBytes), read⟩ :: (v ++ rest)) r') : r' = r := by
  have hmem : ∀ {c : ReceiverCall E Res} {r'' : ReceiverReply E Res c}, c.isVerdict = true →
      ⟨c, r''⟩ ∈ (⟨.Bridge (.ReadBody cfg.common.maxRequestBytes), read⟩ :: (v ++ rest) : List (ReceiverEvent E Res)) →
      ⟨c, r''⟩ ∈ v := by
    intro c r'' hc hmem
    rcases List.mem_cons.mp hmem with heq | hmem
    · cases heq
      cases hc
    · rcases List.mem_append.mp hmem with hmem | hmem
      · exact hmem
      · rw [show c.isVerdict = false from hrest _ hmem] at hc
        cases hc
  unfold ReceiverConfig.IsVerdict at hv
  rcases h with ⟨body', hverify⟩ | ⟨marker, found, hmarked, rfl⟩
  · have hverify' := hmem rfl hverify
    split_ifs at hv
    · subst hv
      cases List.mem_singleton.mp hverify'
      rfl
    · split at hv
      · obtain ⟨found, rfl, -⟩ := hv
        simp at hverify'
      · simp [hv.1] at hverify'
  · have hmarked' := hmem rfl hmarked
    split_ifs at hv
    · subst hv
      simp at hmarked'
    · split at hv
      · obtain ⟨found', rfl, rfl⟩ := hv
        cases List.mem_singleton.mp hmarked'
        rfl
      · simp [hv.1] at hmarked'

lemma isReport_before {e : ReceiverEvent E Res} (he : e.1.isReport = true) :
    e.1.isBefore = true ∧ e.1.isVerdict = false := by
  obtain ⟨c, r⟩ := e
  rcases c with (_ | _ | _ | _ | _ | _ | _ | p) | body | marker | body | record | cause | message
  all_goals first | exact ⟨rfl, rfl⟩ | cases he

lemma isVerdict_before {e : ReceiverEvent E Res} (he : e.1.isVerdict = true) : e.1.isBefore = true := by
  obtain ⟨c, r⟩ := e
  rcases c with c | body | marker | body | record | cause | message
  all_goals first | rfl | cases he

lemma key_before {k : List (ReceiverEvent E Res)} {r : Except E KeyLookup} (hk : cfg.IsKey req body k r) :
    ∀ e ∈ k, e.1.isBefore = true ∧ e.1.isVerdict = false := by
  unfold ReceiverConfig.IsKey at hk
  split_ifs at hk
  · obtain ⟨raw, rfl, -⟩ := hk
    simp [ReceiverCall.isBefore, ReceiverCall.isVerdict]
  · simp [hk.1]

/-- A delivery that was read and judged, and comes no further. -/
lemma answered_judged {v rest : List (ReceiverEvent E Res)} {r : Except E Bool} {a : Except E (Answer Res)}
    (hcfg : cfg.Configured) (hmethod : req.method ∈ cfg.common.methods)
    (hv : cfg.IsVerdict body v r) (hrest : ∀ e ∈ rest, e.1.isBefore = true ∧ e.1.isVerdict = false)
    (ha : NoDeliveryRun (⟨.Bridge (.ReadBody cfg.common.maxRequestBytes), .ok (some body)⟩ :: (v ++ rest)) →
      cfg.FollowsVerdict req (⟨.Bridge (.ReadBody cfg.common.maxRequestBytes), .ok (some body)⟩ :: (v ++ rest)) a r) :
    DeliveryAnswered cfg req (⟨.Bridge (.ReadBody cfg.common.maxRequestBytes), .ok (some body)⟩ :: (v ++ rest)) a := by
  refine answered_before ?_ (fun hno => absurd hcfg hno) (fun _ => hmethod) (fun _ _ => ?_) fun hnoRun r' hr' => ?_
  · intro e he
    rcases List.mem_cons.mp he with rfl | he
    · rfl
    · rcases List.mem_append.mp he with he | he
      · exact isVerdict_before (isVerdict_of_verdict hv e he)
      · exact (hrest e he).1
  · exact ⟨_, _, rfl, r, concluded_of_verdict hcfg hv fun e he => List.mem_cons_of_mem _ (List.mem_append_left _ he)⟩
  · rw [concluded_eq hv (fun e he => (hrest e he).2) hr']
    exact ha hnoRun

/-- A delivery that was not judged. -/
lemma answered_unjudged {a : Except E (Answer Res)} (ht : ∀ e ∈ t, e.1.isBefore = true ∧ e.1.isVerdict = false)
    (hunconfigured : ¬ cfg.Configured → cfg.IsMalfunction .Unconfigured t a)
    (hmethod : cfg.Configured → req.method ∈ cfg.common.methods)
    (hread : NoDeliveryRun t → cfg.Configured → ∃ r rest,
      t = ⟨.Bridge (.ReadBody cfg.common.maxRequestBytes), r⟩ :: rest ∧ cfg.FollowsRead t a r) :
    DeliveryAnswered cfg req t a :=
  answered_before (fun e he => (ht e he).1) hunconfigured hmethod hread fun _ r hr =>
    absurd hr (not_concluded (fun e he => (ht e he).2) r)

lemma forall_cons_before {e : ReceiverEvent E Res} (he : e.1.isBefore = true ∧ e.1.isVerdict = false)
    (ht : ∀ e ∈ t, e.1.isBefore = true ∧ e.1.isVerdict = false) :
    ∀ e' ∈ e :: t, e'.1.isBefore = true ∧ e'.1.isVerdict = false := by
  intro e' he'
  rcases List.mem_cons.mp he' with rfl | he'
  · exact he
  · exact ht e' he'

section Admitted

variable {pre : List (ReceiverEvent E Res)} {u : List (BridgeEvent E Res)} {a : Except E (Answer Res)} {ctx : RunContext}

/-- What the bridge asks of the store and the handler stands behind the gate. -/
lemma asked_admitted (hpre : ∀ e ∈ pre, e.1.isBefore = true) (hu : Interpreted (cfg.answerState sha256Hex req) () u t ())
    {c : BridgeCall E Res} {r : BridgeReply E Res c} (hc : (ReceiverCall.Bridge c).isBefore = false)
    (hmismatch : ∀ op record, c ≠ .Engine (.Hook (.OnMismatch op record))) (hcount : c ≠ .Engine .CountHookError)
    (hmem : ⟨.Bridge c, r⟩ ∈ pre ++ t) : ⟨c, r⟩ ∈ u := by
  rcases List.mem_append.mp hmem with hmem | hmem
  · have hbefore := hpre _ hmem
    rw [hc] at hbefore
    cases hbefore
  · exact interpreted_bridge hu hmem hmismatch hcount

lemma noRun_admitted (hpre : ∀ e ∈ pre, e.1.isBefore = true) (hu : Interpreted (cfg.answerState sha256Hex req) () u t ())
    (hno : NoRun u) : NoDeliveryRun (pre ++ t) := by
  intro e he
  rcases List.mem_append.mp he with he | he
  · exact isBefore_not_run (hpre e he)
  · have hzero : u.countP (fun e => e.1.isRun) = 0 := List.countP_eq_zero.mpr fun e' he' => by simp [hno e' he']
    rw [← interpreted_bridge_run_count hu] at hzero
    simpa using List.countP_eq_zero.mp hzero e he

/-- **What the store's answer leads to**, behind the gate. -/
lemma follows_admitted (hpre : ∀ e ∈ pre, e.1.isBefore = true)
    (hbridge : Runs (bridgeCalls d sha256Hex unreachable cfg.bridge req ctx) u a)
    (hu : Interpreted (cfg.answerState sha256Hex req) () u t ()) {op : Operation} {opts : BeginOptions}
    {r : Except E (BeginOutcome IdempotencyRecord)} (hmem : ⟨.Bridge (.Engine (.Begin op opts)), r⟩ ∈ pre ++ t) :
    cfg.Follows (pre ++ t) a op.key r := by
  have hmem' := asked_admitted hpre hu rfl (by simp) (by simp) hmem
  have hasked : ∀ {c : BridgeCall E Res} {r : BridgeReply E Res c}, ⟨c, r⟩ ∈ u →
      (∀ op record, c ≠ .Engine (.Hook (.OnMismatch op record))) → (∀ body, c ≠ .Fingerprint body) →
      ⟨.Bridge c, r⟩ ∈ pre ++ t :=
    fun hmem hmismatch hfingerprint => List.mem_append_right _ (bridge_asked hu hmem hmismatch hfingerprint)
  have hproblem : ∀ {code : ProblemCode} {detail : Option JsString} {headers : HeaderFields},
      IsProblem cfg.bridge code detail headers u a → cfg.IsProblem code detail headers (pre ++ t) a :=
    fun h => (isProblem_interpreted hu h).mono fun e he => List.mem_append_right _ he
  have hfollows := (bridge_discipline hbridge).follows op opts r hmem'
  rcases r with error | (fence | leaseUntil | record | record)
  · have hmode : cfg.bridge.policy.onStoreError = cfg.common.policy.onStoreError := by
      unfold ReceiverConfig.bridge
      dsimp only
      split_ifs <;> rfl
    unfold Follows at hfollows
    unfold ReceiverConfig.Follows
    rw [hmode] at hfollows
    cases hcase : cfg.common.policy.onStoreError with
    | FailClosed =>
        simp only [hcase] at hfollows
        exact ⟨noRun_admitted hpre hu hfollows.1, hproblem hfollows.2⟩
    | FailOpen =>
        simp only [hcase] at hfollows
        obtain ⟨r, hran⟩ := hfollows
        exact ⟨r, hasked hran (by simp) (by simp)⟩
  · obtain ⟨r, hran⟩ := hfollows
    exact ⟨r, hasked hran (by simp) (by simp)⟩
  · obtain ⟨hno, now, hclock, hconflict⟩ := hfollows
    exact ⟨noRun_admitted hpre hu hno, now, hasked hclock (by simp) (by simp), hproblem hconflict⟩
  · exact ⟨noRun_admitted hpre hu hfollows.2, hfollows.1⟩
  · refine ⟨noRun_admitted hpre hu hfollows.1, hproblem hfollows.2, fun hsuspicious => ?_⟩
    have hinstalled : (cfg.bridge.policy.hooks.getD {}).onMismatch = true := by simp [ReceiverConfig.bridge, hsuspicious]
    obtain ⟨r, hhook⟩ := bridge_mismatch hinstalled hbridge hmem'
    obtain ⟨t', hsub, hanswered⟩ := bridge_interpreted hu hhook
    cases hanswered with
    | asked c r hmismatch _ => exact absurd rfl (hmismatch hsuspicious op record)
    | suspected op record told r t' ht => exact ⟨told, List.mem_append_right _ (hsub _ List.mem_cons_self)⟩

/-- **What the handler answers**, behind the gate. -/
lemma handler_admitted (hpre : ∀ e ∈ pre, e.1.isBefore = true)
    (hbridge : Runs (bridgeCalls d sha256Hex unreachable cfg.bridge req ctx) u a)
    (hu : Interpreted (cfg.answerState sha256Hex req) () u t ()) : HandlerAnswers (pre ++ t) a where
  own_response info res hmem := by
    obtain ⟨extraHeaders, r, hcapture⟩ :=
      (bridge_discipline hbridge).own_response info res (asked_admitted hpre hu rfl (by simp) (by simp) hmem)
    exact ⟨extraHeaders, r, List.mem_append_right _ (bridge_asked hu hcapture (by simp) (by simp))⟩
  captured res extraHeaders r hmem :=
    (bridge_discipline hbridge).captured res extraHeaders r (asked_admitted hpre hu rfl (by simp) (by simp) hmem)
  own_error info thrown hmem :=
    (bridge_discipline hbridge).own_error info thrown (asked_admitted hpre hu rfl (by simp) (by simp) hmem)
  passed r hmem := ((bridge_discipline hbridge).passed r (asked_admitted hpre hu rfl (by simp) (by simp) hmem)).2.1

/-- What a function of the user's throws at the bridge, it throws at the receiver. -/
lemma throws_admitted (hu : Interpreted (cfg.answerState sha256Hex req) () u t ()) {thrown : E} {e : BridgeEvent E Res}
    (he : e ∈ u) (hthrows : Throws thrown e) : ∃ e' ∈ t, DeliveryThrows thrown e' := by
  obtain ⟨c, r⟩ := e
  obtain ⟨t', hsub, hanswered⟩ := bridge_interpreted hu he
  cases hanswered with
  | asked c r _ _ => exact ⟨_, hsub _ List.mem_cons_self, hthrows⟩
  | hashed body hunset => cases hthrows
  | suspected op record told r t' ht => exact absurd hthrows (by simp [Throws])

/-- **What a genuine delivery comes to.** -/
lemma past_admitted {k : List (ReceiverEvent E Res)} {keyLookup : KeyLookup} (hpre : ∀ e ∈ pre, e.1.isBefore = true)
    (hk : cfg.IsKey req body k (.ok keyLookup)) (hkpre : ∀ e ∈ k, e ∈ pre) (hmethod : req.method ∈ cfg.common.methods)
    (hbridge : Runs (bridgeCalls d sha256Hex unreachable cfg.bridge req (cfg.context req body keyLookup)) u a)
    (hu : Interpreted (cfg.answerState sha256Hex req) () u t ()) : cfg.PastGate req (pre ++ t) a := by
  have hfound : cfg.FoundKey req (pre ++ t) keyLookup := by
    unfold ReceiverConfig.IsKey at hk
    unfold ReceiverConfig.FoundKey
    split_ifs at hk ⊢ with hset
    · obtain ⟨raw, rfl, hraw⟩ := hk
      cases raw with
      | error thrown => cases hraw
      | ok raw => exact ⟨raw, Except.ok.inj hraw, body, List.mem_append_left _ (hkpre _ List.mem_cons_self)⟩
    · exact ⟨_, Except.ok.inj hk.2, rfl⟩
  rcases (bridge_discipline hbridge).course with ⟨r, hran⟩ | ⟨op, opts, r, hbegun⟩ | ⟨hno, -, hanswered⟩
  · refine Or.inl ⟨r, List.mem_append_right _ (bridge_asked hu hran (by simp) (by simp)), ?_⟩
    cases ((bridge_discipline hbridge).passed r hran).1 with
    | method hunlisted => exact absurd hmethod hunlisted
    | skipped hskip => exact Or.inl (List.mem_append_right _ (bridge_asked hu hskip (by simp) (by simp)))
    | keyless hkey hoptional =>
        obtain rfl : keyLookup = .Missing := hkey
        exact Or.inr ⟨hfound, hoptional⟩
  · exact Or.inr (Or.inl ⟨op, opts, r, List.mem_append_right _ (bridge_asked hu hbegun (by simp) (by simp))⟩)
  · refine Or.inr (Or.inr ⟨noRun_admitted hpre hu hno, ?_⟩)
    rcases hanswered with ⟨thrown, ha, e, he, hthrows⟩ | ⟨code, detail, headers, hrefused, hproblem⟩
    · obtain ⟨e', he', hthrows'⟩ := throws_admitted hu he hthrows
      exact Or.inl ⟨thrown, ha, e', List.mem_append_right _ he', hthrows'⟩
    · refine Or.inr ⟨code, detail, headers, ?_, (isProblem_interpreted hu hproblem).mono fun e he =>
        List.mem_append_right _ he⟩
      cases hrefused with
      | missingKey hkey hrequired =>
          obtain rfl : keyLookup = .Missing := hkey
          exact .missingKey hfound hrequired
      | invalidKey reason hkey =>
          obtain rfl : keyLookup = .Invalid reason := hkey
          exact .invalidKey reason hfound
      | missingPrincipal hscope => cases hscope
      | tooLarge hbody hread => cases hbody

/-- A delivery that reaches the bridge. -/
lemma answered_admitted {body : List UInt8} {v k : List (ReceiverEvent E Res)} {keyLookup : KeyLookup}
    (hcfg : cfg.Configured) (hmethod : req.method ∈ cfg.common.methods) (hv : cfg.IsVerdict body v (.ok true))
    (hk : cfg.IsKey req body k (.ok keyLookup))
    (hbridge : Runs (bridgeCalls d sha256Hex unreachable cfg.bridge req (cfg.context req body keyLookup)) u a)
    (hu : Interpreted (cfg.answerState sha256Hex req) () u t ()) :
    DeliveryAnswered cfg req
      (⟨.Bridge (.ReadBody cfg.common.maxRequestBytes), .ok (some body)⟩ :: (v ++ (k ++ t))) a := by
  have hpre : ∀ e ∈ (⟨.Bridge (.ReadBody cfg.common.maxRequestBytes), .ok (some body)⟩ :: (v ++ k) :
      List (ReceiverEvent E Res)), e.1.isBefore = true := by
    intro e he
    rcases List.mem_cons.mp he with rfl | he
    · rfl
    · rcases List.mem_append.mp he with he | he
      · exact isVerdict_before (isVerdict_of_verdict hv e he)
      · exact (key_before hk e he).1
  have hrest : ∀ e ∈ k ++ t, e.1.isVerdict = false := by
    intro e he
    rcases List.mem_append.mp he with he | he
    · exact (key_before hk e he).2
    · rcases interpreted_shape hu he with ⟨c, hc⟩ | ⟨record, hrecord⟩
      · rw [hc]
        rfl
      · rw [hrecord]
        rfl
  have hassoc : (⟨.Bridge (.ReadBody cfg.common.maxRequestBytes), .ok (some body)⟩ :: (v ++ (k ++ t)) :
      List (ReceiverEvent E Res))
      = (⟨.Bridge (.ReadBody cfg.common.maxRequestBytes), .ok (some body)⟩ :: (v ++ k)) ++ t := by simp
  exact {
    run_once := by
      rw [hassoc, List.countP_append, List.countP_eq_zero.mpr fun e he => by simp [isBefore_not_run (hpre e he)],
        interpreted_bridge_run_count hu, Nat.zero_add]
      exact (bridge_discipline hbridge).run_once
    unconfigured := fun hno => absurd hcfg hno
    passed := fun _ hno => absurd hmethod hno
    read := fun _ _ => ⟨_, _, rfl, .ok true, concluded_of_verdict hcfg hv fun e he => by simp [he]⟩
    verdict := fun r hr => by
      rw [concluded_eq hv hrest hr, hassoc]
      exact past_admitted hpre hk (fun e he => by simp [he]) hmethod hbridge hu
    follows := fun op opts r hmem => by
      rw [hassoc] at hmem ⊢
      exact follows_admitted hpre hbridge hu hmem
    handler := by
      rw [hassoc]
      exact handler_admitted hpre hbridge hu }

end Admitted

/-- A delivery whose method is not listed. -/
lemma answered_passed (r : Except E Res) (hcfg : cfg.Configured) (hmethod : req.method ∉ cfg.common.methods) :
    DeliveryAnswered cfg req [⟨.Bridge (.Run none), r⟩] (r.map .Passed) where
  run_once := by simp [ReceiverCall.isRun, BridgeCall.isRun]
  unconfigured hno := absurd hcfg hno
  passed _ _ := ⟨r, rfl, rfl⟩
  read _ hlisted := absurd hlisted hmethod
  verdict r' hr' := absurd hr' (not_concluded (by simp [ReceiverCall.isVerdict]) r')
  follows := by simp
  handler := ⟨by simp, by simp, fun info thrown hmem => by cases List.mem_singleton.mp hmem; rfl,
    fun r' hmem => by cases List.mem_singleton.mp hmem; rfl⟩

/-- Where there is no key because something threw, a function of the user's did. -/
lemma throws_of_key {body : List UInt8} {k : List (ReceiverEvent E Res)} {thrown : E}
    (hk : cfg.IsKey req body k (.error thrown)) : ∃ e ∈ k, DeliveryThrows thrown e := by
  unfold ReceiverConfig.IsKey at hk
  split_ifs at hk
  · obtain ⟨raw, rfl, hraw⟩ := hk
    cases raw with
    | error thrown' =>
        obtain rfl := Except.error.inj hraw
        exact ⟨⟨.Key body, .error thrown⟩, List.mem_cons_self, rfl⟩
    | ok raw => cases hraw
  · cases hk.2

/-- A receiver with a verifier, a key function and an alarm. -/
def alarmed : ReceiverConfig where
  common := openDoor
  key := true
  verify := true
  onSuspicious := true

/-- The delivery the store knows with another body. -/
def knownDelivery : IdempotencyRecord :=
  ⟨js "/transfers", js "e1", js "g", .Completed, 1, 40, 5, 86405, none, none⟩

/-- A genuine delivery whose id was used with another body, up to the alarm. -/
def alarmedRun : List (ReceiverEvent Unit Unit) :=
  [⟨.Bridge (.ReadBody 1024), .ok (some [0x31])⟩, ⟨.Verify [0x31], .ok true⟩, ⟨.Key [0x31], .ok (some (js "e1"))⟩,
    ⟨.Bridge (.Engine .Clock), 5⟩,
    ⟨.Bridge (.Engine (.Begin ⟨js "/transfers", js "e1", js "f"⟩ ⟨30, 86400, 5⟩)), .ok (.Mismatch knownDelivery)⟩,
    ⟨.OnSuspicious knownDelivery, .ok ()⟩]

def alarmedAnswer : Answer Unit :=
  .Problem (problem .FingerprintMismatch (js "urn:") none
    (some (js "This webhook-id was already delivered with a different payload"))) []

lemma alarmed_runs :
    Runs (receiverCalls oneDigit (fun _ => js "f") () alarmed transferRequest) alarmedRun (.ok alarmedAnswer) := by
  refine Steps.call _ ?_
  refine Steps.call _ ?_
  refine Steps.call _ ?_
  refine Steps.call _ ?_
  refine Steps.call _ ?_
  refine Steps.call _ ?_
  exact Steps.refl _

theorem webhook_gate_alarmed : Everywhere (Permitted oneDigit (fun _ => js "f") alarmed transferRequest) alarmedRun :=
  webhook_gate oneDigit (fun _ => js "f") () alarmed transferRequest alarmed_runs

end

end Anyonce
