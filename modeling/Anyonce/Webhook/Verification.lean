import Anyonce.Core.Gate
import Anyonce.Go.Receiver
import Anyonce.Go.Settlement
import Anyonce.Webhook.Gate

/-!
# Verification comes before everything

The two receivers ask their stores about a delivery, and run their handlers for it, only when it was verified before.

**The gates.**  `ReceiverConfig.gate` and `Go.WebhookConfig.gate` are the same gate over the calls of the two
receivers.  A delivery is genuine when its body was read and `verify` returned exactly true for these bytes, or, without
a `verify`, when the request carries the marker; and its bytes name the id, the scope and the fingerprint that the store
is asked about.

* `verified_before_everything` — **both receivers are behind their gate at every moment**.
-/

namespace Anyonce

open Interaction

/-! ## The receiver in TypeScript -/

section

variable {E Res F : Type} {d : NumberText.Doubles F} {sha256Hex : List UInt8 → JsString} {unreachable : E}
  {cfg : ReceiverConfig} {req : Request} {t : List (ReceiverEvent E Res)} {body : List UInt8}

/-- **The gate of a receiver**, for one request. -/
def ReceiverConfig.gate (E Res : Type) (d : NumberText.Doubles F) (sha256Hex : List UInt8 → JsString)
    (cfg : ReceiverConfig) (req : Request) : Gate (ReceiverCall E Res) (ReceiverReply E Res) (List UInt8) Operation where
  operation := ReceiverCall.operation
  isRun := ReceiverCall.isRun
  configured := cfg.Configured
  listed := req.method ∈ cfg.common.methods
  Genuine := Genuine cfg
  Names := Delivery d sha256Hex cfg req
  Refusal
    | ⟨.Verify _, r⟩ => r ≠ .ok true
    | ⟨.IsVerified _, found⟩ => found = false
    | _ => False

/-- Whatever acts on a delivery or runs its handler is guarded. -/
lemma isGuarded_of_acts {c : ReceiverCall E Res} (hc : c.operation ≠ none ∨ c.isRun = true) : c.isGuarded = true := by
  rcases c with (_ | _ | _ | _ | _ | _ | _ | p) | body | marker | body | record | cause | message
  all_goals first | rfl | simp [ReceiverCall.operation, ReceiverCall.isRun, BridgeCall.operation, BridgeCall.isRun] at hc

/-- What the receiver may do, the gate allows. -/
lemma Permitted.rule {c : ReceiverCall E Res} (h : Permitted d sha256Hex cfg req t c) :
    (cfg.gate E Res d sha256Hex req).Rule t c where
  operation op hop := by
    have hop' : c.operation = some op := hop
    obtain ⟨hcfg, ⟨hlisted, -⟩ | ⟨-, hrun⟩⟩ := h.admitted (isGuarded_of_acts (Or.inl (by simp [hop'])))
    · exact ⟨hcfg, hlisted, h.delivery op hop⟩
    · rw [hrun] at hop'
      cases hop'
  run hrun := by
    obtain ⟨hcfg, ⟨-, hgenuine⟩ | ⟨hunlisted, -⟩⟩ := h.admitted (isGuarded_of_acts (Or.inr hrun))
    · exact ⟨hcfg, fun _ => hgenuine⟩
    · exact ⟨hcfg, fun hlisted => absurd hlisted hunlisted⟩

/-- A verdict is about a listed request, and there is no other. -/
lemma ReceiverRun.concluded {a : Except E (Answer Res)} (h : ReceiverRun d sha256Hex unreachable cfg req t a)
    {r : Except E Bool} (hr : Concluded t r) :
    req.method ∈ cfg.common.methods ∧ ∀ r', Concluded t r' → r' = r := by
  have honly : ∀ {v rest : List (ReceiverEvent E Res)} {body : List UInt8} {r'' : Except E Bool},
      cfg.IsVerdict body v r'' → (∀ e ∈ rest, e.1.isVerdict = false) →
      t = ⟨.Bridge (.ReadBody cfg.common.maxRequestBytes), .ok (some body)⟩ :: (v ++ rest) →
      ∀ r', Concluded t r' → r' = r := by
    rintro v rest body r'' hv hrest rfl r' hr'
    rw [concluded_eq hv hrest hr', concluded_eq hv hrest hr]
  have honError : ∀ {t : List (ReceiverEvent E Res)}, (∀ e ∈ t, ∃ p, e.1 = ReceiverCall.Bridge (.OnError p)) →
      ∀ e ∈ t, e.1.isVerdict = false := by
    intro t ht e he
    obtain ⟨p, hp⟩ := ht e he
    rw [hp]
    rfl
  cases h with
  | unconfigured logged t a hcfg ht hlog ha =>
      refine absurd hr (not_concluded (fun e he => ?_) r)
      rcases List.mem_cons.mp he with rfl | he
      · rfl
      · exact (isReport_before (ht e he)).2
  | passed r' hcfg hmethod => exact absurd hr (not_concluded (by simp [ReceiverCall.isVerdict]) r)
  | unread thrown hcfg hmethod => exact absurd hr (not_concluded (by simp [ReceiverCall.isVerdict]) r)
  | oversized t a hcfg hmethod ht ha =>
      refine absurd hr (not_concluded (fun e he => ?_) r)
      rcases List.mem_cons.mp he with rfl | he
      · rfl
      · exact honError ht e he
  | failed body thrown v logged t a hcfg hmethod hv ht hlog ha =>
      refine ⟨hmethod, honly hv (fun e he => ?_) rfl⟩
      rcases List.mem_cons.mp he with rfl | he
      · rfl
      · exact (isReport_before (ht e he)).2
  | rejected body v t a hcfg hmethod hv ht ha => exact ⟨hmethod, honly hv (honError ht) rfl⟩
  | keyless body v k thrown hcfg hmethod hv hk => exact ⟨hmethod, honly hv (fun e he => (key_before hk e he).2) rfl⟩
  | admitted body v k keyLookup u t a hcfg hmethod hv hk hbridge ht =>
      refine ⟨hmethod, honly hv (fun e he => ?_) rfl⟩
      rcases List.mem_append.mp he with he | he
      · exact (key_before hk e he).2
      · rcases interpreted_shape ht he with ⟨c, hc⟩ | ⟨record, hrecord⟩
        · rw [hc]
          rfl
        · rw [hrecord]
          rfl

lemma Genuine.concluded (h : Genuine cfg t body) : Concluded t (.ok true) := by
  have hgenuine := h.genuine
  split_ifs at hgenuine
  · exact Or.inl ⟨body, hgenuine⟩
  · obtain ⟨marker, -, hmarked⟩ := hgenuine
    exact Or.inr ⟨marker, true, hmarked, rfl⟩

/-- A refusal is a verdict. -/
lemma concluded_of_refusal {e : ReceiverEvent E Res} (he : e ∈ t) (hrefusal : (cfg.gate E Res d sha256Hex req).Refusal e) :
    ∃ r, Concluded t r ∧ r ≠ .ok true := by
  obtain ⟨c, r⟩ := e
  rcases c with c | body | marker | body | record | cause | message
  case Verify => exact ⟨r, Or.inl ⟨body, he⟩, hrefusal⟩
  case IsVerified =>
    have hfound : r = false := hrefusal
    exact ⟨.ok false, Or.inr ⟨marker, false, hfound ▸ he, rfl⟩, by simp⟩
  all_goals exact hrefusal.elim

/-- **The receiver is behind its gate.** -/
lemma receiver_gate (d : NumberText.Doubles F) (sha256Hex : List UInt8 → JsString) (unreachable : E)
    (cfg : ReceiverConfig) (req : Request) {q : ReceiverProg E Res (Except E (Answer Res))}
    (h : Steps (receiverCalls d sha256Hex unreachable cfg req) t q) : (cfg.gate E Res d sha256Hex req).Holds t := by
  have : Nonempty E := ⟨unreachable⟩
  refine Gate.holds_of_runs (fun t a hrun => ?_) h
  refine Gate.holds_of (fun t₁ t₂ body hbody => hbody.mono fun e he => List.mem_append_left t₂ he) ?_ ?_
  · intro t₁ e t₂ ht
    exact (hrun.guarded receiver_guarded t₁ e t₂ ht).rule
  · rintro ⟨e, he, hrefusal⟩
    obtain ⟨r, hr, hno⟩ := concluded_of_refusal he hrefusal
    obtain ⟨hlisted, hunique⟩ := (receiver_run hrun).concluded hr
    exact ⟨hlisted, fun body hgenuine => hno (hunique _ (Genuine.concluded hgenuine)).symm⟩

end

/-! ## The receiver in Go -/

namespace Go

section

variable {V : Type}

def DoorCall.operation : DoorCall → Option Operation
  | .Begin _ op _ => some op
  | .Complete _ op _ _ _ => some op
  | .Abandon _ op _ => some op
  | _ => none

namespace WebhookCall

/-- The operation of a store call. -/
def operation : WebhookCall → Option Operation
  | .Door c => c.operation
  | _ => none

/-- The wrapped handler runs. -/
def isRun : WebhookCall → Bool
  | .Next => true
  | .Door (.Serve _) => true
  | _ => false

def isVerdict : WebhookCall → Bool
  | .Verify _ => true
  | .IsVerified _ => true
  | _ => false

end WebhookCall

namespace WebhookConfig

/-- The body of a request is read whole. -/
abbrev Reads (cfg : WebhookConfig) (b : BodyRequest) (body : List UInt8) : Prop :=
  (readBody b (resolveMaxRequestBytes cfg.maxRequestBytes)).1 = .ok body

/-- A delivery was read, and established to be genuine. -/
structure Genuine (cfg : WebhookConfig) (b : BodyRequest) (t : List (WebhookEvent V)) (body : List UInt8) : Prop where
  read : cfg.Reads b body
  genuine : if cfg.verify then ⟨.Verify body, .ok (true, none)⟩ ∈ t
    else cfg.verifiedMarker ≠ [] ∧ ⟨.IsVerified cfg.verifiedMarker, true⟩ ∈ t

/-- The operation a delivery is: its id, its scope, and the fingerprint of its body. -/
structure Delivery (cfg : WebhookConfig) (sha256Hex : List UInt8 → GoString) (r : HttpRequest)
    (t : List (WebhookEvent V)) (body : List UInt8) (op : Operation) : Prop where
  key : ∃ reason, if cfg.key then ∃ raw ok, ⟨.Key body, .ok (raw, ok)⟩ ∈ t ∧ keyID raw ok = (op.key, .Ok, reason)
    else headerID r.header cfg.header = (op.key, .Ok, reason)
  scope : op.scope = webhookScope r body cfg.scoping
  fingerprint : if cfg.fingerprint then ⟨.Fingerprint body, .ok (op.fingerprint, none)⟩ ∈ t
    else op.fingerprint = sha256Hex body

/-- **The gate of a receiver**, for one request. -/
def gate (V : Type) (cfg : WebhookConfig) (sha256Hex : List UInt8 → GoString) (r : HttpRequest) (b : BodyRequest) :
    Gate WebhookCall (WebhookReply V) (List UInt8) Operation where
  operation := WebhookCall.operation
  isRun := WebhookCall.isRun
  configured := cfg.configured = true
  listed := r.method ∈ cfg.methods
  Genuine := cfg.Genuine b
  Names := cfg.Delivery sha256Hex r
  Refusal
    | ⟨.Verify _, reply⟩ => reply ≠ .ok (true, none)
    | ⟨.IsVerified _, found⟩ => found = false
    | _ => False

end WebhookConfig

variable {cfg : WebhookConfig} {sha256Hex : List UInt8 → GoString} {r : HttpRequest} {b : BodyRequest}
  {t t' : List (WebhookEvent V)} {body : List UInt8} {op : Operation}

lemma WebhookConfig.Genuine.mono (h : cfg.Genuine b t body) (ht : ∀ e ∈ t, e ∈ t') : cfg.Genuine b t' body := by
  obtain ⟨hread, hgenuine⟩ := h
  refine ⟨hread, ?_⟩
  split_ifs at hgenuine ⊢
  · exact ht _ hgenuine
  · exact ⟨hgenuine.1, ht _ hgenuine.2⟩

lemma WebhookConfig.Delivery.mono (h : cfg.Delivery sha256Hex r t body op) (ht : ∀ e ∈ t, e ∈ t') :
    cfg.Delivery sha256Hex r t' body op := by
  obtain ⟨⟨reason, hkey⟩, hscope, hfingerprint⟩ := h
  refine ⟨⟨reason, ?_⟩, hscope, ?_⟩
  · split_ifs at hkey ⊢
    · obtain ⟨raw, ok, hmem, hkey⟩ := hkey
      exact ⟨raw, ok, ht _ hmem, hkey⟩
    · exact hkey
  · split_ifs at hfingerprint ⊢
    · exact ht _ hfingerprint
    · exact hfingerprint

/-! ### What the parts of the handler ask -/

/-- What is done beside the gate: nothing is asked about the delivery, its handler does not run, and it is not judged. -/
def WebhookCall.IsAside (c : WebhookCall) : Prop := c.operation = none ∧ c.isRun = false ∧ c.isVerdict = false

lemma only_malfunction (cause : LogCause) :
    (WebhookConfig.malfunction cause : WebhookProg V (Except V Unit)).Only WebhookCall.IsAside := by
  refine ⟨⟨rfl, rfl, rfl⟩, fun once => ?_⟩
  cases once with
  | true =>
      refine ⟨⟨rfl, rfl, rfl⟩, fun logged => ?_⟩
      cases logged with
      | ok u => exact ⟨⟨rfl, rfl, rfl⟩, fun _ => trivial⟩
      | error p => trivial
  | false => exact ⟨⟨rfl, rfl, rfl⟩, fun _ => trivial⟩

lemma only_fail (code : ReceiverProblem) (detail : GoString) (extra : List (GoString × GoString)) :
    (WebhookConfig.fail code detail extra : WebhookProg V (Except V Unit)).Only WebhookCall.IsAside :=
  ⟨⟨rfl, rfl, rfl⟩, fun _ => trivial⟩

/-- The calls that establish whether a delivery is genuine, and what they come to. -/
def WebhookConfig.IsVerdict (cfg : WebhookConfig) (body : List UInt8) (v : List (WebhookEvent V))
    (a : Except V (Bool × Bool)) : Prop :=
  if cfg.verify then ∃ reply, v = [⟨.Verify body, reply⟩] ∧ (a = .ok (true, true) ↔ reply = .ok (true, none))
  else ∃ found, v = [⟨.IsVerified cfg.verifiedMarker, found⟩] ∧ a = .ok (found, true)

lemma runs_verified {a : Except V (Bool × Bool)} (h : Runs (cfg.verified body) t a) : cfg.IsVerdict body t a := by
  unfold WebhookConfig.verified at h
  unfold WebhookConfig.IsVerdict
  split_ifs at h ⊢
  · obtain ⟨reply, t', rfl, hrest⟩ := runs_call_iff.mp h
    rcases reply with p | ⟨result, _ | err⟩
    · obtain ⟨rfl, rfl⟩ := runs_ret_iff.mp hrest
      exact ⟨_, rfl, by simp⟩
    · obtain ⟨rfl, rfl⟩ := runs_ret_iff.mp hrest
      exact ⟨_, rfl, by simp⟩
    · obtain ⟨rfl, rfl⟩ := runs_ret_iff.mp hrest
      exact ⟨_, rfl, by simp⟩
  · obtain ⟨found, t', rfl, hrest⟩ := runs_call_iff.mp h
    obtain ⟨rfl, rfl⟩ := runs_ret_iff.mp hrest
    exact ⟨found, rfl, rfl⟩

/-- A genuine delivery is established to be one. -/
lemma genuine_of_verdict {v : List (WebhookEvent V)} (hcfg : cfg.configured = true) (hread : cfg.Reads b body)
    (hv : cfg.IsVerdict body v (.ok (true, true))) : cfg.Genuine b v body := by
  refine ⟨hread, ?_⟩
  unfold WebhookConfig.IsVerdict at hv
  split_ifs at hv ⊢ with hverify
  · obtain ⟨reply, rfl, hreply⟩ := hv
    rw [hreply.mp rfl]
    exact List.mem_cons_self
  · obtain ⟨found, rfl, hfound⟩ := hv
    have hmarker : cfg.verifiedMarker ≠ [] := by simpa [WebhookConfig.configured, hverify] using hcfg
    simp only [Except.ok.injEq, Prod.mk.injEq, and_true] at hfound
    exact ⟨hmarker, hfound ▸ List.mem_cons_self⟩

lemma isVerdict_of_verdict {v : List (WebhookEvent V)} {a : Except V (Bool × Bool)} (hv : cfg.IsVerdict body v a) :
    ∀ e ∈ v, e.1.operation = none ∧ e.1.isRun = false := by
  unfold WebhookConfig.IsVerdict at hv
  split_ifs at hv
  · obtain ⟨reply, rfl, -⟩ := hv
    simp [WebhookCall.operation, WebhookCall.isRun]
  · obtain ⟨found, rfl, -⟩ := hv
    simp [WebhookCall.operation, WebhookCall.isRun]

lemma isVerdict_of_refusal {e : WebhookEvent V} (hrefusal : (cfg.gate V sha256Hex r b).Refusal e) :
    e.1.isVerdict = true := by
  obtain ⟨c, reply⟩ := e
  cases c
  case Verify => rfl
  case IsVerified => rfl
  all_goals exact hrefusal.elim

/-- A delivery whose verdict refused it is not genuine. -/
lemma not_genuine_of_refusal {v rest : List (WebhookEvent V)} {a : Except V (Bool × Bool)}
    (hv : cfg.IsVerdict body v a) (hrest : ∀ e ∈ rest, e.1.isVerdict = false) {e : WebhookEvent V} (he : e ∈ v ++ rest)
    (hrefusal : (cfg.gate V sha256Hex r b).Refusal e) (body' : List UInt8) : ¬ cfg.Genuine b (v ++ rest) body' := by
  have hmem : ∀ {e : WebhookEvent V}, e.1.isVerdict = true → e ∈ v ++ rest → e ∈ v := by
    intro e hverdict he
    rcases List.mem_append.mp he with he | he
    · exact he
    · rw [hrest e he] at hverdict
      cases hverdict
  have he' := hmem (isVerdict_of_refusal hrefusal) he
  rintro ⟨-, hgenuine⟩
  unfold WebhookConfig.IsVerdict at hv
  split_ifs at hv hgenuine
  · obtain ⟨reply, rfl, -⟩ := hv
    obtain rfl := List.mem_singleton.mp he'
    cases List.mem_singleton.mp (hmem rfl hgenuine)
    exact hrefusal rfl
  · obtain ⟨found, rfl, -⟩ := hv
    obtain rfl := List.mem_singleton.mp he'
    cases List.mem_singleton.mp (hmem rfl hgenuine.2)
    cases (show true = false from hrefusal)

/-! ### The door behind the gate -/

/-- The store calls of a door are about its operation. -/
lemma door_operation {doorCfg : DoorConfig} {u : List (DoorEvent V)} {out : Except V Unit}
    (hrun : Runs (doorCalls doorCfg op) u out) {e : DoorEvent V} (he : e ∈ u) {op' : Operation}
    (hop : e.1.operation = some op') : op' = op := by
  obtain ⟨c, reply⟩ := e
  have hshown : c.shown = true := by
    cases c with
    | Begin ctx op opts => rfl
    | Complete ctx op fence payload now => rfl
    | Abandon ctx op fence => rfl
    | _ => cases hop
  have hvisible : ⟨c, reply⟩ ∈ visible DoorCall.shown u := by simpa [hshown] using he
  have hpath : ∀ {w : List (DoorEvent V)}, Path op doorCfg w → ∀ e ∈ w, ∀ op', e.1.operation = some op' → op' = op := by
    intro w hw
    cases hw with
    | dead => simp
    | judged opts fence result keep hset last hlast =>
        rcases hlast with ⟨r, rfl⟩ | ⟨payload, now, r, rfl⟩ <;> simp [DoorCall.operation, eq_comm]
    | byDefault opts fence result hset last hlast =>
        rcases hlast with ⟨r, rfl⟩ | ⟨payload, now, r, rfl⟩ <;> simp [DoorCall.operation, eq_comm]
    | _ => simp [DoorCall.operation, eq_comm]
  exact hpath (door_path hrun) _ hvisible op' hop

lemma runs_answerDoor {c : DoorCall} {reply : DoorReply V c} (h : Runs (cfg.answerDoor c) t reply) {e : WebhookEvent V}
    (he : e ∈ t) : e = ⟨.Door c, reply⟩ ∨ ∃ record, e.1 = .OnSuspicious record := by
  have hasked : cfg.answerDoor c = WebhookConfig.ask (V := V) (.Door c) →
      e = ⟨.Door c, reply⟩ ∨ ∃ record, e.1 = .OnSuspicious record := by
    intro heq
    rw [heq] at h
    obtain rfl := runs_prog_call_iff.mp h
    exact Or.inl (List.mem_singleton.mp he)
  cases c with
  | Hook call =>
      cases call with
      | DoorMismatch record =>
          simp only [WebhookConfig.answerDoor] at h
          split_ifs at h
          · obtain ⟨told, t', rfl, hrest⟩ := runs_call_iff.mp h
            obtain ⟨rfl, -⟩ := runs_ret_iff.mp hrest
            obtain rfl := List.mem_singleton.mp he
            exact Or.inr ⟨record, rfl⟩
          · obtain ⟨rfl, -⟩ := runs_ret_iff.mp h
            simp at he
      | _ => exact hasked rfl
  | _ => exact hasked rfl

instance (c : WebhookCall) : Nonempty (WebhookReply V c) := by
  cases c with
  | Once cause => exact ⟨true⟩
  | Logf message => exact ⟨.ok ()⟩
  | Verify body => exact ⟨.ok (true, none)⟩
  | IsVerified marker => exact ⟨true⟩
  | Key body => exact ⟨.ok ([], true)⟩
  | Fingerprint body => exact ⟨.ok ([], none)⟩
  | OnSuspicious record => exact ⟨.ok ()⟩
  | Next => exact ⟨.ok ()⟩
  | Respond response => exact ⟨.ok ()⟩
  | Door c =>
      cases c with
      | CtxErr => exact ⟨none⟩
      | Begin ctx op opts => exact ⟨.error .Panicked⟩
      | Complete ctx op fence payload now => exact ⟨.error .Panicked⟩
      | Abandon ctx op fence => exact ⟨.error .Panicked⟩
      | Now => exact ⟨0⟩
      | Serve fence => exact ⟨.Hijacked⟩
      | StoreResult result => exact ⟨.ok true⟩
      | Hook call => exact ⟨.ok ()⟩
      | CountHookError => exact ⟨()⟩
      | SetDegraded => exact ⟨()⟩
      | WroteHeader => exact ⟨true⟩
      | Respond response => exact ⟨.ok ()⟩

/-- What a delivery that is genuine may ask. -/
def WebhookConfig.Delivers (cfg : WebhookConfig) (sha256Hex : List UInt8 → GoString) (r : HttpRequest)
    (body : List UInt8) (t : List (WebhookEvent V)) (c : WebhookCall) : Prop :=
  c.isVerdict = false ∧ ∀ op, c.operation = some op → cfg.Delivery sha256Hex r t body op

lemma delivers_of_none {c : WebhookCall} (hverdict : c.isVerdict = false) (hop : c.operation = none) :
    cfg.Delivers sha256Hex r body t c := by
  refine ⟨hverdict, fun op hsome => ?_⟩
  rw [hop] at hsome
  cases hsome

/-- The door acts on the delivery. -/
lemma door_guarded (hdelivery : cfg.Delivery sha256Hex r t body op) :
    ((doorCalls cfg.doorConfig op).interpret cfg.answerDoor : WebhookProg V (Except V Unit)).Guarded
      fun t' c => cfg.Delivers sha256Hex r body (t ++ t') c := by
  refine guarded_of_runs fun t' a hrun => ?_
  obtain ⟨u, hdoor, hu⟩ := runs_interpret_lift_iff.mp hrun
  refine everywhere_of_forall fun e he w => ?_
  obtain ⟨u₁, c, reply, u₂, t₁, t₂, t₃, s₁, s₂, rfl, -, he', -, hcall, -⟩ := hu.mem he
  rcases runs_answerDoor (runs_lift_iff.mp hcall).1 he' with rfl | ⟨record, hrecord⟩
  · refine ⟨rfl, fun op' hop => ?_⟩
    obtain rfl := door_operation hdoor (e := ⟨c, reply⟩) (by simp) hop
    exact hdelivery.mono fun e he => List.mem_append_left w he
  · rw [hrecord]
    exact delivers_of_none rfl rfl

/-- The calls that find the id of a delivery. -/
lemma runs_lookupID {found : Except V FoundID} (h : Runs (cfg.lookupID r body) t found) :
    (∀ e ∈ t, ∃ body, e.1 = .Key body) ∧ ∀ key reason, found = .ok (key, .Ok, reason) →
      if cfg.key then ∃ raw ok, ⟨.Key body, .ok (raw, ok)⟩ ∈ t ∧ keyID raw ok = (key, .Ok, reason)
      else headerID r.header cfg.header = (key, .Ok, reason) := by
  unfold WebhookConfig.lookupID at h
  split_ifs at h ⊢
  · obtain ⟨reply, t', rfl, hrest⟩ := runs_call_iff.mp h
    rcases reply with p | ⟨raw, ok⟩
    · obtain ⟨rfl, rfl⟩ := runs_ret_iff.mp hrest
      exact ⟨by simp, by simp⟩
    · obtain ⟨rfl, rfl⟩ := runs_ret_iff.mp hrest
      exact ⟨by simp, fun key reason hfound => ⟨raw, ok, List.mem_cons_self, Except.ok.inj hfound⟩⟩
  · obtain ⟨rfl, rfl⟩ := runs_ret_iff.mp h
    exact ⟨by simp, fun key reason hfound => Except.ok.inj hfound⟩

lemma runs_fingerprintOf {reply : Except V (GoString × Option GoError)}
    (h : Runs (cfg.fingerprintOf sha256Hex body) t reply) : (∀ e ∈ t, ∃ body, e.1 = .Fingerprint body)
      ∧ ∀ fp, reply = .ok (fp, none) → if cfg.fingerprint then ⟨.Fingerprint body, .ok (fp, none)⟩ ∈ t
          else fp = sha256Hex body := by
  unfold WebhookConfig.fingerprintOf at h
  split_ifs at h ⊢
  · obtain rfl := runs_prog_call_iff.mp h
    exact ⟨by simp, by rintro fp rfl; exact List.mem_cons_self⟩
  · obtain ⟨rfl, rfl⟩ := runs_ret_iff.mp h
    refine ⟨by simp, fun fp hfp => ?_⟩
    simp only [Except.ok.injEq, Prod.mk.injEq, and_true] at hfp
    exact hfp.symm

/-- **Past the gate**, nothing is judged, and the store is asked about the delivery. -/
lemma deliver_guarded : (cfg.deliver sha256Hex r body : WebhookProg V (Except V Unit)).Guarded
    (cfg.Delivers sha256Hex r body) := by
  refine guarded_bind ?_ fun t₁ found hfound => ?_
  · refine guarded_of_runs fun t found hfound => everywhere_of_forall fun e he w => ?_
    obtain ⟨body', hkey⟩ := (runs_lookupID hfound).1 e he
    rw [hkey]
    exact delivers_of_none rfl rfl
  rcases found with p | ⟨key, _ | _ | _, reason⟩
  · trivial
  · dsimp only
    split_ifs
    · exact ⟨delivers_of_none rfl rfl, fun _ => trivial⟩
    · exact ⟨delivers_of_none rfl rfl, fun _ => trivial⟩
  · exact ⟨delivers_of_none rfl rfl, fun _ => trivial⟩
  · refine guarded_bind ?_ fun t₂ reply hreply => ?_
    · refine guarded_of_runs fun t reply hreply => everywhere_of_forall fun e he w => ?_
      obtain ⟨body', hfingerprint⟩ := (runs_fingerprintOf hreply).1 e he
      rw [hfingerprint]
      exact delivers_of_none rfl rfl
    rcases reply with p | ⟨fp, _ | err⟩
    · trivial
    · simp only [← List.append_assoc]
      have hkey := (runs_lookupID hfound).2 key reason rfl
      have hfingerprint := (runs_fingerprintOf hreply).2 fp rfl
      refine door_guarded ⟨⟨reason, ?_⟩, rfl, ?_⟩
      · split_ifs at hkey ⊢
        · obtain ⟨raw, ok, hmem, hraw⟩ := hkey
          exact ⟨raw, ok, List.mem_append_left t₂ hmem, hraw⟩
        · exact hkey
      · split_ifs at hfingerprint ⊢
        · exact List.mem_append_right t₁ hfingerprint
        · exact hfingerprint
    · exact ⟨delivers_of_none rfl rfl, fun _ => trivial⟩

/-! ### The courses of a request -/

/-- The course of a request: it is refused unseen, or passed by because of its method, or refused by its verdict, or
admitted. -/
inductive WebhookRun (cfg : WebhookConfig) (sha256Hex : List UInt8 → GoString) (r : HttpRequest) (b : BodyRequest) :
    List (WebhookEvent V) → Prop
  | unjudged (t : List (WebhookEvent V)) (ht : ∀ e ∈ t, e.1.IsAside) : WebhookRun cfg sha256Hex r b t
  | passed (reply : Except V Unit) (hcfg : cfg.configured = true) (hmethod : r.method ∉ cfg.methods) :
      WebhookRun cfg sha256Hex r b [⟨.Next, reply⟩]
  | rejected (body : List UInt8) (v t : List (WebhookEvent V)) (a : Except V (Bool × Bool))
      (hmethod : r.method ∈ cfg.methods) (hv : cfg.IsVerdict body v a) (ht : ∀ e ∈ t, e.1.IsAside) :
      WebhookRun cfg sha256Hex r b (v ++ t)
  | admitted (body : List UInt8) (v t : List (WebhookEvent V)) (hcfg : cfg.configured = true)
      (hmethod : r.method ∈ cfg.methods) (hread : cfg.Reads b body) (hv : cfg.IsVerdict body v (.ok (true, true)))
      (ht : Everywhere (cfg.Delivers sha256Hex r body) t) : WebhookRun cfg sha256Hex r b (v ++ t)

/-- **Every run takes one of the courses.** -/
lemma webhook_run {a : Except V Unit} (h : Runs (cfg.handler sha256Hex r b) t a) : WebhookRun cfg sha256Hex r b t := by
  unfold WebhookConfig.handler at h
  split_ifs at h with hcfg hcontains
  · exact .unjudged t (h.only (only_malfunction _))
  · obtain rfl := runs_prog_call_iff.mp h
    exact .passed a (by simpa using hcfg) (by simpa using hcontains)
  · have hmethod : r.method ∈ cfg.methods := by simpa using hcontains
    split at h
    · exact .unjudged t (h.only (only_fail _ _ _))
    · obtain rfl := runs_prog_call_iff.mp h
      exact .unjudged _ (by simp [WebhookCall.IsAside, WebhookCall.operation, WebhookCall.isRun, WebhookCall.isVerdict])
    · next body hread =>
      obtain ⟨v, t', verdict, rfl, hverified, hthen⟩ := runs_bind_iff.mp h
      have hv := runs_verified hverified
      rcases verdict with p | ⟨_ | _, _ | _⟩
      · obtain ⟨rfl, rfl⟩ := runs_ret_iff.mp hthen
        exact .rejected body v [] _ hmethod hv (by simp)
      · exact .rejected body v t' _ hmethod hv (hthen.only (only_malfunction _))
      · exact .rejected body v t' _ hmethod hv (hthen.only (only_fail _ _ _))
      · exact .rejected body v t' _ hmethod hv (hthen.only (only_malfunction _))
      · exact .admitted body v t' (by simpa using hcfg) hmethod hread hv (hthen.guarded deliver_guarded)

/-- A course keeps the rule. -/
lemma WebhookRun.rule (h : WebhookRun cfg sha256Hex r b t) : Everywhere (cfg.gate V sha256Hex r b).Rule t := by
  have hidle : ∀ {t : List (WebhookEvent V)}, (∀ e ∈ t, e.1.operation = none ∧ e.1.isRun = false) →
      ∀ w, Everywhere (fun u => (cfg.gate V sha256Hex r b).Rule (w ++ u)) t :=
    fun ht w => everywhere_of_forall fun e he u => Gate.rule_of_idle (ht e he).1 (ht e he).2
  cases h with
  | unjudged t ht => exact hidle (fun e he => ⟨(ht e he).1, (ht e he).2.1⟩) []
  | passed reply hcfg hmethod =>
      refine everywhere_cons_iff.mpr ⟨⟨by simp [WebhookConfig.gate, WebhookCall.operation], fun _ => ?_⟩, everywhere_nil⟩
      exact ⟨hcfg, fun hlisted => absurd hlisted hmethod⟩
  | rejected body v t a hmethod hv ht =>
      refine everywhere_append_iff.mpr ⟨hidle (isVerdict_of_verdict hv) [], ?_⟩
      exact hidle (fun e he => ⟨(ht e he).1, (ht e he).2.1⟩) v
  | admitted body v t hcfg hmethod hread hv ht =>
      refine everywhere_append_iff.mpr ⟨hidle (isVerdict_of_verdict hv) [], fun t₁ e t₂ heq => ?_⟩
      have hgenuine := (genuine_of_verdict hcfg hread hv).mono fun e he => List.mem_append_left t₁ he
      refine Gate.rule_of_genuine hcfg hmethod hgenuine fun op hop => ?_
      exact ((ht t₁ e t₂ heq).2 op hop).mono fun e he => List.mem_append_right v he

/-- A refusal is about a listed request that is not genuine. -/
lemma WebhookRun.refused (h : WebhookRun cfg sha256Hex r b t) {e : WebhookEvent V} (he : e ∈ t)
    (hrefusal : (cfg.gate V sha256Hex r b).Refusal e) : r.method ∈ cfg.methods ∧ ∀ body, ¬ cfg.Genuine b t body := by
  cases h with
  | unjudged t ht =>
      have hverdict := isVerdict_of_refusal hrefusal
      rw [(ht e he).2.2] at hverdict
      cases hverdict
  | passed reply hcfg hmethod =>
      obtain rfl := List.mem_singleton.mp he
      exact hrefusal.elim
  | rejected body v t a hmethod hv ht =>
      exact ⟨hmethod, not_genuine_of_refusal hv (fun e he => (ht e he).2.2) he hrefusal⟩
  | admitted body v t hcfg hmethod hread hv ht =>
      refine ⟨hmethod, not_genuine_of_refusal hv (fun e he => ?_) he hrefusal⟩
      obtain ⟨t₁, t₂, heq⟩ := List.append_of_mem he
      exact (ht t₁ e t₂ heq).1

/-- **The receiver is behind its gate.** -/
lemma webhook_gate_holds (cfg : WebhookConfig) (sha256Hex : List UInt8 → GoString) (r : HttpRequest) (b : BodyRequest)
    {q : WebhookProg V (Except V Unit)} (h : Steps (cfg.handler sha256Hex r b) t q) :
    (cfg.gate V sha256Hex r b).Holds t := by
  refine Gate.holds_of_runs (fun t a hrun => ?_) h
  refine Gate.holds_of (fun t₁ t₂ body hbody => hbody.mono fun e he => List.mem_append_left t₂ he) ?_ ?_
  · exact (webhook_run hrun).rule
  · rintro ⟨e, he, hrefusal⟩
    exact (webhook_run hrun).refused he hrefusal

end

end Go

/-! ## Both receivers -/

section

variable {E Res F V : Type}

/-- **Verification comes before everything**, at every moment of a delivery to either receiver, whatever the store, the
handler and the user's functions do. -/
theorem verified_before_everything (d : NumberText.Doubles F) (sha256Hex : List UInt8 → JsString) (unreachable : E)
    (cfg : ReceiverConfig) (req : Request) (goSha256Hex : List UInt8 → Go.GoString) (goCfg : Go.WebhookConfig)
    (r : Go.HttpRequest) (b : Go.BodyRequest) :
    (∀ (t : List (ReceiverEvent E Res)) (q : ReceiverProg E Res (Except E (Answer Res))),
      Steps (receiverCalls d sha256Hex unreachable cfg req) t q → (cfg.gate E Res d sha256Hex req).Holds t)
    ∧ ∀ (t : List (Go.WebhookEvent V)) (q : Go.WebhookProg V (Except V Unit)),
      Steps (goCfg.handler goSha256Hex r b) t q → (goCfg.gate V goSha256Hex r b).Holds t :=
  ⟨fun _ _ h => receiver_gate d sha256Hex unreachable cfg req h, fun _ _ h => Go.webhook_gate_holds goCfg goSha256Hex r b h⟩

end

/-- A receiver in Go with a verifier and a key function, whose store is passed over when it fails. -/
def Go.openReceiver : Go.WebhookConfig where
  key := true
  verify := true
  scoping := { routePattern := Go.ascii "/transfers" }
  methods := [Go.spacedRequest.method]
  docsURL := []
  door := { name := [], lease := 1, ttl := 1, maxResultBytes := 4, onStoreErrorMode := .FailOpen }

/-- A genuine delivery that the store fails to take, so that the handler runs without it. -/
def Go.openRun : List (Go.WebhookEvent Unit) :=
  [⟨.Verify [0x31], .ok (true, none)⟩, ⟨.Key [0x31], .ok (Go.ascii "e1", true)⟩, ⟨.Door .CtxErr, none⟩, ⟨.Door .Now, 5⟩,
    ⟨.Door (.Begin .Caller ⟨Go.ascii "/transfers", Go.ascii "e1", Go.ascii "f"⟩ ⟨1, 1, 5⟩), .error .Panicked⟩,
    ⟨.Door .SetDegraded, ()⟩, ⟨.Door (.Serve 0), .Wrote { kind := .Http, status := 200 }⟩]

lemma Go.openRun_runs : Runs (Go.openReceiver.handler (fun _ => Go.ascii "f") Go.spacedRequest
    ⟨1, some ⟨[0x31], none⟩⟩) Go.openRun (.ok ()) := by
  refine Steps.call _ ?_
  refine Steps.call _ ?_
  refine Steps.call _ ?_
  refine Steps.call _ ?_
  refine Steps.call _ ?_
  refine Steps.call _ ?_
  refine Steps.call _ ?_
  exact Steps.refl _

/-- The alarm of one receiver, and the handler that the other runs beside a failing store, come after the verification. -/
theorem verified_before_everything_alarmed :
    (alarmed.gate Unit Unit oneDigit (fun _ => js "f") transferRequest).Holds alarmedRun
    ∧ (Go.openReceiver.gate Unit (fun _ => Go.ascii "f") Go.spacedRequest ⟨1, some ⟨[0x31], none⟩⟩).Holds Go.openRun := by
  obtain ⟨hts, hgo⟩ := verified_before_everything (V := Unit) oneDigit (fun _ => js "f") () alarmed transferRequest
    (fun _ => Go.ascii "f") Go.openReceiver Go.spacedRequest ⟨1, some ⟨[0x31], none⟩⟩
  exact ⟨hts alarmedRun _ alarmed_runs, hgo Go.openRun _ Go.openRun_runs⟩

end Anyonce
