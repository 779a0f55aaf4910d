import Anyonce.Core.Base64
import Anyonce.Http.Request
import Anyonce.Jcs

/-!
# The Standard Webhooks check

`standardWebhooksVerify` of `packages/webhooks/src/verify.ts`.  The MAC of an entry is taken over the
id, the truncated timestamp and the body, with a dot between them.

What the platform provides is a parameter: HMAC-SHA256 of a key and a message, and the numbers of the
language (`Numbers`), of which only one law is asked: the digits of a truncated number end before the
point.

* `parseSecret`, `newVerify`, `Verifier.verify` — the functions.
* `Verifier.verify_iff` — a delivery is accepted exactly when it is accepted on one of its entries.
-/

namespace Anyonce.StandardWebhooks

open NumberText Ecma

/-! ## The platform -/

/-- HMAC-SHA256 of a key and a message. -/
abbrev Hmac : Type := List UInt8 → List UInt8 → List UInt8

/-- The numbers of the language, as far as a timestamp needs them: `Number(text)`, `Math.trunc`,
`Math.abs`, the operators, and the texts of the finite ones. -/
structure Numbers (F : Type) extends Runtime F where
  ofText : JsString → Number F
  ofNat : ℕ → Number F
  trunc : F → F
  abs : Number F → Number F
  sub : Number F → Number F → Number F
  mul : Number F → Number F → Number F
  greater : Number F → Number F → Bool
  digits_trunc : ∀ f, isZero (trunc f) = false → (digits (trunc f)).length ≤ exponent (trunc f)

/-- A number in a template literal. -/
def Numbers.text {F : Type} (n : Numbers F) (f : F) : JsString := (n.toText f).map UInt16.ofNat

/-! ## Secrets -/

/-- The prefix of a Standard Webhooks secret. -/
def secretPrefix : JsString := js "whsec_"

/-- Five minutes. -/
def defaultToleranceSeconds : ℕ := 300

/-- The text after a beginning it may have. -/
def stripStart (start text : JsString) : JsString :=
  if start <+: text then text.drop start.length else text

/-- Strips the `whsec_` in front and decodes the rest. -/
def parseSecret (secret : JsString) : Except String (List UInt8) :=
  match atob (stripStart secretPrefix secret) with
  | none => .error "anyonce: the webhook secret is not valid base64"
  | some [] => .error "anyonce: the webhook secret is empty"
  | some bytes => .ok bytes

/-- What the closure of `standardWebhooksVerify` holds; the tolerance is in milliseconds. -/
structure Verifier (F : Type) where
  keys : List (List UInt8)
  tolerance : Number F

/-- `standardWebhooksVerify`: the secrets are decoded when the verifier is made, and none, or one that does not decode, is
an error. -/
def newVerify {F : Type} (n : Numbers F) (secrets : List JsString)
    (toleranceSeconds : Option (Number F)) : Except String (Verifier F) := do
  let keys ← secrets.mapM parseSecret
  if keys.isEmpty then .error "anyonce: standardWebhooksVerify needs at least one secret"
  else .ok ⟨keys, n.mul (toleranceSeconds.getD (n.ofNat defaultToleranceSeconds)) (n.ofNat 1000)⟩

/-! ## The check -/

/-- Every byte is read, whatever the first difference is. -/
def equalBytes (a b : List UInt8) : Bool :=
  a.length = b.length && (List.zipWith (· ^^^ ·) a b).foldl (· ||| ·) 0 = 0

/-- The bytes of a `v1` entry. -/
def entryBytes (entry : JsString) : Option (List UInt8) :=
  if js "v1," <+: entry then atob (entry.drop 3) else none

/-- The bytes a signature header presents. -/
def presented (signature : JsString) : List (List UInt8) :=
  (signature.splitOn 0x20).filterMap entryBytes

/-- The bytes that are signed. -/
def signedContent (id text : JsString) (body : List UInt8) : List UInt8 :=
  Unicode.encode (id ++ 0x2e :: (text ++ [0x2e])) ++ body

/-- Both loops run to their ends. -/
def matched (hmac : Hmac) (keys : List (List UInt8)) (content : List UInt8)
    (candidates : List (List UInt8)) : Bool :=
  keys.foldl (fun matched key =>
    candidates.foldl (fun matched candidate =>
      if equalBytes (hmac key content) candidate then true else matched) matched) false

section

variable {F : Type} (n : Numbers F) (hmac : Hmac)

/-- The delivery is too old, or too new. -/
def Verifier.outsideTolerance (v : Verifier F) (now : Number F) (seconds : F) : Bool :=
  n.greater (n.abs (n.sub now (n.mul (.Finite (n.trunc seconds)) (n.ofNat 1000)))) v.tolerance

/-- **The function `standardWebhooksVerify` returns**, with the reading of its clock. -/
def Verifier.verify (v : Verifier F) (now : Number F) (headers : Headers) (body : List UInt8) : Bool :=
  match headers.get (js "webhook-id"), headers.get (js "webhook-timestamp"),
      headers.get (js "webhook-signature") with
  | some id, some timestamp, some signature =>
      match n.ofText timestamp with
      | .Finite seconds =>
          if v.outsideTolerance n now seconds then false
          else
            let candidates := presented signature
            if candidates.isEmpty then false
            else matched hmac v.keys (signedContent id (n.text (n.trunc seconds)) body) candidates
      | _ => false
  | _, _, _ => false

end

/-! ## Accepted on an entry -/

lemma foldl_or_eq_zero (xs : List UInt8) (acc : UInt8) :
    xs.foldl (· ||| ·) acc = 0 ↔ acc = 0 ∧ ∀ x ∈ xs, x = 0 := by
  induction xs generalizing acc with
  | nil => simp
  | cons x xs ih =>
      rw [List.foldl_cons, ih, UInt8.or_eq_zero_iff, List.forall_mem_cons, and_assoc]

/-- The comparison is equality. -/
lemma equalBytes_iff {a b : List UInt8} : equalBytes a b = true ↔ a = b := by
  simp only [equalBytes, Bool.and_eq_true, decide_eq_true_eq, foldl_or_eq_zero, true_and]
  constructor
  · rintro ⟨hlength, hzero⟩
    induction a generalizing b with
    | nil => exact (List.length_eq_zero_iff.mp hlength.symm).symm
    | cons x a ih =>
        cases b with
        | nil => simp at hlength
        | cons y b =>
            simp only [List.zipWith_cons_cons, List.forall_mem_cons, UInt8.xor_eq_zero_iff] at hzero
            rw [hzero.1, ih (Nat.succ.inj hlength) hzero.2]
  · rintro rfl
    simp

/-- A loop that raises a flag. -/
lemma foldl_flag {α : Type} (p : α → Bool) (xs : List α) (flag : Bool) :
    xs.foldl (fun flag x => if p x then true else flag) flag = (flag || xs.any p) := by
  induction xs generalizing flag with
  | nil => simp
  | cons x xs ih =>
      rw [List.foldl_cons, ih, List.any_cons]
      cases p x <;> simp

lemma matched_iff (hmac : Hmac) (keys : List (List UInt8)) (content : List UInt8)
    (candidates : List (List UInt8)) :
    matched hmac keys content candidates = true ↔ ∃ key ∈ keys, hmac key content ∈ candidates := by
  have hinner : (fun flag key => candidates.foldl (fun flag candidate =>
        if equalBytes (hmac key content) candidate then true else flag) flag)
      = fun flag key => if candidates.any (equalBytes (hmac key content)) then true else flag := by
    funext flag key
    rw [foldl_flag]
    cases candidates.any (equalBytes (hmac key content)) <;> simp
  rw [matched, hinner, foldl_flag]
  simp only [Bool.false_or, List.any_eq_true, equalBytes_iff]
  constructor
  · rintro ⟨key, hkey, candidate, hmem, rfl⟩
    exact ⟨key, hkey, hmem⟩
  · rintro ⟨key, hkey, hmem⟩
    exact ⟨key, hkey, _, hmem, rfl⟩

section

variable {F : Type} (n : Numbers F) (hmac : Hmac)

/-- When the check accepts a delivery. -/
lemma Verifier.verify_eq_true (v : Verifier F) {now : Number F} {headers : Headers} {body : List UInt8}
    {id timestamp signature : JsString} {seconds : F}
    (hid : headers.get (js "webhook-id") = some id)
    (htimestamp : headers.get (js "webhook-timestamp") = some timestamp)
    (hsignature : headers.get (js "webhook-signature") = some signature)
    (hseconds : n.ofText timestamp = .Finite seconds) :
    v.verify n hmac now headers body = true
      ↔ v.outsideTolerance n now seconds = false ∧ ∃ key ∈ v.keys,
        hmac key (signedContent id (n.text (n.trunc seconds)) body) ∈ presented signature := by
  simp only [verify, hid, htimestamp, hsignature, hseconds]
  cases v.outsideTolerance n now seconds with
  | true => simp
  | false =>
      rw [if_neg (by simp), ← matched_iff]
      cases hempty : presented signature with
      | nil => simp [matched_iff]
      | cons candidate candidates => simp

/-- A delivery as the check reads it: the id, the truncated timestamp and the entries. -/
structure Reads (headers : Headers) (id : JsString) (seconds : F) (entries : List JsString) : Prop where
  id : headers.get (js "webhook-id") = some id
  seconds : ∃ timestamp f, headers.get (js "webhook-timestamp") = some timestamp
    ∧ n.ofText timestamp = .Finite f ∧ seconds = n.trunc f
  entries : ∃ signature, headers.get (js "webhook-signature") = some signature
    ∧ entries = signature.splitOn 0x20

/-- The delivery is accepted, and that entry carries the MAC of its content under one of the keys. -/
structure AcceptedOn (v : Verifier F) (now : Number F) (headers : Headers) (body : List UInt8)
    (id : JsString) (seconds : F) (entry : JsString) : Prop where
  verified : v.verify n hmac now headers body = true
  reads : ∃ entries, Reads n headers id seconds entries ∧ entry ∈ entries
  signed : ∃ key ∈ v.keys, entryBytes entry = some (hmac key (signedContent id (n.text seconds) body))

/-- **A delivery is accepted exactly when it is accepted on one of its entries.** -/
lemma Verifier.verify_iff (v : Verifier F) (now : Number F) (headers : Headers) (body : List UInt8) :
    v.verify n hmac now headers body = true
      ↔ ∃ id seconds entry, AcceptedOn n hmac v now headers body id seconds entry := by
  constructor
  · intro hverified
    have haccepted := hverified
    rw [verify] at hverified
    split at hverified
    · rename_i id timestamp signature hid htimestamp hsignature
      split at hverified
      · rename_i seconds hseconds
        obtain ⟨-, key, hkey, hmem⟩ :=
          (v.verify_eq_true n hmac hid htimestamp hsignature hseconds).mp haccepted
        obtain ⟨entry, hentry, hbytes⟩ := List.mem_filterMap.mp hmem
        exact ⟨id, _, entry, haccepted,
          ⟨_, ⟨hid, ⟨_, _, htimestamp, hseconds, rfl⟩, ⟨_, hsignature, rfl⟩⟩, hentry⟩,
          ⟨key, hkey, hbytes⟩⟩
      · cases hverified
    · cases hverified
  · rintro ⟨id, seconds, entry, haccepted⟩
    exact haccepted.verified

end

end Anyonce.StandardWebhooks
