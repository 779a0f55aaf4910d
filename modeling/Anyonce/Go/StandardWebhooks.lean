import Mathlib.Algebra.Group.Int.Defs
import Anyonce.Go.Header
import Anyonce.Webhook.Verify

/-!
# The Standard Webhooks check in Go

`go/standardwebhooks`.  Times and durations are numbers of nanoseconds.  The clock reads any time, and
a difference of times is the nearest duration.  `ParseFloat` is a parameter with the floats it gives;
`truncate` is the integer a finite one is cut to, which every finite float has.

* `parseSecret`, `newVerifier`, `Verifier.verify`, `Verifier.verifyFunc` — the functions.
* `decodeString` — standard base64, with its padding and without regard to line breaks.
-/

namespace Anyonce.Go.StandardWebhooks

open NumberText Ecma
open Anyonce.StandardWebhooks (Hmac)

/-! ## Base64 -/

/-- The value of a base64 character. -/
def sextetOfByte (b : UInt8) : Option ℕ := sextetOfChar b.toUInt16

/-- The groups of four of a text without line breaks; only the last one may be padded. -/
def decodeGroups : List UInt8 → Option (List UInt8)
  | [] => some []
  | a :: b :: c :: d :: rest => do
      let p ← sextetOfByte a
      let q ← sextetOfByte b
      if c = 0x3D ∧ d = 0x3D ∧ rest = [] then some (octets [p, q])
      else
        let r ← sextetOfByte c
        if d = 0x3D ∧ rest = [] then some (octets [p, q, r])
        else
          let s ← sextetOfByte d
          let more ← decodeGroups rest
          some (octets [p, q, r, s] ++ more)
  | _ => none

/-- `base64.StdEncoding.DecodeString`; `none` where it returns an error. -/
def decodeString (text : GoString) : Option (List UInt8) :=
  decodeGroups (text.filter fun b => !(b = 0x0A || b = 0x0D))

/-! ## Secrets -/

/-- The prefix of a Standard Webhooks secret. -/
def secretPrefix : GoString := ascii "whsec_"

/-- 300 s, in nanoseconds. -/
def defaultTolerance : ℤ := 300 * 1000000000

/-- The bound on timestamps; one further out is outside every tolerance, and is refused before it becomes an `int64`. -/
def maxTimestampSeconds : ℤ := 2 ^ 62

/-- `strings.CutPrefix`. -/
def cutStart (text start : GoString) : Option GoString :=
  if start <+: text then some (text.drop start.length) else none

/-- `ParseSecret`: the prefix cut, and the rest decoded as standard base64, to at least one byte. -/
def parseSecret (secret : GoString) : Except String (List UInt8) :=
  match decodeString ((cutStart secret secretPrefix).getD secret) with
  | none => .error "standardwebhooks: the secret is not valid base64"
  | some [] => .error "standardwebhooks: the secret is empty"
  | some key => .ok key

/-- `Verifier`: the keys, and how far a timestamp may be from the clock. -/
structure Verifier where
  keys : List (List UInt8)
  tolerance : ℤ

/-- `New`: no secret, or one that does not parse, is an error. -/
def newVerifier (secrets : List GoString) : Except String Verifier :=
  if secrets.isEmpty then .error "standardwebhooks: at least one secret is required"
  else do
    let keys ← secrets.mapM parseSecret
    .ok ⟨keys, defaultTolerance⟩

/-- `WithTolerance`: the verifier with another tolerance. -/
def Verifier.withTolerance (v : Verifier) (d : ℤ) : Verifier := { v with tolerance := d }

/-! ## The check -/

/-- The largest `time.Duration`. -/
def maxDuration : ℤ := 2 ^ 63 - 1

/-- The smallest `time.Duration`. -/
def minDuration : ℤ := -2 ^ 63

/-- `t.Sub(u)`. -/
def timeSub (t u : ℤ) : ℤ := max minDuration (min maxDuration (t - u))

/-- `-d`, which a duration has no room for when it is the least one. -/
def negDuration (d : ℤ) : ℤ := if d = minDuration then minDuration else -d

/-- `strconv.FormatInt` to the base of ten. -/
def formatInt (n : ℤ) : GoString := (intText n).map fun u => u.toUInt8

/-- The floats: `strconv.ParseFloat`, where an error is `none`, and the value of `math.Trunc`. -/
structure Floats (F : Type) where
  parseFloat : GoString → Option (Number F)
  truncate : F → ℤ

/-- The bytes of an entry of the signature header, when it is one of version 1 and decodes. -/
def entryBytes (entry : GoString) : Option (List UInt8) :=
  (cutStart entry (ascii "v1,")).bind decodeString

/-- The signatures of the header, which are separated by spaces. -/
def presented (sig : GoString) : List (List UInt8) := (sig.splitOn 0x20).filterMap entryBytes

/-- What is signed: the id, the seconds and the body, with dots between them. -/
def signedContent (id stampSeconds : GoString) (body : List UInt8) : List UInt8 :=
  id ++ 0x2e :: (stampSeconds ++ 0x2e :: body)

/-- Both loops run to their ends. -/
def matched (hmac : Hmac) (keys : List (List UInt8)) (content : List UInt8)
    (candidates : List (List UInt8)) : Bool :=
  keys.foldl (fun matched key =>
    candidates.foldl (fun matched candidate =>
      if hmac key content = candidate then true else matched) matched) false

section

variable {F : Type} (fl : Floats F) (hmac : Hmac)

/-- An error that wraps `ErrVerification`. -/
def failed (reason : String) : Except String Unit :=
  .error ("standardwebhooks: the signature did not verify: " ++ reason)

/-- The timestamp is out of range, or too far from the clock. -/
def Verifier.outsideTolerance (v : Verifier) (now : ℤ) (truncated : ℤ) : Bool :=
  truncated > maxTimestampSeconds || truncated < -maxTimestampSeconds
    || (let delta := timeSub now (truncated * 1000000000)
        delta > v.tolerance || delta < negDuration v.tolerance)

/-- **`Verify`**, with the reading of its clock. -/
def Verifier.verify (v : Verifier) (now : ℤ) (h : Header) (body : List UInt8) : Except String Unit :=
  let id := h.get (ascii "webhook-id")
  let ts := h.get (ascii "webhook-timestamp")
  let sig := h.get (ascii "webhook-signature")
  if id = [] ∨ ts = [] ∨ sig = [] then failed "a required header is missing"
  else
    match fl.parseFloat ts with
    | some (.Finite seconds) =>
        if v.outsideTolerance now (fl.truncate seconds) then
          failed "the timestamp is outside the tolerance"
        else
          let candidates := presented sig
          if candidates.isEmpty then failed "no signature entry matched"
          else
            let content := signedContent id (formatInt (fl.truncate seconds)) body
            if matched hmac v.keys content candidates then .ok ()
            else failed "no signature entry matched"
    | _ => failed "the timestamp is not a number"

/-- `VerifyFunc`: every error of `Verify` wraps `ErrVerification`, so none is passed on. -/
def Verifier.verifyFunc (v : Verifier) (now : ℤ) (h : Header) (body : List UInt8) : Except String Bool :=
  match v.verify fl hmac now h body with
  | .ok () => .ok true
  | .error _ => .ok false

end

/-! ## Accepted on an entry -/

lemma matched_iff (hmac : Hmac) (keys : List (List UInt8)) (content : List UInt8)
    (candidates : List (List UInt8)) :
    matched hmac keys content candidates = true ↔ ∃ key ∈ keys, hmac key content ∈ candidates := by
  have hsame : matched hmac keys content candidates
      = Anyonce.StandardWebhooks.matched hmac keys content candidates := by
    simp only [matched, Anyonce.StandardWebhooks.matched,
      Anyonce.StandardWebhooks.equalBytes_iff]
  rw [hsame, Anyonce.StandardWebhooks.matched_iff]

section

variable {F : Type} (fl : Floats F) (hmac : Hmac)

/-- When the check accepts a delivery. -/
lemma Verifier.verify_eq_ok (v : Verifier) (now : ℤ) {h : Header} {body : List UInt8} {id timestamp sig : GoString}
    (hid : h.get (ascii "webhook-id") = id) (htimestamp : h.get (ascii "webhook-timestamp") = timestamp)
    (hsig : h.get (ascii "webhook-signature") = sig) :
    v.verify fl hmac now h body = .ok ()
      ↔ (id ≠ [] ∧ timestamp ≠ []) ∧ ∃ f, fl.parseFloat timestamp = some (.Finite f)
        ∧ v.outsideTolerance now (fl.truncate f) = false ∧ ∃ key ∈ v.keys,
          hmac key (signedContent id (formatInt (fl.truncate f)) body) ∈ presented sig := by
  simp only [verify, hid, htimestamp, hsig]
  by_cases hid' : id = []
  · simp [hid', failed]
  by_cases htimestamp' : timestamp = []
  · simp [htimestamp', failed]
  by_cases hsig' : sig = []
  · have hnone : presented [] = [] := rfl
    simp [hsig', hnone, failed]
  rw [if_neg (by simp [hid', htimestamp', hsig'])]
  rcases hnumber : fl.parseFloat timestamp with _ | f | negative | _
  · simp [failed]
  · dsimp only
    cases houtside : v.outsideTolerance now (fl.truncate f) with
    | true => simp [failed, houtside]
    | false =>
        rw [if_neg (by simp)]
        by_cases hmatched : matched hmac v.keys (signedContent id (formatInt (fl.truncate f)) body) (presented sig)
        · have hcandidates : (presented sig).isEmpty = false := by
            obtain ⟨key, -, hmem⟩ := (matched_iff hmac _ _ _).mp hmatched
            simpa using List.ne_nil_of_mem hmem
          simp [hcandidates, hmatched, houtside, hid', htimestamp', (matched_iff hmac _ _ _).mp hmatched]
        · rw [matched_iff] at hmatched
          have hrefused : (if (presented sig).isEmpty = true then failed "no signature entry matched"
              else if matched hmac v.keys (signedContent id (formatInt (fl.truncate f)) body) (presented sig) = true
                then Except.ok () else failed "no signature entry matched")
              = failed "no signature entry matched" := by
            rw [if_neg (mt (matched_iff hmac _ _ _).mp hmatched), ite_self]
          rw [hrefused]
          constructor
          · intro h
            cases h
          · rintro ⟨-, g, hg, -, hsigned⟩
            obtain rfl : f = g := by simpa using hg
            exact absurd hsigned hmatched
  · simp [failed]
  · simp [failed]

/-- A delivery as the check reads it: the id, the truncated timestamp and the entries. -/
structure Reads (h : Header) (id : GoString) (seconds : ℤ) (entries : List GoString) : Prop where
  id : h.get (ascii "webhook-id") = id
  seconds : ∃ f, fl.parseFloat (h.get (ascii "webhook-timestamp")) = some (.Finite f)
    ∧ seconds = fl.truncate f
  entries : entries = (h.get (ascii "webhook-signature")).splitOn 0x20

/-- The delivery is accepted, and that entry carries the MAC of its content under one of the keys. -/
structure AcceptedOn (v : Verifier) (now : ℤ) (h : Header) (body : List UInt8) (id : GoString)
    (seconds : ℤ) (entry : GoString) : Prop where
  verified : v.verify fl hmac now h body = .ok ()
  reads : ∃ entries, Reads fl h id seconds entries ∧ entry ∈ entries
  signed : ∃ key ∈ v.keys, entryBytes entry = some (hmac key (signedContent id (formatInt seconds) body))

/-- **A delivery is accepted exactly when it is accepted on one of its entries.** -/
lemma Verifier.verify_iff (v : Verifier) (now : ℤ) (h : Header) (body : List UInt8) :
    v.verify fl hmac now h body = .ok ()
      ↔ ∃ id seconds entry, AcceptedOn fl hmac v now h body id seconds entry := by
  constructor
  · intro hverified
    have haccepted := hverified
    rw [verify] at hverified
    dsimp only at hverified
    split at hverified
    · cases hverified
    · split at hverified
      · rename_i seconds hseconds
        split at hverified
        · cases hverified
        · split at hverified
          · cases hverified
          · split at hverified
            · rename_i hmatched
              obtain ⟨key, hkey, hmem⟩ := (matched_iff hmac _ _ _).mp hmatched
              obtain ⟨entry, hentry, hbytes⟩ := List.mem_filterMap.mp hmem
              exact ⟨_, _, entry, haccepted, ⟨_, ⟨rfl, ⟨seconds, hseconds, rfl⟩, rfl⟩, hentry⟩,
                ⟨key, hkey, hbytes⟩⟩
            · cases hverified
      · cases hverified
  · rintro ⟨id, seconds, entry, haccepted⟩
    exact haccepted.verified

end

end Anyonce.Go.StandardWebhooks
