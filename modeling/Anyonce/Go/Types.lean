import Mathlib.Algebra.Group.Int.Defs
import Anyonce.Types

/-!
# The Go data model

The types of `go/anyonce/types.go`.  A Go string is its bytes.  A slice or pointer that may be nil
is an `Option`, since the code keeps nil and empty apart.  A `time.Time` is its nanosecond count and
a `time.Duration` a number of nanoseconds.  String constants with a zero value keep it: an unset
`Kind` is `Unset`, an empty `Outcome` is `none`.
-/

namespace Anyonce.Go

/-- A Go string: its bytes. -/
abbrev GoString : Type := List UInt8

/-- The bytes of an ASCII literal. -/
def ascii (s : String) : GoString := s.toList.map fun c => UInt8.ofNat c.toNat

/-! ## Machine integers -/

/-- The largest `int`, which has 64 bits, and the largest `int64` and `time.Duration`. -/
def maxInt : ℤ := 2 ^ 63 - 1

/-- The value of an `int` or an `int64` after an operation that may wrap. -/
def wrapInt (n : ℤ) : ℤ := (n + 2 ^ 63) % 2 ^ 64 - 2 ^ 63

/-- Nothing wraps in range. -/
lemma wrapInt_of_le {n : ℤ} (hlow : 0 ≤ n) (hhigh : n ≤ maxInt) : wrapInt n = n := by
  simp only [wrapInt, maxInt] at *
  omega

/-- A sum that leaves the range wraps once around. -/
lemma wrapInt_add_of_lt {a b : ℤ} (ha : a ≤ maxInt) (hb : b ≤ maxInt) (hover : maxInt < a + b) :
    wrapInt (a + b) = a + b - 2 ^ 64 := by
  simp only [wrapInt, maxInt] at *
  omega

/-! ## Records -/

/-- What a claim is about: the scope, the key in it, and the fingerprint of the payload. -/
structure Operation where
  scope : GoString
  key : GoString
  fingerprint : GoString
  deriving DecidableEq

/-- The kind of a result; the zero value of a Go string is `Unset`. -/
inductive Kind
  | Unset
  | Http
  | Message
  deriving DecidableEq

/-- What is kept of the error of a failed message. -/
structure MessageError where
  name : GoString
  message : GoString
  deriving DecidableEq

/-- `omitted` marks the D12 form: the body was dropped because it exceeded the cap, while the status
and the headers survive. -/
structure StoredResult where
  kind : Kind := .Unset
  status : ℤ := 0
  headers : Option (List (GoString × GoString)) := none
  body : Option (List UInt8) := none
  outcome : Option MessageOutcome := none
  error : Option MessageError := none
  omitted : Bool := false
  deriving DecidableEq

def StoredResult.clone (r : StoredResult) : StoredResult :=
  { r with
    headers := r.headers.map fun hs => hs.map fun h => h
    body := r.body.map fun bs => bs.map fun b => b
    error := r.error.map fun e => ⟨e.name, e.message⟩ }

@[simp] lemma StoredResult.clone_eq (r : StoredResult) : r.clone = r := by
  obtain ⟨kind, status, headers, body, outcome, error, omitted⟩ := r
  simp [clone]

/-- One record of a Go store; its times are nanoseconds. -/
structure Record where
  scope : GoString
  key : GoString
  fingerprint : GoString
  state : RecordState
  fence : ℤ
  leaseUntil : ℤ
  createdAt : ℤ
  expiresAt : ℤ
  result : Option StoredResult := none
  resultOmitted : Bool := false
  deriving DecidableEq

def Record.clone (r : Record) : Record := { r with result := r.result.map StoredResult.clone }

@[simp] lemma Record.clone_eq (r : Record) : r.clone = r := by
  have hclone : StoredResult.clone = id := funext StoredResult.clone_eq
  simp [clone, hclone]

/-- The lease, the TTL and the caller's clock reading. -/
structure BeginOptions where
  lease : ℤ
  ttl : ℤ
  now : ℤ
  deriving DecidableEq

end Anyonce.Go
