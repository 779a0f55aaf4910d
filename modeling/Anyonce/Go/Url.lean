import Mathlib.Tactic.IntervalCases
import Anyonce.Go.Header

/-!
# Paths of Go URLs

`EscapedPath` of `net/url`: the path as it came, where that is a valid encoding of the path, and the
path escaped anew otherwise.  What the doors rely on is `escapedPath_valid`: either way it has none of
the bytes that end a path.

* `validEncoded`, `unescape`, `escape` — the three functions `escapedPath` is made of.
-/

namespace Anyonce.Go

/-! ## Escapes -/

/-- `shouldEscape` for a path. -/
def shouldEscape (b : UInt8) : Bool :=
  !(isUpper b || isLower b || isDigit b || (ascii "-_.~$&+,/:;=@").contains b)

/-- A byte `validEncoded` lets through. -/
def validEncodedByte (b : UInt8) : Bool := (ascii "!$&'()*+,;=:@[]%").contains b || !shouldEscape b

def validEncoded (s : GoString) : Bool := s.all validEncodedByte

/-- A digit of `upperhex`. -/
def upperHex (n : ℕ) : UInt8 := UInt8.ofNat (if n < 10 then 0x30 + n else 0x37 + n)

/-- `escape`: a percent sign and two digits for each byte a path may not have. -/
def escape (s : GoString) : GoString :=
  s.flatMap fun b =>
    if shouldEscape b then [0x25, upperHex (b.toNat / 16), upperHex (b.toNat % 16)] else [b]

/-- `unhex`, where `ishex` holds. -/
def unhex (b : UInt8) : Option UInt8 :=
  if isDigit b then some (b - 0x30)
  else if 0x61 ≤ b ∧ b ≤ 0x66 then some (b - 0x61 + 10)
  else if 0x41 ≤ b ∧ b ≤ 0x46 then some (b - 0x41 + 10)
  else none

/-- `unescape`; `none` is an `EscapeError`. -/
def unescape : GoString → Option GoString
  | [] => some []
  | b :: rest =>
      if b = 0x25 then
        match rest with
        | hi :: lo :: rest => do
            let hi ← unhex hi
            let lo ← unhex lo
            return (16 * hi + lo) :: (← unescape rest)
        | _ => none
      else (unescape rest).map (b :: ·)

/-! ## The escaped path -/

/-- What `EscapedPath` reads of a `url.URL`: the decoded path, and the encoding it came in where that is
not the default one. -/
structure URL where
  path : GoString
  rawPath : GoString := []

/-- `EscapedPath`: the raw path where it is a valid encoding of the path; else the path encoded anew, but for a lone `*`. -/
def URL.escapedPath (u : URL) : GoString :=
  if u.rawPath ≠ [] ∧ validEncoded u.rawPath = true ∧ unescape u.rawPath = some u.path then u.rawPath
  else if u.path = [0x2a] then [0x2a]
  else escape u.path

lemma validEncodedByte_upperHex {n : ℕ} (h : n < 16) : validEncodedByte (upperHex n) = true := by
  interval_cases n <;> decide

lemma validEncoded_escape (s : GoString) : validEncoded (escape s) = true := by
  simp only [validEncoded, escape, List.all_flatMap, List.all_eq_true]
  intro b _
  have hb : b.toNat < 256 := b.toNat_lt
  split_ifs with hesc
  · have hhi : validEncodedByte (upperHex (b.toNat / 16)) = true := validEncodedByte_upperHex (by omega)
    have hlo : validEncodedByte (upperHex (b.toNat % 16)) = true := validEncodedByte_upperHex (by omega)
    have hpercent : validEncodedByte 0x25 = true := by decide
    simp [hhi, hlo, hpercent]
  · simp [validEncodedByte, hesc]

/-- **The escaped path is encoded**, whatever the URL holds. -/
lemma URL.escapedPath_valid (u : URL) : validEncoded u.escapedPath = true := by
  unfold URL.escapedPath
  split_ifs with hraw hstar
  · exact hraw.2.1
  · decide
  · exact validEncoded_escape u.path

/-- No escaped path has a hash. -/
lemma URL.hash_not_mem (u : URL) : 0x23 ∉ u.escapedPath := by
  intro h
  exact absurd (List.all_eq_true.mp u.escapedPath_valid 0x23 h) (by decide)

end Anyonce.Go
