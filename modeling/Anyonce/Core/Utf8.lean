import Mathlib.Algebra.Group.Nat.Defs
import Anyonce.Core.Json
import Anyonce.Core.Unicode

/-!
# Reading and repairing encoded text

Programs are handed bytes and code units that need not be an encoding of anything.  The decoders here
put U+FFFD where they find such a place: `decode` as a `TextDecoder` does, once for each sequence that
breaks off, and `runes` as Go does, once for each byte.  `scalars` does the same for surrogates that
are not part of a pair.

On the encoding of a text all of them give the text back (`decode_utf8`, `runes_utf8`,
`scalars_utf16`).  So a text is determined by its encoding (`utf8_injective`, `utf16_injective`).
-/

namespace Unicode

open Ecma (isLead isTrail)

/-- U+FFFD, the replacement character. -/
def replacement : Char := Char.ofNat 0xFFFD

/-! ## UTF-8 -/

/-- What the first byte of a sequence announces: the number of bytes to follow, the range of the first
of these, and the bits it holds itself. -/
def lead (b : ℕ) : Option (ℕ × ℕ × ℕ × ℕ) :=
  if b < 0x80 then some (0, 0x80, 0xBF, b)
  else if b < 0xC2 then none
  else if b < 0xE0 then some (1, 0x80, 0xBF, b - 0xC0)
  else if b < 0xF0 then
    some (2, if b = 0xE0 then 0xA0 else 0x80, if b = 0xED then 0x9F else 0xBF, b - 0xE0)
  else if b < 0xF5 then
    some (3, if b = 0xF0 then 0x90 else 0x80, if b = 0xF4 then 0x8F else 0xBF, b - 0xF0)
  else none

/-- The bytes to follow: how many of them are there, and the code point when none is missing. -/
def continuation : ℕ → ℕ → ℕ → ℕ → List UInt8 → ℕ × Option ℕ
  | 0, _, _, point, _ => (0, some point)
  | _ + 1, _, _, _, [] => (0, none)
  | needed + 1, lower, upper, point, b :: rest =>
      if lower ≤ b.toNat ∧ b.toNat ≤ upper then
        let (k, point) := continuation needed 0x80 0xBF (point * 64 + (b.toNat - 0x80)) rest
        (k + 1, point)
      else (0, none)

/-- The character that begins at a byte, if there is one, and the number of bytes that follow the
first and belong to it or to the beginning of one. -/
def decodeFirst (b : UInt8) (rest : List UInt8) : ℕ × Option Char :=
  match lead b.toNat with
  | none => (0, none)
  | some (needed, lower, upper, bits) =>
      let (k, point) := continuation needed lower upper bits rest
      (k, point.map Char.ofNat)

/-- The characters of a list of bytes after `k` more bytes; `broken` says how many of the bytes that
follow are given up with the first one of a sequence that breaks off. -/
def decodeSkip (broken : ℕ → ℕ) : ℕ → List UInt8 → List Char
  | _, [] => []
  | k + 1, _ :: rest => decodeSkip broken k rest
  | 0, b :: rest =>
      match decodeFirst b rest with
      | (k, some c) => c :: decodeSkip broken k rest
      | (k, none) => replacement :: decodeSkip broken (broken k) rest

/-- `decode` of a `TextDecoder` that is neither fatal nor told to keep a byte order mark. -/
def decode (bytes : List UInt8) : List Char :=
  decodeSkip id 0 (if [0xEF, 0xBB, 0xBF] <+: bytes then bytes.drop 3 else bytes)

/-- The runes of a Go string. -/
def runes (bytes : List UInt8) : List Char := decodeSkip (fun _ => 0) 0 bytes

lemma decodeSkip_append (broken : ℕ → ℕ) (bs rest : List UInt8) :
    decodeSkip broken bs.length (bs ++ rest) = decodeSkip broken 0 rest := by
  induction bs with
  | nil => rfl
  | cons b bs ih => exact ih

lemma continuation_cons {needed lower upper : ℕ} {b : UInt8}
    (h : lower ≤ b.toNat ∧ b.toNat ≤ upper) (point : ℕ) (rest : List UInt8) :
    continuation (needed + 1) lower upper point (b :: rest)
      = ((continuation needed 0x80 0xBF (point * 64 + (b.toNat - 0x80)) rest).1 + 1,
        (continuation needed 0x80 0xBF (point * 64 + (b.toNat - 0x80)) rest).2) := by
  rw [continuation, if_pos h]

lemma toNat_byte {n : ℕ} (h : n < 256) : (UInt8.ofNat n).toNat = n := by
  rw [UInt8.toNat_ofNat']
  omega

section Sequences

variable {n : ℕ} (rest : List UInt8)

lemma decodeFirst_one (h : n < 0x80) :
    decodeFirst (UInt8.ofNat n) rest = (0, some (Char.ofNat n)) := by
  rw [decodeFirst, toNat_byte (by omega), lead, if_pos h]
  rfl

lemma decodeFirst_two (hlo : 0x80 ≤ n) (hhi : n ≤ 0x7FF) :
    decodeFirst (UInt8.ofNat (n / 64 % 32 + 0xC0)) (UInt8.ofNat (n % 64 + 0x80) :: rest)
      = (1, some (Char.ofNat n)) := by
  have hb : (UInt8.ofNat (n % 64 + 0x80)).toNat = n % 64 + 0x80 := toNat_byte (by omega)
  have hpoint : (n / 64 % 32 + 0xC0 - 0xC0) * 64 + (n % 64 + 0x80 - 0x80) = n := by omega
  rw [decodeFirst, toNat_byte (by omega), lead, if_neg (by omega), if_neg (by omega),
    if_pos (by omega)]
  dsimp only
  rw [continuation_cons (by omega), hb, hpoint]
  rfl

lemma decodeFirst_three (hlo : 0x800 ≤ n) (hhi : n ≤ 0xFFFF)
    (hvalid : n < 0xD800 ∨ 0xDFFF < n) :
    decodeFirst (UInt8.ofNat (n / 4096 % 16 + 0xE0))
        (UInt8.ofNat (n / 64 % 64 + 0x80) :: UInt8.ofNat (n % 64 + 0x80) :: rest)
      = (2, some (Char.ofNat n)) := by
  have hb : (UInt8.ofNat (n / 64 % 64 + 0x80)).toNat = n / 64 % 64 + 0x80 := toNat_byte (by omega)
  have hb' : (UInt8.ofNat (n % 64 + 0x80)).toNat = n % 64 + 0x80 := toNat_byte (by omega)
  have hpoint : ((n / 4096 % 16 + 0xE0 - 0xE0) * 64 + (n / 64 % 64 + 0x80 - 0x80)) * 64
      + (n % 64 + 0x80 - 0x80) = n := by omega
  have hrange : (if n / 4096 % 16 + 0xE0 = 0xE0 then 0xA0 else 0x80) ≤ n / 64 % 64 + 0x80
      ∧ n / 64 % 64 + 0x80 ≤ if n / 4096 % 16 + 0xE0 = 0xED then 0x9F else 0xBF := by
    split_ifs <;> omega
  rw [decodeFirst, toNat_byte (by omega), lead, if_neg (by omega), if_neg (by omega),
    if_neg (by omega), if_pos (by omega)]
  dsimp only
  rw [continuation_cons (by rw [hb]; exact hrange), continuation_cons (by omega), hb, hb', hpoint]
  rfl

lemma decodeFirst_four (hlo : 0x10000 ≤ n) (hhi : n < 0x110000) :
    decodeFirst (UInt8.ofNat (n / 262144 % 8 + 0xF0))
        (UInt8.ofNat (n / 4096 % 64 + 0x80) :: UInt8.ofNat (n / 64 % 64 + 0x80)
          :: UInt8.ofNat (n % 64 + 0x80) :: rest)
      = (3, some (Char.ofNat n)) := by
  have hb : (UInt8.ofNat (n / 4096 % 64 + 0x80)).toNat = n / 4096 % 64 + 0x80 :=
    toNat_byte (by omega)
  have hb' : (UInt8.ofNat (n / 64 % 64 + 0x80)).toNat = n / 64 % 64 + 0x80 := toNat_byte (by omega)
  have hb'' : (UInt8.ofNat (n % 64 + 0x80)).toNat = n % 64 + 0x80 := toNat_byte (by omega)
  have hpoint : (((n / 262144 % 8 + 0xF0 - 0xF0) * 64 + (n / 4096 % 64 + 0x80 - 0x80)) * 64
      + (n / 64 % 64 + 0x80 - 0x80)) * 64 + (n % 64 + 0x80 - 0x80) = n := by omega
  have hrange : (if n / 262144 % 8 + 0xF0 = 0xF0 then 0x90 else 0x80) ≤ n / 4096 % 64 + 0x80
      ∧ n / 4096 % 64 + 0x80 ≤ if n / 262144 % 8 + 0xF0 = 0xF4 then 0x8F else 0xBF := by
    split_ifs <;> omega
  rw [decodeFirst, toNat_byte (by omega), lead, if_neg (by omega), if_neg (by omega),
    if_neg (by omega), if_neg (by omega), if_pos (by omega)]
  dsimp only
  rw [continuation_cons (by rw [hb]; exact hrange), continuation_cons (by omega),
    continuation_cons (by omega), hb, hb', hb'', hpoint]
  rfl

end Sequences

/-- **A sequence is read as its character.** -/
lemma decodeFirst_utf8Char (c : Char) (rest : List UInt8) :
    ∃ b bs, utf8Char c = b :: bs ∧ decodeFirst b (bs ++ rest) = (bs.length, some c) := by
  have hc := toNat_lt c
  have hvalid : c.toNat < 0xD800 ∨ 0xDFFF < c.toNat := c.valid.imp id And.left
  have hofNat : Char.ofNat c.toNat = c := Char.ofNat_toNat c
  have hbytes : utf8Char c = if c.toNat ≤ 0x7F then [UInt8.ofNat c.toNat]
      else if c.toNat ≤ 0x7FF then
        [UInt8.ofNat (c.toNat / 64 % 32 + 0xC0), UInt8.ofNat (c.toNat % 64 + 0x80)]
      else if c.toNat ≤ 0xFFFF then
        [UInt8.ofNat (c.toNat / 4096 % 16 + 0xE0), UInt8.ofNat (c.toNat / 64 % 64 + 0x80),
          UInt8.ofNat (c.toNat % 64 + 0x80)]
      else
        [UInt8.ofNat (c.toNat / 262144 % 8 + 0xF0), UInt8.ofNat (c.toNat / 4096 % 64 + 0x80),
          UInt8.ofNat (c.toNat / 64 % 64 + 0x80), UInt8.ofNat (c.toNat % 64 + 0x80)] := rfl
  rw [hbytes]
  split_ifs with h1 h2 h3
  · exact ⟨_, _, rfl, by simpa [hofNat] using decodeFirst_one rest (Nat.lt_succ_of_le h1)⟩
  · exact ⟨_, _, rfl, by simpa [hofNat] using decodeFirst_two rest (not_le.mp h1) h2⟩
  · exact ⟨_, _, rfl, by simpa [hofNat] using decodeFirst_three rest (not_le.mp h2) h3 hvalid⟩
  · exact ⟨_, _, rfl, by simpa [hofNat] using decodeFirst_four rest (not_le.mp h3) hc⟩

lemma toNat_ofNat {n : ℕ} (h : n.isValidChar) : (Char.ofNat n).toNat = n := by
  rw [Char.ofNat, dif_pos h]
  rfl

/-- The bounds of a code point read from bytes to follow. -/
lemma continuation_bounds {needed lower upper point k v : ℕ} {rest : List UInt8} (hlow : 0x80 ≤ lower)
    (h : continuation (needed + 1) lower upper point rest = (k, some v)) :
    (point * 64 + (lower - 0x80)) * 64 ^ needed ≤ v
      ∧ v < (point * 64 + (upper - 0x80) + 1) * 64 ^ needed := by
  induction needed generalizing lower upper point k rest with
  | zero =>
      cases rest with
      | nil => cases h
      | cons b rest =>
          by_cases hb : lower ≤ b.toNat ∧ b.toNat ≤ upper
          · rw [continuation_cons hb] at h
            simp only [continuation, Prod.mk.injEq, Option.some.injEq] at h
            omega
          · rw [continuation, if_neg hb] at h
            cases h
  | succ needed ih =>
      cases rest with
      | nil => cases h
      | cons b rest =>
          by_cases hb : lower ≤ b.toNat ∧ b.toNat ≤ upper
          · rw [continuation_cons hb] at h
            obtain ⟨hv, hv'⟩ := ih (le_refl _) (Prod.ext rfl (Prod.mk.inj h).2)
            rw [Nat.pow_succ']
            constructor
            · refine le_trans ?_ hv
              rw [← Nat.mul_assoc]
              exact Nat.mul_le_mul_right _ (by omega)
            · refine lt_of_lt_of_le hv' ?_
              rw [← Nat.mul_assoc]
              exact Nat.mul_le_mul_right _ (by omega)
          · rw [continuation, if_neg hb] at h
            cases h

/-- What a byte above ASCII announces are the code points of one length, without the surrogates. -/
lemma lead_bounds {b needed lower upper bits : ℕ} (hb : 0x80 ≤ b)
    (h : lead b = some (needed, lower, upper, bits)) :
    ∃ n, needed = n + 1 ∧ 0x80 ≤ lower ∧ 0x80 ≤ (bits * 64 + (lower - 0x80)) * 64 ^ n
      ∧ ((bits * 64 + (upper - 0x80) + 1) * 64 ^ n ≤ 0xD800
        ∨ 0xE000 ≤ (bits * 64 + (lower - 0x80)) * 64 ^ n
          ∧ (bits * 64 + (upper - 0x80) + 1) * 64 ^ n ≤ 0x110000) := by
  unfold lead at h
  split_ifs at h
  all_goals simp only [Option.some.injEq, Prod.mk.injEq] at h
  all_goals obtain ⟨rfl, rfl, rfl, rfl⟩ := h
  all_goals first | omega | refine ⟨_, rfl, ?_⟩
  all_goals simp only [Nat.pow_zero, Nat.pow_one, Nat.reducePow]
  all_goals omega

/-- **A byte above ASCII begins a character above ASCII**, if it begins one. -/
lemma decodeFirst_wide {b : UInt8} {rest : List UInt8} {k : ℕ} {c : Char} (hb : 0x80 ≤ b.toNat)
    (h : decodeFirst b rest = (k, some c)) : 0x80 ≤ c.toNat := by
  unfold decodeFirst at h
  cases hlead : lead b.toNat with
  | none =>
      rw [hlead] at h
      cases h
  | some announced =>
      obtain ⟨needed, lower, upper, bits⟩ := announced
      obtain ⟨n, rfl, hlower, hlo, hhi⟩ := lead_bounds hb hlead
      simp only [hlead, Prod.mk.injEq, Option.map_eq_some_iff] at h
      obtain ⟨-, v, hv, rfl⟩ := h
      obtain ⟨hle, hlt⟩ := continuation_bounds hlower (Prod.ext rfl hv)
      rw [toNat_ofNat]
      · exact le_trans hlo hle
      · rcases hhi with hhi | ⟨hge, hhi⟩
        · exact Or.inl (lt_of_lt_of_le hlt hhi)
        · exact Or.inr ⟨by omega, by omega⟩

lemma decodeSkip_utf8 (broken : ℕ → ℕ) (cs : List Char) (rest : List UInt8) :
    decodeSkip broken 0 (utf8 cs ++ rest) = cs ++ decodeSkip broken 0 rest := by
  induction cs with
  | nil => rfl
  | cons c cs ih =>
      obtain ⟨b, bs, hbytes, hfirst⟩ := decodeFirst_utf8Char c (utf8 cs ++ rest)
      rw [utf8_cons, hbytes, List.append_assoc, List.cons_append, decodeSkip, hfirst]
      dsimp only
      rw [decodeSkip_append, ih]
      rfl

/-- A text that begins with a byte order mark. -/
def Marked (cs : List Char) : Prop := cs.head? = some (Char.ofNat 0xFEFF)

instance : DecidablePred Marked := fun cs =>
  inferInstanceAs (Decidable (cs.head? = some (Char.ofNat 0xFEFF)))

/-- **A text is decoded to itself**, unless it begins with a byte order mark. -/
theorem decode_utf8 {cs : List Char} (h : ¬ Marked cs) : decode (utf8 cs) = cs := by
  have hchars : decodeSkip id 0 (utf8 cs) = cs := by
    have hskip := decodeSkip_utf8 id cs []
    rw [List.append_nil] at hskip
    exact hskip.trans (List.append_nil cs)
  have hmark : ¬ [0xEF, 0xBB, 0xBF] <+: utf8 cs := by
    rintro ⟨rest, hrest⟩
    rw [← hrest] at hchars
    exact h (by rw [← hchars]; rfl)
  rw [decode, if_neg hmark, hchars]

/-- **A Go string has the runes it encodes.** -/
theorem runes_utf8 (cs : List Char) : runes (utf8 cs) = cs := by
  have hrunes := decodeSkip_utf8 (fun _ => 0) cs []
  rw [List.append_nil] at hrunes
  exact hrunes.trans (List.append_nil cs)

theorem utf8_injective : Function.Injective utf8 :=
  Function.LeftInverse.injective runes_utf8

/-! ## UTF-16 -/

lemma isLead_iff (u : UInt16) : isLead u = true ↔ 0xD800 ≤ u.toNat ∧ u.toNat ≤ 0xDBFF := by
  simp [isLead, UInt16.le_iff_toNat_le]

lemma isTrail_iff (u : UInt16) : isTrail u = true ↔ 0xDC00 ≤ u.toNat ∧ u.toNat ≤ 0xDFFF := by
  simp [isTrail, UInt16.le_iff_toNat_le]

/-- The character of a pair of surrogates. -/
def pair (u v : UInt16) : Char :=
  Char.ofNat (0x10000 + (u.toNat - 0xD800) * 0x400 + (v.toNat - 0xDC00))

/-- A code unit that is not part of a pair. -/
def single (u : UInt16) : Char := if isLead u || isTrail u then replacement else Char.ofNat u.toNat

/-- The characters of a list of code units. -/
def scalars : List UInt16 → List Char
  | [] => []
  | [u] => [single u]
  | u :: v :: rest =>
      if isLead u && isTrail v then pair u v :: scalars rest else single u :: scalars (v :: rest)

/-- A code unit that begins no pair. -/
lemma scalars_cons {u : UInt16} {rest : List UInt16}
    (h : ∀ v ∈ rest.head?, (isLead u && isTrail v) = false) :
    scalars (u :: rest) = single u :: scalars rest := by
  cases rest with
  | nil => rfl
  | cons v rest => rw [scalars, if_neg (by simpa using h v)]

lemma toNat_unit {n : ℕ} (h : n < 0x10000) : (UInt16.ofNat n).toNat = n := by
  rw [UInt16.toNat_ofNat']
  omega

/-- `encode` of a `TextEncoder`. -/
def encode (s : List UInt16) : List UInt8 := utf8 (scalars s)

/-- The code units of a character are read as the character. -/
lemma scalars_utf16Char (c : Char) (rest : List UInt16) :
    scalars (utf16Char c ++ rest) = c :: scalars rest := by
  have hc := toNat_lt c
  have hvalid : c.toNat < 0xD800 ∨ 0xDFFF < c.toNat := c.valid.imp id And.left
  rw [utf16Char]
  split_ifs with hbmp
  · have hu : (UInt16.ofNat c.toNat).toNat = c.toNat := toNat_unit hbmp
    have hlead : isLead (UInt16.ofNat c.toNat) = false := by
      rw [← Bool.not_eq_true, isLead_iff, hu]
      omega
    have htrail : isTrail (UInt16.ofNat c.toNat) = false := by
      rw [← Bool.not_eq_true, isTrail_iff, hu]
      omega
    rw [List.singleton_append, scalars_cons (by simp [hlead]), single, hlead, htrail, hu]
    exact congrArg (· :: scalars rest) (Char.ofNat_toNat c)
  · have hu : (UInt16.ofNat (0xD800 + (c.toNat - 0x10000) / 0x400)).toNat
        = 0xD800 + (c.toNat - 0x10000) / 0x400 := toNat_unit (by omega)
    have hv : (UInt16.ofNat (0xDC00 + (c.toNat - 0x10000) % 0x400)).toNat
        = 0xDC00 + (c.toNat - 0x10000) % 0x400 := toNat_unit (by omega)
    have hpair : (isLead (UInt16.ofNat (0xD800 + (c.toNat - 0x10000) / 0x400))
        && isTrail (UInt16.ofNat (0xDC00 + (c.toNat - 0x10000) % 0x400))) = true := by
      rw [Bool.and_eq_true, isLead_iff, isTrail_iff, hu, hv]
      omega
    have hpoint : 0x10000 + (0xD800 + (c.toNat - 0x10000) / 0x400 - 0xD800) * 0x400
        + (0xDC00 + (c.toNat - 0x10000) % 0x400 - 0xDC00) = c.toNat := by omega
    rw [List.cons_append, List.singleton_append, scalars, if_pos hpair, pair, hu, hv, hpoint,
      Char.ofNat_toNat]

/-- No character begins with the second half of a pair. -/
lemma utf16Char_head (c : Char) : ∀ v ∈ (utf16Char c).head?, isTrail v = false := by
  have hc := toNat_lt c
  have hvalid : c.toNat < 0xD800 ∨ 0xDFFF < c.toNat := c.valid.imp id And.left
  rw [utf16Char]
  split_ifs with hbmp
  · simp only [List.head?_cons, Option.mem_some_iff, forall_eq']
    rw [← Bool.not_eq_true, isTrail_iff, toNat_unit hbmp]
    omega
  · simp only [List.head?_cons, Option.mem_some_iff, forall_eq']
    rw [← Bool.not_eq_true, isTrail_iff, toNat_unit (by omega)]
    omega

/-- **Code units are read as the text they encode.** -/
theorem scalars_utf16 (cs : List Char) : scalars (utf16 cs) = cs := by
  induction cs with
  | nil => rfl
  | cons c cs ih => rw [utf16_cons, scalars_utf16Char, ih]

theorem utf16_injective : Function.Injective utf16 :=
  Function.LeftInverse.injective scalars_utf16

lemma encode_utf16 (cs : List Char) : encode (utf16 cs) = utf8 cs := by
  rw [encode, scalars_utf16]

/-! ## ASCII -/

/-- Code units that are ASCII. -/
def Ascii (s : List UInt16) : Prop := ∀ u ∈ s, u.toNat < 0x80

lemma single_ascii {u : UInt16} (h : u.toNat < 0x80) : single u = Char.ofNat u.toNat := by
  have hlead : isLead u = false := by
    rw [← Bool.not_eq_true, isLead_iff]
    omega
  have htrail : isTrail u = false := by
    rw [← Bool.not_eq_true, isTrail_iff]
    omega
  simp [single, hlead, htrail]

/-- A unit that is not part of a pair, read as an ASCII character, is that character. -/
lemma utf16Char_single {u : UInt16} (h : (single u).toNat < 0x80) : utf16Char (single u) = [u] := by
  have hchar : single u = Char.ofNat u.toNat ∧ u.toNat.isValidChar := by
    rw [single] at h ⊢
    split_ifs at h ⊢ with hsurrogate
    · exact absurd h (by decide)
    · rw [Bool.or_eq_true, isLead_iff, isTrail_iff] at hsurrogate
      have hu : u.toNat < 65536 := u.toNat_lt
      refine ⟨rfl, ?_⟩
      rw [Nat.isValidChar]
      omega
  rw [utf16Char_ascii h, hchar.1, toNat_ofNat hchar.2, UInt16.ofNat_toNat]

/-- **Nothing but ASCII is read as ASCII.** -/
lemma utf16_scalars {s : List UInt16} (h : ∀ c ∈ scalars s, c.toNat < 0x80) : utf16 (scalars s) = s := by
  induction s using scalars.induct with
  | case1 => rfl
  | case2 u =>
      rw [scalars, List.forall_mem_singleton] at h
      rw [scalars, utf16_cons, utf16Char_single h]
      rfl
  | case3 u v rest hpair ih =>
      rw [scalars, if_pos hpair, List.forall_mem_cons] at h
      rw [Bool.and_eq_true, isLead_iff, isTrail_iff] at hpair
      have hwide := h.1
      rw [pair, toNat_ofNat (by rw [Nat.isValidChar]; omega)] at hwide
      omega
  | case4 u v rest hpair ih =>
      rw [scalars, if_neg hpair, List.forall_mem_cons] at h
      rw [scalars, if_neg hpair, utf16_cons, utf16Char_single h.1, ih h.2]
      rfl

lemma scalars_ascii {s : List UInt16} (hs : Ascii s) : scalars s = s.map fun u => Char.ofNat u.toNat := by
  induction s with
  | nil => rfl
  | cons u rest ih =>
      rw [Ascii, List.forall_mem_cons] at hs
      have hlead : isLead u = false := by
        rw [← Bool.not_eq_true, isLead_iff]
        omega
      rw [scalars_cons (by simp [hlead]), single_ascii hs.1, ih hs.2, List.map_cons]

lemma toNat_char {n : ℕ} (h : n < 0x80) : (Char.ofNat n).toNat = n :=
  toNat_ofNat (Or.inl (by omega))

/-- The bytes of a field in ASCII are its text. -/
lemma encode_ascii {s : List UInt16} (hs : Ascii s) : encode s = s.map UInt16.toUInt8 := by
  rw [encode, scalars_ascii hs, utf8, List.flatMap_map, ← List.flatMap_pure_eq_map]
  refine List.flatMap_congr fun u hu => ?_
  rw [utf8Char_ascii (by rw [toNat_char (hs u hu)]; exact hs u hu), toNat_char (hs u hu)]
  rfl

lemma encode_eq_iff {s t : List UInt16} (hs : Ascii s) : encode t = s.map UInt16.toUInt8 ↔ t = s := by
  have hscalars : ∀ c ∈ scalars s, c.toNat < 0x80 := by
    rw [scalars_ascii hs]
    intro c hc
    obtain ⟨u, hu, rfl⟩ := List.mem_map.mp hc
    rw [toNat_char (hs u hu)]
    exact hs u hu
  rw [← encode_ascii hs]
  constructor
  · intro h
    have heq : scalars t = scalars s := utf8_injective h
    rw [← utf16_scalars hscalars, ← heq, utf16_scalars (by rwa [heq])]
  · rintro rfl
    rfl

/-- What is encoded in ASCII is ASCII. -/
lemma ascii_of_encode {s : List UInt16} (h : ∀ b ∈ encode s, b.toNat < 0x80) : Ascii s := by
  have hscalars : ∀ c ∈ scalars s, c.toNat < 0x80 := by
    intro c hc
    by_contra hwide
    obtain ⟨b, rest, hb⟩ := List.exists_cons_of_ne_nil (utf8Char_ne_nil c)
    have hmem : b ∈ utf8Char c := by simp [hb]
    have hlow := h b (List.mem_flatMap.mpr ⟨c, hc, hmem⟩)
    have hhigh := utf8Char_wide (not_lt.mp hwide) b hmem
    omega
  intro u hu
  rw [← utf16_scalars hscalars] at hu
  obtain ⟨c, hc, hmem⟩ := List.mem_flatMap.mp hu
  have hlow := hscalars c hc
  rw [utf16Char_ascii hlow, List.mem_singleton] at hmem
  rw [hmem, UInt16.toNat_ofNat', Nat.mod_eq_of_lt (by omega)]
  exact hlow

end Unicode
