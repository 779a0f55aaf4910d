import Mathlib.Data.Bool.AllAny
import Anyonce.Core.Decimal

/-!
# Base64

`btoa` and `atob` on bytes.  `btoa` writes each three bytes as four characters of the alphabet and
pads the last group; `atob` is the forgiving decoder of the web platform: it skips ASCII whitespace,
drops the padding, and ignores the bits of a last group that make no byte.

In between stand the six-bit values: `sextets` cuts bytes into them and `octets` puts them together
again.

* `atob_btoa` — the round trip.
* `length_btoa` — an encoded text has a multiple of four characters.
-/

namespace Ecma

/-- The characters of the 64 values. -/
def alphabet : List UInt16 :=
  units "ABCDEFGHIJKLMNOPQRSTUVWXYZabcdefghijklmnopqrstuvwxyz0123456789+/"

/-- The padding character. -/
def pad : UInt16 := 0x3D

/-- The character of six bits. -/
def charOfSextet (v : ℕ) : UInt16 := alphabet.getD v pad

/-- The six bits of a character. -/
def sextetOfChar (u : UInt16) : Option ℕ := alphabet.idxOf? u

/-- Bytes as six-bit values; a last group of one or two bytes is filled up with zero bits. -/
def sextets : List UInt8 → List ℕ
  | a :: b :: c :: rest =>
      a.toNat / 4 :: (a.toNat % 4 * 16 + b.toNat / 16) :: (b.toNat % 16 * 4 + c.toNat / 64)
        :: c.toNat % 64 :: sextets rest
  | [a, b] => [a.toNat / 4, a.toNat % 4 * 16 + b.toNat / 16, b.toNat % 16 * 4]
  | [a] => [a.toNat / 4, a.toNat % 4 * 16]
  | [] => []

/-- Six-bit values as bytes; bits that are left over make no byte. -/
def octets : List ℕ → List UInt8
  | p :: q :: r :: s :: rest =>
      UInt8.ofNat (p * 4 + q / 16) :: UInt8.ofNat (q % 16 * 16 + r / 4)
        :: UInt8.ofNat (r % 4 * 64 + s) :: octets rest
  | [p, q, r] => [UInt8.ofNat (p * 4 + q / 16), UInt8.ofNat (q % 16 * 16 + r / 4)]
  | [p, q] => [UInt8.ofNat (p * 4 + q / 16)]
  | [_] => []
  | [] => []

/-- The base64 text of some bytes, padded. -/
def btoa (bytes : List UInt8) : List UInt16 :=
  (sextets bytes).map charOfSextet ++ List.replicate ((3 - bytes.length % 3) % 3) pad

def isAsciiWhitespace (u : UInt16) : Bool :=
  u = 0x09 || u = 0x0A || u = 0x0C || u = 0x0D || u = 0x20

/-- A text without the one or two padding characters it ends with. -/
def stripPadding (text : List UInt16) : List UInt16 :=
  match text.reverse with
  | u :: v :: rest =>
      if u = pad then if v = pad then rest.reverse else (v :: rest).reverse else text
  | _ => text

/-- The forgiving decoder; `none` where it throws. -/
def atob (text : List UInt16) : Option (List UInt8) :=
  let data := text.filter fun u => !isAsciiWhitespace u
  let data := if data.length % 4 = 0 then stripPadding data else data
  if data.length % 4 = 1 then none
  else (data.mapM sextetOfChar).map octets

/-! ## The round trip -/

lemma sextets_lt (bytes : List UInt8) : ∀ v ∈ sextets bytes, v < 64 := by
  have hbyte : ∀ a : UInt8, a.toNat < 256 := UInt8.toNat_lt
  induction bytes using sextets.induct with
  | case1 a b c rest ih =>
      have ha := hbyte a
      have hb := hbyte b
      have hc := hbyte c
      intro v hv
      simp only [sextets, List.mem_cons] at hv
      rcases hv with rfl | rfl | rfl | rfl | hv
      · omega
      · omega
      · omega
      · omega
      · exact ih v hv
  | case2 a b =>
      have ha := hbyte a
      have hb := hbyte b
      intro v hv
      simp only [sextets, List.mem_cons, List.not_mem_nil, or_false] at hv
      omega
  | case3 a =>
      have ha := hbyte a
      intro v hv
      simp only [sextets, List.mem_cons, List.not_mem_nil, or_false] at hv
      omega
  | case4 => simp [sextets]

lemma ofNat_eq_of_toNat {n : ℕ} {a : UInt8} (h : n = a.toNat) : UInt8.ofNat n = a := by
  rw [h, UInt8.ofNat_toNat]

/-- The bytes are put together again. -/
lemma octets_sextets (bytes : List UInt8) : octets (sextets bytes) = bytes := by
  have hbyte : ∀ a : UInt8, a.toNat < 256 := UInt8.toNat_lt
  induction bytes using sextets.induct with
  | case1 a b c rest ih =>
      have ha := hbyte a
      have hb := hbyte b
      have hc := hbyte c
      rw [sextets, octets, ih, ofNat_eq_of_toNat (a := a) (by omega),
        ofNat_eq_of_toNat (a := b) (by omega), ofNat_eq_of_toNat (a := c) (by omega)]
  | case2 a b =>
      have ha := hbyte a
      have hb := hbyte b
      rw [sextets, octets, ofNat_eq_of_toNat (a := a) (by omega),
        ofNat_eq_of_toNat (a := b) (by omega)]
  | case3 a =>
      have ha := hbyte a
      rw [sextets, octets, ofNat_eq_of_toNat (a := a) (by omega)]
  | case4 => rfl

lemma length_sextets (bytes : List UInt8) :
    (sextets bytes).length + (3 - bytes.length % 3) % 3 = 4 * ((bytes.length + 2) / 3) := by
  induction bytes using sextets.induct with
  | case1 a b c rest ih =>
      simp only [sextets, List.length_cons]
      omega
  | case2 a b => simp [sextets]
  | case3 a => simp [sextets]
  | case4 => rfl

/-- An encoded text has four characters for each group of bytes. -/
lemma length_btoa (bytes : List UInt8) : (btoa bytes).length = 4 * ((bytes.length + 2) / 3) := by
  rw [btoa, List.length_append, List.length_map, List.length_replicate, length_sextets]

/-- The characters of the alphabet: read back, and neither padding nor whitespace. -/
lemma charOfSextet_spec : ∀ v < 64, sextetOfChar (charOfSextet v) = some v
    ∧ charOfSextet v ≠ pad ∧ isAsciiWhitespace (charOfSextet v) = false := by
  decide +kernel

/-- An encoded text is visible. -/
lemma btoa_units (bytes : List UInt8) : ∀ u ∈ btoa bytes, 0x2B ≤ u ∧ u ≤ 0x7A := by
  have hchar : ∀ u ∈ alphabet, (0x2B : UInt16) ≤ u ∧ u ≤ 0x7A :=
    List.all_iff_forall_prop.mp (by decide +kernel)
  intro u hu
  rcases List.mem_append.mp hu with hu | hu
  · obtain ⟨v, -, rfl⟩ := List.mem_map.mp hu
    rw [charOfSextet, List.getD_eq_getElem?_getD]
    cases hget : alphabet[v]? with
    | none => decide
    | some u => exact hchar u (List.mem_of_getElem? hget)
  · rw [List.eq_of_mem_replicate hu]
    decide

lemma mapM_sextetOfChar {vs : List ℕ} (h : ∀ v ∈ vs, v < 64) :
    (vs.map charOfSextet).mapM sextetOfChar = some vs := by
  induction vs with
  | nil => rfl
  | cons v rest ih =>
      rw [List.map_cons, List.mapM_cons, (charOfSextet_spec v (h v List.mem_cons_self)).1,
        ih fun v' hv' => h v' (List.mem_cons_of_mem _ hv')]
      rfl

/-- The padding is dropped again: it is at most two characters, and none stands before it. -/
lemma stripPadding_append {data : List UInt16} (hdata : ∀ u ∈ data, u ≠ pad) {n : ℕ} (hn : n ≤ 2)
    (hne : data ≠ [] ∨ n = 0) : stripPadding (data ++ List.replicate n pad) = data := by
  obtain ⟨us, rfl⟩ : ∃ us, data = us.reverse := ⟨data.reverse, (List.reverse_reverse data).symm⟩
  have hus : ∀ u ∈ us, u ≠ pad := fun u hu => hdata u (List.mem_reverse.mpr hu)
  rw [stripPadding, List.reverse_append, List.reverse_replicate, List.reverse_reverse]
  match n, hn with
  | 0, _ =>
      cases us with
      | nil => rfl
      | cons u rest =>
          cases rest with
          | nil => rfl
          | cons v rest => simp [hus u (by simp)]
  | 1, _ =>
      cases us with
      | nil => simp at hne
      | cons u rest => simp [List.replicate, hus u (by simp)]
  | 2, _ => simp [List.replicate]

/-- **What `btoa` writes, `atob` reads.** -/
theorem atob_btoa (bytes : List UInt8) : atob (btoa bytes) = some bytes := by
  have hlt := sextets_lt bytes
  have hchars : ∀ u ∈ (sextets bytes).map charOfSextet, u ≠ pad ∧ isAsciiWhitespace u = false := by
    intro u hu
    obtain ⟨v, hv, rfl⟩ := List.mem_map.mp hu
    exact (charOfSextet_spec v (hlt v hv)).2
  have hfilter : (btoa bytes).filter (fun u => !isAsciiWhitespace u) = btoa bytes := by
    refine List.filter_eq_self.mpr fun u hu => ?_
    rcases List.mem_append.mp hu with hu | hu
    · simp [(hchars u hu).2]
    · rw [List.eq_of_mem_replicate hu]
      decide
  have hlength := length_sextets bytes
  have hdata : stripPadding (btoa bytes) = (sextets bytes).map charOfSextet := by
    refine stripPadding_append (fun u hu => (hchars u hu).1) (by omega) ?_
    cases bytes with
    | nil => exact Or.inr rfl
    | cons a rest =>
        refine Or.inl fun hnil => ?_
        rw [List.map_eq_nil_iff.mp hnil, List.length_nil, List.length_cons] at hlength
        omega
  have hmod : ((sextets bytes).map charOfSextet).length % 4 ≠ 1 := by
    rw [List.length_map]
    omega
  simp only [atob, hfilter, length_btoa, Nat.mul_mod_right, if_true, hdata, if_neg hmod,
    mapM_sextetOfChar hlt, Option.map_some, octets_sextets]

end Ecma
