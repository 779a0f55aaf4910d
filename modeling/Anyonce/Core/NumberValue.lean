import Mathlib.Algebra.Order.Field.Power
import Mathlib.Data.Nat.Digits.Defs
import Mathlib.Data.Rat.Cast.Order
import Mathlib.Tactic.FieldSimp
import Mathlib.Tactic.Positivity
import Anyonce.Core.NumberText

/-!
# What a number denotes

`value` is the rational number a JSON number token denotes: its digits, with and without a point, times
the power of ten its exponent and its fraction leave.

A number in scientific form is a `Significand`, which neither begins nor ends with a zero, and the place of
its point.

* `value_layout` — the layout of digits denotes them, at the place of the point.
* `Significand.scaled_inj` — a number has one significand and one place of the point.
-/

namespace NumberText

open JsonText.NumberState (isDigit)

/-! ## The value of a token -/

/-- The number a list of digits denotes. -/
def natValue (ds : List ℕ) : ℕ := ds.foldl (fun acc c => 10 * acc + (c - 0x30)) 0

/-- The number an exponent denotes, after its letter. -/
def exponentValue : List ℕ → ℤ
  | 0x2D :: ds => -(natValue ds : ℤ)
  | 0x2B :: ds => natValue ds
  | ds => natValue ds

/-- The digits after a point, if there is one, and what follows them. -/
def fraction : List ℕ → List ℕ × List ℕ
  | 0x2E :: rest => (rest.takeWhile isDigit, rest.dropWhile isDigit)
  | rest => ([], rest)

/-- The exponent, if there is one. -/
def suffixValue : List ℕ → ℤ
  | 0x65 :: rest => exponentValue rest
  | 0x45 :: rest => exponentValue rest
  | _ => 0

/-- The number a token without a sign denotes. -/
def magnitudeValue (text : List ℕ) : ℚ :=
  let (frac, suffix) := fraction (text.dropWhile isDigit)
  natValue (text.takeWhile isDigit ++ frac) * 10 ^ (suffixValue suffix - frac.length)

/-- The number a token denotes. -/
def value : List ℕ → ℚ
  | 0x2D :: rest => -magnitudeValue rest
  | text => magnitudeValue text

lemma natValue_append (a b : List ℕ) : natValue (a ++ b) = natValue a * 10 ^ b.length + natValue b := by
  have hfold : ∀ (b : List ℕ) (acc : ℕ), b.foldl (fun acc c => 10 * acc + (c - 0x30)) acc
      = acc * 10 ^ b.length + natValue b := by
    intro b
    induction b with
    | nil => intro acc; simp [natValue]
    | cons c b ih =>
        intro acc
        have hnat : natValue (c :: b) = (c - 0x30) * 10 ^ b.length + natValue b := by
          rw [natValue, List.foldl_cons, ih]
          simp
        rw [List.foldl_cons, ih, hnat, List.length_cons, pow_succ]
        ring
  rw [natValue, List.foldl_append, hfold, ← natValue]

lemma natValue_cons (c : ℕ) (ds : List ℕ) :
    natValue (c :: ds) = (c - 0x30) * 10 ^ ds.length + natValue ds := by
  rw [← List.singleton_append, natValue_append]
  simp [natValue]

@[simp] lemma natValue_zeros (m : ℕ) : natValue (List.replicate m 0x30) = 0 := by
  induction m with
  | zero => rfl
  | succ m ih => rw [List.replicate_succ, natValue_cons, ih]; simp

lemma natValue_decimal (m : ℕ) : natValue (decimal m) = m := by
  have hfold : ∀ (cs : List Char) (acc : ℕ),
      (cs.map Char.toNat).foldl (fun acc c => 10 * acc + (c - 0x30)) acc
        = Nat.ofDigitChars 10 cs acc := by
    intro cs
    induction cs with
    | nil => intro acc; rfl
    | cons c cs ih =>
        intro acc
        rw [List.map_cons, List.foldl_cons, Nat.ofDigitChars_cons, ih]
        rfl
  rw [natValue, decimal, hfold]
  exact Nat.ofDigitChars_toDigits (by decide) (by decide)

lemma exponentValue_exponentText (e : ℤ) : suffixValue (exponentText e) = e := by
  rw [exponentText]
  split_ifs with h
  · show -(natValue (decimal e.natAbs) : ℤ) = e
    rw [natValue_decimal]
    omega
  · show (natValue (decimal e.natAbs) : ℤ) = e
    rw [natValue_decimal]
    omega

/-! ## The value of a layout -/

section

variable {int frac rest : List ℕ}

lemma span_digits (hint : Digits int) (hrest : ∀ c ∈ rest.head?, isDigit c = false) :
    (int ++ rest).takeWhile isDigit = int ∧ (int ++ rest).dropWhile isDigit = rest := by
  rw [List.takeWhile_append_of_pos hint, List.dropWhile_append_of_pos hint]
  cases rest with
  | nil => simp
  | cons c rest =>
      have hc : isDigit c = false := hrest c rfl
      simp [hc]

/-- A number without a point. -/
lemma magnitudeValue_integer (hint : Digits int) (e : Option ℤ) :
    magnitudeValue (int ++ (e.map exponentText).getD []) = natValue int * 10 ^ e.getD 0 := by
  cases e with
  | none =>
      obtain ⟨htake, hdrop⟩ := @span_digits int [] hint (by simp)
      simp only [Option.map_none, Option.getD_none, magnitudeValue, htake, hdrop]
      simp [fraction, suffixValue]
  | some e =>
      have hfraction : fraction (exponentText e) = ([], exponentText e) := rfl
      obtain ⟨htake, hdrop⟩ := @span_digits int (exponentText e) hint (by simp [exponentText]; rfl)
      simp only [Option.map_some, Option.getD_some, magnitudeValue, htake, hdrop, hfraction,
        exponentValue_exponentText]
      simp

/-- A number with a point. -/
lemma magnitudeValue_point (hint : Digits int) (hfrac : Digits frac) (e : Option ℤ) :
    magnitudeValue (int ++ 0x2E :: (frac ++ (e.map exponentText).getD []))
      = natValue (int ++ frac) * 10 ^ (e.getD 0 - frac.length) := by
  obtain ⟨htake, hdrop⟩ := @span_digits int (0x2E :: (frac ++ (e.map exponentText).getD [])) hint
    (by simp; rfl)
  have hstop : ∀ c ∈ ((e.map exponentText).getD []).head?, isDigit c = false := by
    cases e with
    | none => simp
    | some e => simp [exponentText]; rfl
  obtain ⟨htake', hdrop'⟩ := span_digits hfrac hstop
  have hfraction : fraction (0x2E :: (frac ++ (e.map exponentText).getD []))
      = (frac, (e.map exponentText).getD []) := by
    rw [fraction, htake', hdrop']
  have hsuffix : suffixValue ((e.map exponentText).getD []) = e.getD 0 := by
    cases e with
    | none => rfl
    | some e => exact exponentValue_exponentText e
  simp only [magnitudeValue, htake, hdrop, hfraction, hsuffix]

end

/-- **The layout of digits denotes them**, with the point at its place. -/
lemma value_layout {digits : List (Fin 10)} (hne : digits ≠ []) (n : ℤ) :
    magnitudeValue (layout digits n)
      = natValue (digits.map code) * 10 ^ (n - (digits.length : ℤ)) := by
  have hdigits := digits_codes digits
  unfold layout
  dsimp only
  split_ifs with h1 h2 h3 h4
  · -- the digits and zeros
    have hall : Digits (digits.map code ++ List.replicate (n - digits.length).toNat 0x30) := by
      intro c hc
      rcases List.mem_append.mp hc with hc | hc
      · exact hdigits c hc
      · exact digits_zeros _ c hc
    have hvalue := magnitudeValue_integer hall none
    simp only [Option.map_none, Option.getD_none, List.append_nil, zpow_zero, mul_one] at hvalue
    rw [hvalue, natValue_append, natValue_zeros, List.length_replicate]
    push_cast
    rw [add_zero, ← zpow_natCast, Int.toNat_of_nonneg (by omega)]
  · -- a point among the digits
    have htake : Digits ((digits.map code).take n.toNat) := fun c hc => hdigits c (List.mem_of_mem_take hc)
    have hdrop : Digits ((digits.map code).drop n.toNat) := fun c hc => hdigits c (List.mem_of_mem_drop hc)
    have hvalue := magnitudeValue_point htake hdrop none
    simp only [Option.map_none, Option.getD_none, List.append_nil] at hvalue
    rw [hvalue, List.take_append_drop]
    congr 2
    rw [List.length_drop, List.length_map]
    omega
  · -- zeros after the point
    have hzero : Digits [0x30] := digits_zeros 1
    have hall : Digits (List.replicate (-n).toNat 0x30 ++ digits.map code) := by
      intro c hc
      rcases List.mem_append.mp hc with hc | hc
      · exact digits_zeros _ c hc
      · exact hdigits c hc
    have hvalue := magnitudeValue_point hzero hall none
    simp only [Option.map_none, Option.getD_none, List.append_nil, List.singleton_append] at hvalue
    have hnat : natValue (0x30 :: (List.replicate (-n).toNat 0x30 ++ digits.map code))
        = natValue (digits.map code) := by
      rw [natValue_cons, natValue_append, natValue_zeros]
      simp
    rw [hvalue, hnat]
    congr 2
    rw [List.length_append, List.length_replicate, List.length_map]
    omega
  · -- one digit and an exponent
    have hvalue := magnitudeValue_integer hdigits (some (n - 1))
    simp only [Option.map_some, Option.getD_some] at hvalue
    rw [hvalue, h4, Nat.cast_one]
  · -- a point after the first digit, and an exponent
    have htake : Digits ((digits.map code).take 1) := fun c hc => hdigits c (List.mem_of_mem_take hc)
    have hdrop : Digits ((digits.map code).drop 1) := fun c hc => hdigits c (List.mem_of_mem_drop hc)
    have hvalue := magnitudeValue_point htake hdrop (some (n - 1))
    simp only [Option.map_some, Option.getD_some] at hvalue
    have hpos := List.length_pos_iff.mpr hne
    rw [List.append_assoc, List.cons_append, hvalue, List.take_append_drop]
    congr 2
    rw [List.length_drop, List.length_map]
    omega

/-! ## Scientific form -/

/-- Digits that neither begin nor end with a zero. -/
structure Significand where
  digits : List (Fin 10)
  ne_nil : digits ≠ []
  head_ne_zero : ∀ d ∈ digits.head?, d ≠ 0
  last_ne_zero : ∀ d ∈ digits.getLast?, d ≠ 0

namespace Significand

variable (s s' : Significand)

@[ext] lemma ext {s s' : Significand} (h : s.digits = s'.digits) : s = s' := by
  obtain ⟨digits, _, _, _⟩ := s
  obtain ⟨digits', _, _, _⟩ := s'
  obtain rfl : digits = digits' := h
  rfl

/-- The integer the digits denote. -/
def toNat : ℕ := natValue (s.digits.map code)

/-- The number of the digits, with the point at a place. -/
def scaled (n : ℤ) : ℚ := s.toNat * 10 ^ (n - (s.digits.length : ℤ))

/-- As Mathlib has it, the digits are those of the integer, the other way round. -/
lemma natValue_codes (ds : List (Fin 10)) :
    natValue (ds.map code) = Nat.ofDigits 10 (ds.reverse.map Fin.val) := by
  induction ds with
  | nil => rfl
  | cons d ds ih =>
      rw [List.map_cons, natValue_cons, ih, List.reverse_cons, List.map_append, Nat.ofDigits_append,
        code]
      simp [mul_comm, add_comm]

lemma digits_toNat : Nat.digits 10 s.toNat = s.digits.reverse.map Fin.val := by
  rw [toNat, natValue_codes]
  refine Nat.digits_ofDigits 10 (by decide) _ ?_ ?_
  · intro x hx
    obtain ⟨d, -, rfl⟩ := List.mem_map.mp hx
    exact d.isLt
  · intro hne
    obtain ⟨d, ds, hds⟩ := List.exists_cons_of_ne_nil s.ne_nil
    have hd : d ≠ 0 := s.head_ne_zero d (by rw [hds]; rfl)
    simp only [hds, List.reverse_cons, List.map_append, List.map_cons, List.map_nil,
      List.getLast_append_singleton]
    exact fun h => hd (Fin.ext h)

lemma toNat_inj {s s' : Significand} (h : s.toNat = s'.toNat) : s = s' := by
  have hdigits := s.digits_toNat
  rw [h, s'.digits_toNat] at hdigits
  have hval : Function.Injective (Fin.val : Fin 10 → ℕ) := Fin.val_injective
  exact ext (List.reverse_injective (List.map_injective_iff.mpr hval hdigits)).symm

lemma not_dvd : ¬ 10 ∣ s.toNat := by
  obtain ⟨ds, d, hds⟩ : ∃ ds d, s.digits = ds ++ [d] :=
    ⟨_, _, (List.dropLast_append_getLast s.ne_nil).symm⟩
  have hlast : d ≠ 0 := s.last_ne_zero d (by simp [hds])
  have hnat : s.toNat = natValue (ds.map code) * 10 + d.val := by
    rw [toNat, hds, List.map_append, natValue_append]
    simp [natValue, code]
  have hlt := d.isLt
  have hpos : d.val ≠ 0 := fun h => hlast (Fin.ext h)
  omega

lemma toNat_pos : 0 < s.toNat := by
  refine Nat.pos_of_ne_zero fun h => s.not_dvd ?_
  rw [h]
  exact dvd_zero 10

lemma scaled_pos (n : ℤ) : 0 < s.scaled n := by
  have hpos : (0 : ℚ) < s.toNat := by exact_mod_cast s.toNat_pos
  exact mul_pos hpos (zpow_pos (by norm_num) _)

/-- Of two places of the last digit of one number, neither is the lower one. -/
lemma place_le {m m' : ℕ} {a a' : ℤ} (hm : ¬ 10 ∣ m)
    (h : (m : ℚ) * 10 ^ a = m' * 10 ^ a') : a' ≤ a := by
  by_contra hlt
  obtain ⟨j, rfl⟩ : ∃ j : ℕ, a' = a + (j + 1) := ⟨(a' - a - 1).toNat, by omega⟩
  have hne : (10 : ℚ) ^ a ≠ 0 := zpow_ne_zero a (by norm_num)
  have hscaled : (m : ℚ) * 10 ^ a = (m' * 10 ^ (j + 1) : ℕ) * 10 ^ a := by
    rw [h, zpow_add₀ (by norm_num : (10 : ℚ) ≠ 0)]
    push_cast
    rw [show ((j : ℤ) + 1) = ((j + 1 : ℕ) : ℤ) by push_cast; rfl, zpow_natCast]
    ring
  have hmul : m = m' * 10 ^ (j + 1) := by exact_mod_cast mul_right_cancel₀ hne hscaled
  exact hm ⟨m' * 10 ^ j, by rw [hmul, pow_succ]; ring⟩

/-- **A number has one scientific form.** -/
lemma scaled_inj {s s' : Significand} {n n' : ℤ} (h : s.scaled n = s'.scaled n') : s = s' ∧ n = n' := by
  have hplace : n - (s.digits.length : ℤ) = n' - (s'.digits.length : ℤ) :=
    le_antisymm (place_le s'.not_dvd h.symm) (place_le s.not_dvd h)
  have hne : (10 : ℚ) ^ (n - (s.digits.length : ℤ)) ≠ 0 := zpow_ne_zero _ (by norm_num)
  rw [scaled, scaled, ← hplace] at h
  have hnat : s.toNat = s'.toNat := by exact_mod_cast mul_right_cancel₀ hne h
  obtain rfl := toNat_inj hnat
  exact ⟨rfl, by omega⟩

end Significand

end NumberText
