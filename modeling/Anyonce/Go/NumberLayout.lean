import Anyonce.Core.NumberValue
import Anyonce.Go.Jcs

/-!
# The layout of numbers in Go

`es6Number` of `go/anyonce/jcs.go` with the panics of its slices and repeats.  It is given what
`FormatFloat` makes of the sign, the digits and the exponent of a double that is not zero.

* `NumberToString` — the layout of ECMA-262, range by range.
* `es6_layout_exact` — the layout is always that one, a JSON number, and denotes what was given.
-/

namespace Anyonce.Go

open NumberText JsonText

/-! ## The code with its panics -/

/-- `s[:i]`; `none` is a panic. -/
def sliceTo (s : List ℕ) (i : ℤ) : Option (List ℕ) :=
  if 0 ≤ i ∧ i ≤ s.length then some (s.take i.toNat) else none

/-- `s[i:]`; `none` is a panic. -/
def sliceFrom (s : List ℕ) (i : ℤ) : Option (List ℕ) :=
  if 0 ≤ i ∧ i ≤ s.length then some (s.drop i.toNat) else none

/-- `strings.Repeat("0", count)`; `none` is a panic. -/
def repeatZero (count : ℤ) : Option (List ℕ) :=
  if count < 0 then none else some (List.replicate count.toNat 0x30)

/-- The body of `es6Number` from the call of `FormatFloat` on; `none` is a panic. -/
def es6Layout (neg : Bool) (text : List ℕ) : Option (List ℕ) := do
  let mant := text.takeWhile fun c => c ≠ 0x65
  let expStr := (text.dropWhile fun c => c ≠ 0x65).drop 1
  let exp := atoi expStr
  let digits := mant.erase 0x2E
  let k : ℤ := digits.length
  let n := exp + 1
  let out ←
    if k ≤ n ∧ n ≤ 21 then do
      let zeros ← repeatZero (n - k)
      pure (digits ++ zeros)
    else if 0 < n ∧ n ≤ 21 then do
      let before ← sliceTo digits n
      let after ← sliceFrom digits n
      pure (before ++ 0x2E :: after)
    else if -6 < n ∧ n ≤ 0 then do
      let zeros ← repeatZero (-n)
      pure (0x30 :: 0x2E :: (zeros ++ digits))
    else do
      let e := n - 1
      let sign := if e < 0 then 0x2D else 0x2B
      if k = 1 then pure (digits ++ 0x65 :: sign :: decimal e.natAbs)
      else do
        let first ← sliceTo digits 1
        let others ← sliceFrom digits 1
        pure (first ++ 0x2E :: others ++ 0x65 :: sign :: decimal e.natAbs)
  pure (if neg then 0x2D :: out else out)

lemma sliceTo_of_le {s : List ℕ} {i : ℤ} (h : 0 ≤ i ∧ i ≤ s.length) :
    sliceTo s i = some (s.take i.toNat) := if_pos h

lemma sliceFrom_of_le {s : List ℕ} {i : ℤ} (h : 0 ≤ i ∧ i ≤ s.length) :
    sliceFrom s i = some (s.drop i.toNat) := if_pos h

lemma repeatZero_of_nonneg {count : ℤ} (h : 0 ≤ count) :
    repeatZero count = some (List.replicate count.toNat 0x30) := if_neg (not_lt.mpr h)

/-- **Nothing is ever out of range**, as long as there is a digit. -/
lemma es6Layout_eq (neg : Bool) {text : List ℕ}
    (hdigits : (text.takeWhile fun c => c ≠ 0x65).erase 0x2E ≠ []) :
    es6Layout neg text = some (if neg then 0x2D :: es6Magnitude text else es6Magnitude text) := by
  have hpos := List.length_pos_iff.mpr hdigits
  unfold es6Layout es6Magnitude
  dsimp only
  set digits := (text.takeWhile fun c => c ≠ 0x65).erase 0x2E
  set n := atoi ((text.dropWhile fun c => c ≠ 0x65).drop 1) + 1
  by_cases h1 : (digits.length : ℤ) ≤ n ∧ n ≤ 21
  · rw [if_pos h1, if_pos h1, repeatZero_of_nonneg (by omega)]
    rfl
  rw [if_neg h1, if_neg h1]
  by_cases h2 : 0 < n ∧ n ≤ 21
  · rw [if_pos h2, if_pos h2, sliceTo_of_le (by omega), sliceFrom_of_le (by omega)]
    rfl
  rw [if_neg h2, if_neg h2]
  by_cases h3 : -6 < n ∧ n ≤ 0
  · rw [if_pos h3, if_pos h3, repeatZero_of_nonneg (by omega)]
    rfl
  rw [if_neg h3, if_neg h3]
  by_cases h4 : (digits.length : ℤ) = 1
  · rw [if_pos h4, if_pos h4]
    rfl
  · rw [if_neg h4, if_neg h4, sliceTo_of_le (by omega), sliceFrom_of_le (by omega)]
    rfl

/-! ## The layout of ECMA-262 -/

/-- The text of a positive number in `Number::toString`, from its `k` digits and the place `n` of the
point. -/
structure NumberToString (digits : List (Fin 10)) (n : ℤ) (text : List ℕ) : Prop where
  integer : (digits.length : ℤ) ≤ n → n ≤ 21 →
    text = digits.map code ++ List.replicate (n - digits.length).toNat 0x30
  inside : ∀ before after, digits = before ++ after → after ≠ [] → before.length = n → 0 < n → n ≤ 21 →
    text = before.map code ++ 0x2E :: after.map code
  below : -6 < n → n ≤ 0 →
    text = 0x30 :: 0x2E :: (List.replicate (-n).toNat 0x30 ++ digits.map code)
  single : n ≤ -6 ∨ 21 < n → ∀ d, digits = [d] → text = code d :: exponentText (n - 1)
  several : n ≤ -6 ∨ 21 < n → ∀ d rest, digits = d :: rest → rest ≠ [] →
    text = code d :: 0x2E :: (rest.map code ++ exponentText (n - 1))

lemma numberToString_layout {digits : List (Fin 10)} (hne : digits ≠ []) (n : ℤ) :
    NumberToString digits n (layout digits n) := by
  have hpos := List.length_pos_iff.mpr hne
  constructor
  · intro hlow hhigh
    rw [layout, if_pos ⟨hlow, hhigh⟩]
  · rintro before after rfl hafter hn hlow hhigh
    have hlen := List.length_pos_iff.mpr hafter
    rw [List.length_append] at hpos
    have hlong : ¬ (((before ++ after).length : ℤ) ≤ n ∧ n ≤ 21) := by
      rw [List.length_append]
      omega
    have htake : n.toNat = (before.map code).length := by
      rw [List.length_map]
      omega
    rw [layout, if_neg hlong, if_pos ⟨hlow, hhigh⟩, List.map_append, htake, List.take_left,
      List.drop_left]
  · intro hlow hhigh
    rw [layout, if_neg (by omega), if_neg (by omega), if_pos ⟨hlow, hhigh⟩]
  · rintro hn d rfl
    rw [layout, if_neg (by rw [List.length_singleton]; omega), if_neg (by omega), if_neg (by omega),
      if_pos (List.length_singleton)]
    rfl
  · rintro hn d rest rfl hrest
    have hlen := List.length_pos_iff.mpr hrest
    have hlong : ¬ (d :: rest).length = 1 := by
      rw [List.length_cons]
      omega
    rw [layout, if_neg (by rw [List.length_cons]; omega), if_neg (by omega), if_neg (by omega),
      if_neg hlong]
    simp

/-- The sign of a text is taken off by its value. -/
lemma value_signed (neg : Bool) (s : Significand) (n : ℤ) :
    value (if neg then 0x2D :: layout s.digits n else layout s.digits n)
      = (if neg then -1 else 1) * s.scaled n := by
  have hvalue : magnitudeValue (layout s.digits n) = s.scaled n := value_layout s.ne_nil n
  cases neg with
  | true => rw [if_pos rfl, if_pos rfl, value, hvalue, neg_one_mul]
  | false =>
      have hhead : ∀ rest, layout s.digits n ≠ 0x2D :: rest := by
        intro rest heq
        obtain ⟨d, ds, hds⟩ := List.exists_cons_of_ne_nil s.ne_nil
        have hcode : code d ≠ 0x2D := by
          have hd := d.isLt
          simp only [code]
          omega
        rw [hds, layout] at heq
        split_ifs at heq with h1 h2 h3 h4
        · exact hcode (List.cons.inj heq).1
        · obtain ⟨m, hm⟩ : ∃ m, n.toNat = m + 1 := ⟨n.toNat - 1, by omega⟩
          rw [hm] at heq
          exact hcode (List.cons.inj heq).1
        · cases heq
        · exact hcode (List.cons.inj heq).1
        · exact hcode (List.cons.inj heq).1
      rw [if_neg (by decide), if_neg (by decide), one_mul, value]
      · exact hvalue
      · exact hhead

/-- **Go lays numbers out exactly.**  From the shortest digits of a double, the place of the point and the
sign, without a slice or a repeat out of range, `es6Number` writes the text of ECMA-262: a JSON number that
denotes them, and that no other digits, place or sign have. -/
theorem es6_layout_exact (neg : Bool) (s : Significand) (n : ℤ) :
    ∃ text, es6Layout neg (formatFloat s.digits n) = some text
      ∧ IsNumber text
      ∧ value text = (if neg then -1 else 1) * (s.toNat * 10 ^ (n - (s.digits.length : ℤ)))
      ∧ (∃ magnitude, NumberToString s.digits n magnitude
        ∧ text = if neg then 0x2D :: magnitude else magnitude)
      ∧ (∀ neg' s' n', es6Layout neg' (formatFloat (Significand.digits s') n') = some text →
        neg' = neg ∧ s' = s ∧ n' = n)
      ∧ ∀ {F : Type} (d : Doubles F) (f : F), d.isZero f = false → d.signbit f = neg →
        d.digits f = s.digits → d.exponent f = n →
          es6Number d (.Finite f) = .ok (text.map UInt8.ofNat) := by
  have hlayout : ∀ (neg : Bool) (s : Significand) (n : ℤ), es6Layout neg (formatFloat s.digits n)
      = some (if neg then 0x2D :: layout s.digits n else layout s.digits n) := by
    intro neg s n
    obtain ⟨d, ds, hds⟩ := List.exists_cons_of_ne_nil s.ne_nil
    rw [hds, es6Layout_eq neg (by rw [(formatFloat_cut d ds n).1]; simp), es6Magnitude_formatFloat]
  refine ⟨_, hlayout neg s n, ?_, value_signed neg s n, ⟨_, numberToString_layout s.ne_nil n, rfl⟩, ?_, ?_⟩
  · obtain ⟨d, ds, hds⟩ := List.exists_cons_of_ne_nil s.ne_nil
    rw [hds]
    exact isNumber_layout neg (s.head_ne_zero d (by rw [hds]; rfl)) ds n
  · intro neg' s' n' htext
    have hvalue := congrArg value (Option.some.inj ((hlayout neg' s' n').symm.trans htext))
    rw [value_signed, value_signed] at hvalue
    have hpos := s.scaled_pos n
    have hpos' := s'.scaled_pos n'
    obtain rfl : neg' = neg := by
      cases neg' <;> cases neg <;> simp at hvalue ⊢ <;> linarith
    have hscaled : s'.scaled n' = s.scaled n := by
      refine mul_left_cancel₀ ?_ hvalue
      split_ifs <;> norm_num
    obtain ⟨hs, hn⟩ := Significand.scaled_inj hscaled
    exact ⟨rfl, hs, hn⟩
  · rintro F d f hzero rfl hdigits rfl
    have hz : ¬ d.isZero f = true := by simp [hzero]
    rw [es6Number_finite, Runtime.toText, if_neg hz, Runtime.signed, Runtime.magnitude, if_neg hz, hdigits]

/-- The smallest double, the largest integer that is written out, and the next power of ten. -/
example : es6Layout false (formatFloat [5] (-323)) = some ("5e-324".toList.map Char.toNat)
    ∧ es6Layout true (formatFloat [1] 21) = some ("-100000000000000000000".toList.map Char.toNat)
    ∧ es6Layout false (formatFloat [1] 22) = some ("1e+21".toList.map Char.toNat) := by decide

end Anyonce.Go
