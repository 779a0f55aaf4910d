import Anyonce.Core.FloatText
import Anyonce.Go.StandardWebhooks
import Anyonce.Webhook.SignedContent

/-!
# Doubles and clocks

Both verifiers read a timestamp as a double and cut it to a whole number.  TypeScript goes on with doubles, in
milliseconds; Go goes on with integers, in nanoseconds.  `Binary64` is what is asked of the doubles: whole
numbers up to 2⁵³ in magnitude are exact, and what is beyond stays beyond.

* `Binary64.outsideTolerance_iff`, `outsideTolerance_iff` — the two comparisons with the clock are one: for a
  clock that reads a time value of ECMA-262 and a tolerance in whole seconds, the timestamp is as far from the
  clock as the tolerance allows.
* `wholeDoubles` — the whole numbers, as such doubles.
-/

namespace Anyonce.StandardWebhooks

open NumberText Ecma

/-- Up to here every whole number is a double. -/
def maxSafe : ℕ := 2 ^ 53

section

variable {F : Type}

/-- The result of an operation on whole doubles whose exact value is `z`. -/
def Rounds (trunc : F → F) (truncate : F → ℤ) (z : ℤ) : Number F → Prop
  | .Finite f => trunc f = f ∧ (z.natAbs ≤ maxSafe → truncate f = z)
      ∧ (maxSafe < z.natAbs → maxSafe ≤ (truncate f).natAbs ∧ (0 ≤ truncate f ↔ 0 ≤ z))
  | .Infinite negative => maxSafe < z.natAbs ∧ negative = decide (z < 0)
  | .NaN => False

/-- A result is exact, or it is beyond the safe whole numbers on its side, or it is infinite. -/
lemma Rounds.cases {trunc : F → F} {truncate : F → ℤ} {z : ℤ} {x : Number F} (h : Rounds trunc truncate z x) :
    (∃ f, x = .Finite f ∧ trunc f = f
        ∧ (z.natAbs ≤ maxSafe ∧ truncate f = z
          ∨ maxSafe < z.natAbs ∧ maxSafe ≤ (truncate f).natAbs ∧ (0 ≤ truncate f ↔ 0 ≤ z)))
      ∨ ∃ negative, x = .Infinite negative ∧ maxSafe < z.natAbs := by
  cases x with
  | Finite f =>
      refine Or.inl ⟨f, rfl, h.1, ?_⟩
      rcases Nat.lt_or_ge maxSafe z.natAbs with hbig | hsmall
      · exact Or.inr ⟨hbig, h.2.2 hbig⟩
      · exact Or.inl ⟨hsmall, h.2.1 hsmall⟩
  | Infinite negative => exact Or.inr ⟨negative, rfl, h.1⟩
  | NaN => exact h.elim

lemma Rounds.safe {trunc : F → F} {truncate : F → ℤ} {z : ℤ} {x : Number F} (h : Rounds trunc truncate z x)
    (hz : z.natAbs ≤ maxSafe) : ∃ f, x = .Finite f ∧ trunc f = f ∧ truncate f = z := by
  rcases h.cases with ⟨f, rfl, hwhole, ⟨-, hexact⟩ | ⟨hbig, -⟩⟩ | ⟨negative, -, hbig⟩
  · exact ⟨f, rfl, hwhole, hexact⟩
  · exact absurd hz (not_le.mpr hbig)
  · exact absurd hz (not_le.mpr hbig)

end

/-- The doubles of both languages: `nearest` is the double nearest to what a numeral denotes, `truncate` the
integer a double is cut to, `ofInt` the double of an integer that has one. -/
structure Binary64 (F : Type) extends Numbers F where
  nearest : Numeral → Number F
  truncate : F → ℤ
  ofInt : ℤ → F
  ofText_eq : ∀ text, ofText text = stringNumeric nearest (text.map UInt16.toNat)
  trunc_trunc : ∀ f, trunc (trunc f) = trunc f
  truncate_trunc : ∀ f, truncate (trunc f) = truncate f
  ofInt_whole : ∀ z, z.natAbs ≤ maxSafe → trunc (ofInt z) = ofInt z ∧ truncate (ofInt z) = z
  ofNat_eq : ∀ m, m ≤ maxSafe → ofNat m = .Finite (ofInt m)
  sub_whole : ∀ f g, trunc f = f → trunc g = g →
    Rounds trunc truncate (truncate f - truncate g) (sub (.Finite f) (.Finite g))
  mul_whole : ∀ f g, trunc f = f → trunc g = g →
    Rounds trunc truncate (truncate f * truncate g) (mul (.Finite f) (.Finite g))
  abs_whole : ∀ f, trunc f = f → ∃ g, abs (.Finite f) = .Finite g ∧ trunc g = g
    ∧ truncate g = (truncate f).natAbs
  greater_whole : ∀ f g, trunc f = f → trunc g = g →
    greater (.Finite f) (.Finite g) = decide (truncate g < truncate f)
  sub_infinite : ∀ f negative, sub (.Finite f) (.Infinite negative) = .Infinite !negative
  abs_infinite : ∀ negative, abs (.Infinite negative) = .Infinite false
  greater_infinite : ∀ f, greater (.Infinite false) (.Finite f) = true
  text_whole : ∀ f, trunc f = f → (truncate f).natAbs ≤ maxSafe →
    toNumbers.text f = intText (truncate f)

/-- The same doubles in Go. -/
def Binary64.floats {F : Type} (b : Binary64 F) : Go.StandardWebhooks.Floats F where
  parseFloat text := parseFloat b.nearest (text.map UInt8.toNat)
  truncate := b.truncate

/-! ## Clocks and tolerances -/

/-- A time value of ECMA-262: milliseconds, within a hundred million days of the epoch. -/
structure TimeValue where
  ms : ℤ
  range : ms.natAbs ≤ 8640000000000000

/-- A number of seconds that is a duration. -/
structure WholeSeconds where
  seconds : ℤ
  range : seconds.natAbs * 1000000000 < 2 ^ 63

/-- The tolerance that is configured, or 300 s. -/
def toleranceOf (tolerance : Option WholeSeconds) : ℤ := tolerance.elim 300 WholeSeconds.seconds

/-- A timestamp that is no further from the clock than the tolerance. -/
def Fresh (now : TimeValue) (tolerance : Option WholeSeconds) (seconds : ℤ) : Prop :=
  ((now.ms - seconds * 1000).natAbs : ℤ) ≤ toleranceOf tolerance * 1000

instance (now : TimeValue) (tolerance : Option WholeSeconds) (seconds : ℤ) :
    Decidable (Fresh now tolerance seconds) :=
  inferInstanceAs (Decidable (((now.ms - seconds * 1000).natAbs : ℤ) ≤ toleranceOf tolerance * 1000))

lemma toleranceOf_range (tolerance : Option WholeSeconds) : (toleranceOf tolerance).natAbs ≤ 9223372036 := by
  cases tolerance with
  | none => decide
  | some t =>
      have hrange := t.range
      simp only [toleranceOf, Option.elim_some]
      omega

section

variable {F : Type} (b : Binary64 F) (now : TimeValue) (tolerance : Option WholeSeconds)

/-- The tolerance in milliseconds. -/
lemma Binary64.tolerance_eq :
    ∃ t, b.mul ((tolerance.map fun t => .Finite (b.ofInt t.seconds)).getD (b.ofNat defaultToleranceSeconds))
        (b.ofNat 1000) = .Finite t
      ∧ b.trunc t = t ∧ b.truncate t = toleranceOf tolerance * 1000 := by
  have hrange := toleranceOf_range tolerance
  have hsafe : (toleranceOf tolerance).natAbs ≤ maxSafe := hrange.trans (by decide)
  have hseconds : (tolerance.map fun t => .Finite (b.ofInt t.seconds)).getD (b.ofNat defaultToleranceSeconds)
      = .Finite (b.ofInt (toleranceOf tolerance)) := by
    cases tolerance with
    | none => exact b.ofNat_eq 300 (by decide)
    | some t => rfl
  obtain ⟨hwhole, hvalue⟩ := b.ofInt_whole _ hsafe
  obtain ⟨hthousand, hthousandValue⟩ := b.ofInt_whole 1000 (by decide)
  have hrounds := b.mul_whole _ _ hwhole hthousand
  rw [hvalue, hthousandValue] at hrounds
  have hnat : b.ofNat 1000 = .Finite (b.ofInt 1000) := b.ofNat_eq 1000 (by decide)
  rw [hseconds, hnat]
  refine hrounds.safe ?_
  rw [maxSafe]
  omega

/-- **The comparison in TypeScript.** -/
lemma Binary64.outsideTolerance_iff {v : Verifier F} {t : F} (hv : v.tolerance = .Finite t)
    (hwhole : b.trunc t = t) (ht : b.truncate t = toleranceOf tolerance * 1000) (f : F) :
    v.outsideTolerance b.toNumbers (.Finite (b.ofInt now.ms)) f = false
      ↔ Fresh now tolerance (b.truncate f) := by
  have hrange := toleranceOf_range tolerance
  have hnow := now.range
  obtain ⟨hnowWhole, hnowValue⟩ := b.ofInt_whole now.ms (hnow.trans (by decide))
  obtain ⟨hthousand, hthousandValue⟩ := b.ofInt_whole 1000 (by decide)
  have hnat : b.ofNat 1000 = .Finite (b.ofInt 1000) := b.ofNat_eq 1000 (by decide)
  have hproduct := b.mul_whole _ _ (b.trunc_trunc f) hthousand
  rw [b.truncate_trunc, hthousandValue] at hproduct
  simp only [Verifier.outsideTolerance, hv, hnat, Fresh]
  generalize b.truncate f = k at hproduct ⊢
  rcases hproduct.cases with ⟨g, hg, hgWhole, hgValue⟩ | ⟨negative, hg, hbig⟩
  · have hdifference := b.sub_whole _ _ hnowWhole hgWhole
    rw [hnowValue] at hdifference
    rw [hg]
    rcases hdifference.cases with ⟨h, hh, hhWhole, hhValue⟩ | ⟨negative, hh, hbig⟩
    · obtain ⟨a, ha, haWhole, haValue⟩ := b.abs_whole h hhWhole
      rw [hh, ha, b.greater_whole a t haWhole hwhole, haValue, ht, decide_eq_false_iff_not]
      simp only [maxSafe] at hgValue hhValue
      omega
    · rw [hh, b.abs_infinite, b.greater_infinite]
      simp only [maxSafe] at hgValue hbig
      constructor
      · intro h
        cases h
      · omega
  · rw [hg, b.sub_infinite, b.abs_infinite, b.greater_infinite]
    simp only [maxSafe] at hbig
    constructor
    · intro h
      cases h
    · omega

end

/-- **The comparison in Go.** -/
lemma outsideTolerance_iff (now : TimeValue) (tolerance : Option WholeSeconds)
    {v : Go.StandardWebhooks.Verifier} (hv : v.tolerance = toleranceOf tolerance * 1000000000) (seconds : ℤ) :
    v.outsideTolerance (now.ms * 1000000) seconds = false ↔ Fresh now tolerance seconds := by
  have hrange := toleranceOf_range tolerance
  have hnow := now.range
  simp only [Go.StandardWebhooks.Verifier.outsideTolerance, Bool.or_eq_false_iff, decide_eq_false_iff_not]
  simp only [Go.StandardWebhooks.timeSub, Go.StandardWebhooks.negDuration,
    Go.StandardWebhooks.maxTimestampSeconds, Go.StandardWebhooks.maxDuration,
    Go.StandardWebhooks.minDuration, hv, Fresh]
  generalize toleranceOf tolerance = t at hrange ⊢
  split_ifs <;> omega

/-! ## Whole numbers as doubles -/

/-- What a numeral denotes, cut to a whole number. -/
def wholePart (m : Numeral) : ℤ :=
  let n : ℕ := if 0 ≤ m.exponent then m.mantissa * m.base ^ m.exponent.toNat
    else m.mantissa / m.base ^ (-m.exponent).toNat
  if m.negative then -(n : ℤ) else n

/-- The digits of a whole number, with the zeros at its end filled in. -/
lemma layout_natText {m : ℕ} (hm : m ≤ maxSafe) :
    (layout (wholeNumbers.digits m) (wholeNumbers.exponent m)).map UInt16.ofNat = natText m := by
  have hlength : (natText m).length ≤ 16 := by
    rw [natText, List.length_map, Nat.length_toDigits_le_iff (by decide) (by decide)]
    exact lt_of_le_of_lt hm (by decide)
  have hsplit : (natText m).rdropWhile (· = 0x30) ++ (natText m).rtakeWhile (· = 0x30) = natText m :=
    List.rdropWhile_append_rtakeWhile
  have hzeros : (natText m).rtakeWhile (· = 0x30)
      = List.replicate ((natText m).rtakeWhile (· = 0x30)).length 0x30 :=
    List.eq_replicate_of_mem fun u hu => by simpa using List.mem_rtakeWhile_imp hu
  have hcount := congrArg List.length hsplit
  rw [List.length_append] at hcount
  have hcodes : ((wholeNumbers.digits m).map code).map UInt16.ofNat = (natText m).rdropWhile (· = 0x30) := by
    show ((((natText m).rdropWhile (· = 0x30)).map fun u =>
      (⟨digitValue u % 10, digitValue_mod_lt u⟩ : Fin 10)).map code).map UInt16.ofNat = _
    rw [List.map_map, List.map_map]
    refine (List.map_congr_left fun u hu => ?_).trans (List.map_id _)
    have hdigit := isDigit_natText m u (hsplit ▸ List.mem_append_left _ hu)
    simp only [isDigit, Bool.and_eq_true, decide_eq_true_eq, UInt16.le_iff_toNat_le] at hdigit
    refine UInt16.toNat_inj.mp ?_
    simp only [Function.comp, code, digitValue, id, UInt16.toNat_ofNat']
    simp only [UInt16.reduceToNat] at hdigit
    omega
  have hdigits : (wholeNumbers.digits m).length = ((natText m).rdropWhile (· = 0x30)).length := by
    rw [← hcodes, List.length_map, List.length_map]
  have hexponent : wholeNumbers.exponent m = ((natText m).length : ℤ) := rfl
  rw [layout, if_pos (by rw [hdigits, hexponent]; omega), List.map_append, hcodes, List.map_replicate,
    hdigits, hexponent]
  refine Eq.trans (congrArg₂ HAppend.hAppend rfl ?_) hsplit
  rw [hzeros]
  exact congrArg (fun k => List.replicate k 0x30) (by omega)

lemma wholeNumbers_text {z : ℤ} (hz : z.natAbs ≤ maxSafe) : wholeNumbers.text z = intText z := by
  have hmagnitude : z ≠ 0 → (wholeNumbers.magnitude z).map UInt16.ofNat = natText z.natAbs := by
    intro hne
    rw [Runtime.magnitude, if_neg (by simpa [wholeNumbers] using hne)]
    exact layout_natText hz
  rw [Numbers.text, Runtime.toText]
  rcases lt_trichotomy z 0 with hneg | rfl | hpos
  · have hsign : wholeNumbers.signbit z = true := decide_eq_true hneg
    rw [if_neg (by simpa [wholeNumbers] using hneg.ne), Runtime.signed, if_pos hsign, List.map_cons,
      hmagnitude hneg.ne]
    obtain ⟨m, rfl⟩ := Int.eq_negSucc_of_lt_zero hneg
    rfl
  · rfl
  · have hsign : wholeNumbers.signbit z = false := decide_eq_false (not_lt.mpr hpos.le)
    rw [if_neg (by simpa [wholeNumbers] using hpos.ne'), Runtime.signed, if_neg (by simp [hsign]),
      hmagnitude hpos.ne']
    obtain ⟨m, rfl⟩ := Int.eq_ofNat_of_zero_le hpos.le
    rfl

/-- The whole numbers as doubles: the operators are exact. -/
def wholeDoubles : Binary64 ℤ where
  toNumbers := { wholeNumbers with
    ofText := fun text => stringNumeric (fun m => .Finite (wholePart m)) (text.map UInt16.toNat) }
  nearest m := .Finite (wholePart m)
  truncate z := z
  ofInt z := z
  ofText_eq _ := rfl
  trunc_trunc _ := rfl
  truncate_trunc _ := rfl
  ofInt_whole _ _ := ⟨rfl, rfl⟩
  ofNat_eq _ _ := rfl
  sub_whole _ _ _ _ := ⟨rfl, fun _ => rfl, fun hbig => ⟨hbig.le, Iff.rfl⟩⟩
  mul_whole _ _ _ _ := ⟨rfl, fun _ => rfl, fun hbig => ⟨hbig.le, Iff.rfl⟩⟩
  abs_whole _ _ := ⟨_, rfl, rfl, rfl⟩
  greater_whole _ _ _ _ := rfl
  sub_infinite _ _ := rfl
  abs_infinite _ := rfl
  greater_infinite _ := rfl
  text_whole _ _ hz := wholeNumbers_text hz

end Anyonce.StandardWebhooks
