import Mathlib.Data.List.Basic
import Mathlib.Data.Int.Order.Basic

/-!
# Decimal integers as text

Text is a list of UTF-16 code units.  `intText` writes an integer as `String(n)` does: an optional
minus sign and decimal digits without leading zeros.  `readInt` reads such a text from the front of a
longer one and says what is left; `parseInt` wants the whole text.

`readInt_intText` is the round trip, for anything that does not go on with a digit.
-/

namespace Ecma

/-- The code units of an ASCII literal. -/
def units (s : String) : List UInt16 := s.toList.map fun c => UInt16.ofNat c.toNat

def isDigit (u : UInt16) : Bool := 0x30 ≤ u && u ≤ 0x39

def digitValue (u : UInt16) : ℕ := u.toNat - 0x30

/-- The number a list of digits denotes. -/
def digitsValue (us : List UInt16) : ℕ := us.foldl (fun acc u => 10 * acc + digitValue u) 0

def natText (n : ℕ) : List UInt16 := (Nat.toDigits 10 n).map fun c => UInt16.ofNat c.toNat

def intText : ℤ → List UInt16
  | .ofNat n => natText n
  | .negSucc n => 0x2D :: natText (n + 1)

/-- The digits a text begins with, as a number, and what follows them. -/
def readNat (text : List UInt16) : Option (ℕ × List UInt16) :=
  match text.takeWhile isDigit with
  | [] => none
  | us => some (digitsValue us, text.dropWhile isDigit)

/-- The integer a text begins with, and what follows it. -/
def readInt : List UInt16 → Option (ℤ × List UInt16)
  | [] => none
  | u :: rest =>
      if u = 0x2D then (readNat rest).map fun (n, rest) => (-(n : ℤ), rest)
      else (readNat (u :: rest)).map fun (n, rest) => ((n : ℤ), rest)

/-- The integer a whole text denotes; `none` where there is something else in it. -/
def parseInt (text : List UInt16) : Option ℤ :=
  match readInt text with
  | some (n, []) => some n
  | _ => none

/-- What follows a number does not go on with a digit. -/
def NoDigit (text : List UInt16) : Prop := ∀ u rest, text = u :: rest → isDigit u = false

lemma noDigit_nil : NoDigit [] := by
  intro u rest h
  cases h

/-! ## Digits -/

lemma toNat_of_isDigit {c : Char} (h : c.isDigit) : 0x30 ≤ c.toNat ∧ c.toNat ≤ 0x39 := by
  simp only [Char.isDigit, Bool.and_eq_true, decide_eq_true_eq] at h
  exact ⟨h.1, h.2⟩

lemma isDigit_unit {c : Char} (h : c.isDigit) : isDigit (UInt16.ofNat c.toNat) = true := by
  obtain ⟨hlo, hhi⟩ := toNat_of_isDigit h
  simp only [isDigit, Bool.and_eq_true, decide_eq_true_eq, UInt16.le_iff_toNat_le,
    UInt16.toNat_ofNat']
  rw [Nat.mod_eq_of_lt (by omega)]
  exact ⟨hlo, hhi⟩

lemma digitValue_unit {c : Char} (h : c.isDigit) :
    digitValue (UInt16.ofNat c.toNat) = c.toNat - 0x30 := by
  have hhi := (toNat_of_isDigit h).2
  rw [digitValue, UInt16.toNat_ofNat', Nat.mod_eq_of_lt (by omega)]

lemma isDigit_natText (n : ℕ) : ∀ u ∈ natText n, isDigit u = true := by
  intro u hu
  obtain ⟨c, hc, rfl⟩ := List.mem_map.mp hu
  exact isDigit_unit (Nat.isDigit_of_mem_toDigits (by decide) (by decide) hc)

lemma natText_ne_nil (n : ℕ) : natText n ≠ [] := by
  simp [natText, Nat.toDigits_ne_nil]

lemma digitsValue_natText (n : ℕ) : digitsValue (natText n) = n := by
  have hfold : ∀ (cs : List Char), (∀ c ∈ cs, c.isDigit) → ∀ acc,
      (cs.map fun c => UInt16.ofNat c.toNat).foldl (fun acc u => 10 * acc + digitValue u) acc
        = Nat.ofDigitChars 10 cs acc := by
    intro cs
    induction cs with
    | nil =>
        intro _ acc
        rfl
    | cons c rest ih =>
        intro hcs acc
        rw [List.map_cons, List.foldl_cons, Nat.ofDigitChars_cons,
          digitValue_unit (hcs c List.mem_cons_self)]
        exact ih (fun c hc => hcs c (List.mem_cons_of_mem _ hc)) _
  rw [digitsValue, natText,
    hfold _ fun c hc => Nat.isDigit_of_mem_toDigits (by decide) (by decide) hc]
  exact Nat.ofDigitChars_toDigits (by decide) (by decide)

/-- The digits of a positive number do not begin with a zero. -/
lemma natText_head {n : ℕ} (hn : 0 < n) : ∃ u rest, natText n = u :: rest ∧ u ≠ 0x30 := by
  induction n using Nat.strongRecOn with
  | _ n ih =>
      by_cases hlt : n < 10
      · rw [natText, Nat.toDigits_of_lt_base hlt]
        have hdigit : ∀ d, d < 10 → 0 < d → UInt16.ofNat (Nat.digitChar d).toNat ≠ 0x30 := by
          decide
        exact ⟨_, [], rfl, hdigit n hlt hn⟩
      · obtain ⟨u, rest, htext, hu⟩ := ih (n / 10) (by omega) (by omega)
        rw [natText, Nat.toDigits_of_base_le (by decide) (by omega), List.map_append]
        rw [natText] at htext
        rw [htext]
        exact ⟨u, _, rfl, hu⟩

/-! ## The round trip -/

lemma span_digits {us rest : List UInt16} (hus : ∀ u ∈ us, isDigit u = true) (hrest : NoDigit rest) :
    (us ++ rest).takeWhile isDigit = us ∧ (us ++ rest).dropWhile isDigit = rest := by
  have hstop : rest.takeWhile isDigit = [] ∧ rest.dropWhile isDigit = rest := by
    cases rest with
    | nil => exact ⟨rfl, rfl⟩
    | cons u rest => simp [hrest u rest rfl]
  rw [List.takeWhile_append_of_pos hus, List.dropWhile_append_of_pos hus, hstop.1, hstop.2]
  exact ⟨List.append_nil us, rfl⟩

lemma readNat_natText (n : ℕ) {rest : List UInt16} (h : NoDigit rest) :
    readNat (natText n ++ rest) = some (n, rest) := by
  obtain ⟨htake, hdrop⟩ := span_digits (isDigit_natText n) h
  rw [readNat, htake, hdrop]
  split
  · exact absurd ‹_› (natText_ne_nil n)
  · rw [digitsValue_natText]

/-- **What `intText` writes, `readInt` reads.** -/
lemma readInt_intText (n : ℤ) {rest : List UInt16} (h : NoDigit rest) :
    readInt (intText n ++ rest) = some (n, rest) := by
  cases n with
  | ofNat n =>
      obtain ⟨u, us, hus⟩ := List.exists_cons_of_ne_nil (natText_ne_nil n)
      have hu : isDigit u = true := isDigit_natText n u (by simp [hus])
      have hminus : u ≠ 0x2D := by
        rintro rfl
        exact absurd hu (by decide)
      have hread := readNat_natText n h
      simp only [intText, hus, List.cons_append, readInt, if_neg hminus] at hread ⊢
      rw [hread]
      rfl
  | negSucc n =>
      simp only [intText, List.cons_append, readInt, if_true, readNat_natText (n + 1) h,
        Option.map_some]
      rfl

lemma parseInt_intText (n : ℤ) : parseInt (intText n) = some n := by
  have hread := readInt_intText n noDigit_nil
  rw [List.append_nil] at hread
  rw [parseInt, hread]

lemma intText_inj {m n : ℤ} : intText m = intText n ↔ m = n := by
  constructor
  · intro h
    have hparse := parseInt_intText m
    rw [h, parseInt_intText] at hparse
    exact (Option.some.inj hparse).symm
  · rintro rfl
    rfl

end Ecma
