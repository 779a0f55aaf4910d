import Anyonce.Core.JsonText

/-!
# Numbers as text

How a double is written.  A runtime gives the shortest decimal digits that identify the double and the
place of the point; `layout` is what ECMA-262 makes of them in `Number::toString`.  A text is a list of
ASCII codes, the token of a JSON number.

The doubles themselves are a parameter, `Doubles`: the digits, and a reader of tokens that reads a
double back from its own digits.  Nothing else is asked of them.

* `isNumber_toText` — the text of a double is one JSON token.
-/

namespace NumberText

open JsonText (IsNumber NumberState)

/-- The code of a decimal digit. -/
def code (d : Fin 10) : ℕ := 0x30 + d.val

/-- A natural number in decimal. -/
def decimal (n : ℕ) : List ℕ := (Nat.toDigits 10 n).map Char.toNat

/-- The exponent of a number: the letter, the sign and the digits. -/
def exponentText (e : ℤ) : List ℕ := 0x65 :: (if e < 0 then 0x2D else 0x2B) :: decimal e.natAbs

/-- The text of `0.d₁d₂…dₖ · 10ⁿ`, as `Number::toString` lays it out. -/
def layout (digits : List (Fin 10)) (n : ℤ) : List ℕ :=
  let k := digits.length
  let ds := digits.map code
  if k ≤ n ∧ n ≤ 21 then ds ++ List.replicate (n - k).toNat 0x30
  else if 0 < n ∧ n ≤ 21 then ds.take n.toNat ++ 0x2E :: ds.drop n.toNat
  else if -6 < n ∧ n ≤ 0 then 0x30 :: 0x2E :: (List.replicate (-n).toNat 0x30 ++ ds)
  else if k = 1 then ds ++ exponentText (n - 1)
  else ds.take 1 ++ 0x2E :: ds.drop 1 ++ exponentText (n - 1)

/-- A value of the language's number type. -/
inductive Number (F : Type)
  | Finite (f : F)
  | Infinite (negative : Bool)
  | NaN
  deriving DecidableEq

def Number.map {F G : Type} (g : F → G) : Number F → Number G
  | .Finite f => .Finite (g f)
  | .Infinite negative => .Infinite negative
  | .NaN => .NaN

/-- The finite doubles as a runtime shows them: a zero of either sign, the digits and the exponent of
any other, and the number a JSON token denotes. -/
structure Runtime (F : Type) where
  zero : F
  isZero : F → Bool
  signbit : F → Bool
  digits : F → List (Fin 10)
  exponent : F → ℤ
  read : List ℕ → Number F

namespace Runtime

variable {F : Type} (r : Runtime F) (f : F)

/-- The text of the magnitude. -/
def magnitude : List ℕ := if r.isZero f then [0x30] else layout (r.digits f) (r.exponent f)

/-- The text with its sign, also that of a zero. -/
def signed : List ℕ := if r.signbit f then 0x2D :: r.magnitude f else r.magnitude f

/-- `Number::toString`: a zero has no sign. -/
def toText : List ℕ := if r.isZero f then [0x30] else r.signed f

/-- The double without the sign of a zero. -/
def unsignZero : F := if r.isZero f then r.zero else f

end Runtime

/-- What is asked of a runtime: the digits of a double begin with no zero, and a double is read back
from its own text. -/
structure Doubles (F : Type) extends Runtime F where
  zero_isZero : isZero zero = true
  zero_signbit : signbit zero = false
  digits_head : ∀ f, isZero f = false → ∃ d ds, digits f = d :: ds ∧ d ≠ 0
  read_signed : ∀ f, read (toRuntime.signed f) = .Finite f

/-! ## Texts are tokens -/

section Tokens

open JsonText.NumberState (isDigit step run)

lemma run_append (s : NumberState) (a b : List ℕ) :
    s.run (a ++ b) = (s.run a).bind fun s => s.run b := by
  induction a generalizing s with
  | nil => rfl
  | cons n a ih =>
      rw [List.cons_append, run, run]
      cases s.step n with
      | none => rfl
      | some s' => exact ih s'

/-- Codes that are all digits. -/
def Digits (ds : List ℕ) : Prop := ∀ d ∈ ds, isDigit d = true

/-- A state that digits do not leave. -/
lemma run_digits {s : NumberState} (hs : ∀ d, isDigit d = true → s.step d = some s) {ds : List ℕ}
    (hds : Digits ds) : s.run ds = some s := by
  induction ds with
  | nil => rfl
  | cons d ds ih =>
      rw [run, hs d (hds d List.mem_cons_self)]
      exact ih fun d' hd' => hds d' (List.mem_cons_of_mem d hd')

/-- A state that one digit leaves for a state that digits do not leave. -/
lemma run_digits_to {s s' : NumberState} (hs : ∀ d, isDigit d = true → s.step d = some s')
    (hs' : ∀ d, isDigit d = true → s'.step d = some s') {ds : List ℕ} (hne : ds ≠ [])
    (hds : Digits ds) : s.run ds = some s' := by
  cases ds with
  | nil => exact absurd rfl hne
  | cons d ds =>
      rw [run, hs d (hds d List.mem_cons_self)]
      exact run_digits hs' fun d' hd' => hds d' (List.mem_cons_of_mem d hd')

lemma step_int {d : ℕ} (h : isDigit d = true) : NumberState.Int.step d = some .Int := by simp [step, h]

lemma step_frac {d : ℕ} (h : isDigit d = true) : NumberState.Frac.step d = some .Frac := by simp [step, h]

lemma step_dot {d : ℕ} (h : isDigit d = true) : NumberState.Dot.step d = some .Frac := by simp [step, h]

lemma step_expDigits {d : ℕ} (h : isDigit d = true) : NumberState.ExpDigits.step d = some .ExpDigits := by
  simp [step, h]

lemma step_expSign {d : ℕ} (h : isDigit d = true) : NumberState.ExpSign.step d = some .ExpDigits := by
  simp [step, h]

lemma isDigit_code (d : Fin 10) : isDigit (code d) = true := by
  revert d
  decide

lemma digits_codes (ds : List (Fin 10)) : Digits (ds.map code) := by
  intro n hn
  obtain ⟨d, -, rfl⟩ := List.mem_map.mp hn
  exact isDigit_code d

lemma digits_zeros (n : ℕ) : Digits (List.replicate n 0x30) := by
  intro d hd
  rw [List.eq_of_mem_replicate hd]
  rfl

lemma digits_decimal (n : ℕ) : Digits (decimal n) := by
  intro d hd
  obtain ⟨c, hc, rfl⟩ := List.mem_map.mp hd
  have hdigit := Nat.isDigit_of_mem_toDigits (by decide) (by decide) hc
  simp only [Char.isDigit, Bool.and_eq_true, decide_eq_true_eq] at hdigit
  simp only [isDigit, Bool.and_eq_true, decide_eq_true_eq]
  exact hdigit

lemma decimal_ne_nil (n : ℕ) : decimal n ≠ [] := by
  simp [decimal, Nat.toDigits_ne_nil]

lemma run_exponentText {s : NumberState} (hs : s.step 0x65 = some .Exp) (e : ℤ) :
    s.run (exponentText e) = some .ExpDigits := by
  have hsign : NumberState.Exp.step (if e < 0 then 0x2D else 0x2B) = some .ExpSign := by
    split_ifs <;> rfl
  rw [exponentText, run, hs, Option.bind_some, run, hsign, Option.bind_some]
  exact run_digits_to (fun _ => step_expSign) (fun _ => step_expDigits) (decimal_ne_nil _)
    (digits_decimal _)

/-- **The layout of digits is a token**, after whatever a number may begin with. -/
lemma run_layout {s : NumberState} (hzero : s.step 0x30 = some .Zero)
    (hint : ∀ d, isDigit d = true → d ≠ 0x30 → s.step d = some .Int) {d : Fin 10}
    (hd : d ≠ 0) (ds : List (Fin 10)) (n : ℤ) :
    ((s.run (layout (d :: ds) n)).any NumberState.accepting) = true := by
  have hcode : code d ≠ 0x30 := by
    intro h
    exact hd (Fin.ext (by simpa [code] using h))
  have hstep := hint (code d) (isDigit_code d) hcode
  have hds := digits_codes ds
  have hint' : ∀ {ds : List ℕ}, Digits ds → NumberState.Int.run ds = some .Int :=
    fun h => run_digits (fun _ => step_int) h
  have hdot : ∀ {ds : List ℕ}, ds ≠ [] → Digits ds → NumberState.Dot.run ds = some .Frac :=
    fun hne h => run_digits_to (fun _ => step_dot) (fun _ => step_frac) hne h
  have hpoint : NumberState.Int.step 0x2E = some .Dot := rfl
  unfold layout
  simp only [List.map_cons]
  split_ifs with h1 h2 h3 h4
  · -- an integer
    rw [List.cons_append, run, hstep, Option.bind_some, run_append, hint' hds, Option.bind_some,
      hint' (digits_zeros _)]
    rfl
  · -- a point among the digits
    obtain ⟨m, rfl⟩ : ∃ m : ℕ, n = m + 1 := ⟨(n - 1).toNat, by omega⟩
    have htake : Digits ((ds.map code).take m) := fun x hx => hds x (List.mem_of_mem_take hx)
    have hdrop : Digits ((ds.map code).drop m) := fun x hx => hds x (List.mem_of_mem_drop hx)
    have hne : (ds.map code).drop m ≠ [] := by
      rw [Ne, List.drop_eq_nil_iff, List.length_map]
      rw [List.length_cons] at h1
      push_cast at h1
      omega
    rw [show ((m : ℤ) + 1).toNat = m + 1 by omega, List.take_succ_cons, List.drop_succ_cons,
      List.cons_append, run, hstep, Option.bind_some, run_append, hint' htake, Option.bind_some, run,
      hpoint, Option.bind_some, hdot hne hdrop]
    rfl
  · -- zeros after the point
    have hne : List.replicate (-n).toNat 0x30 ++ code d :: ds.map code ≠ [] := by simp
    have hdigits : Digits (List.replicate (-n).toNat 0x30 ++ code d :: ds.map code) := by
      intro x hx
      rcases List.mem_append.mp hx with hx | hx
      · exact digits_zeros _ x hx
      · exact digits_codes (d :: ds) x hx
    rw [run, hzero, Option.bind_some, run, show NumberState.Zero.step 0x2E = some .Dot from rfl,
      Option.bind_some, hdot hne hdigits]
    rfl
  · -- one digit and an exponent
    obtain rfl : ds = [] := by simpa using h4
    rw [List.map_nil, List.singleton_append, run, hstep, Option.bind_some, run_exponentText rfl]
    rfl
  · -- a point after the first digit, and an exponent
    have hne : ds.map code ≠ [] := by simpa using h4
    rw [List.take_succ_cons, List.take_zero, List.drop_succ_cons, List.drop_zero, List.append_assoc,
      List.singleton_append, run, hstep, Option.bind_some, List.cons_append, run, hpoint,
      Option.bind_some, run_append, hdot hne hds, Option.bind_some, run_exponentText rfl]
    rfl

end Tokens

section

/-- A text that may begin a number is a token with a sign and without one. -/
lemma isNumber_sign (negative : Bool) {text : List ℕ}
    (h : ∀ {s : NumberState}, s.step 0x30 = some .Zero →
      (∀ n, NumberState.isDigit n = true → n ≠ 0x30 → s.step n = some .Int) →
      (s.run text).any NumberState.accepting = true) :
    IsNumber (if negative then 0x2D :: text else text) := by
  have hint : ∀ n, NumberState.isDigit n = true → n ≠ 0x30 → n ≠ 0x2D := by
    rintro n hn - rfl
    exact absurd hn (by decide)
  rw [IsNumber]
  split_ifs
  · refine h rfl ?_
    intro n hn hne
    simp [NumberState.step, NumberState.first, hn, hne]
  · refine h rfl ?_
    intro n hn hne
    simp [NumberState.step, NumberState.first, hn, hne, hint n hn hne]

lemma isNumber_layout (negative : Bool) {digit : Fin 10} (hdigit : digit ≠ 0) (ds : List (Fin 10)) (n : ℤ) :
    IsNumber (if negative then 0x2D :: layout (digit :: ds) n else layout (digit :: ds) n) :=
  isNumber_sign negative fun hzero hint => run_layout hzero hint hdigit ds n

variable {F : Type} (d : Doubles F)

/-- **The text of a double is one token.** -/
lemma Doubles.isNumber_signed (f : F) : IsNumber (d.signed f) := by
  refine isNumber_sign (d.signbit f) ?_
  intro s hzero hint
  rw [Runtime.magnitude]
  split_ifs with hz
  · rw [NumberState.run, hzero]
    rfl
  · obtain ⟨digit, ds, hdigits, hne⟩ := d.digits_head f (by simpa using hz)
    rw [hdigits]
    exact run_layout hzero hint hne ds _

/-- A zero is written as the zero without a sign is. -/
lemma Doubles.signed_zero : d.signed d.zero = [0x30] := by
  simp [Runtime.signed, Runtime.magnitude, d.zero_isZero, d.zero_signbit]

/-- **`Number::toString` writes what the double without the sign of a zero has as its text.** -/
lemma Doubles.toText_eq (f : F) : d.toText f = d.signed (d.unsignZero f) := by
  rw [Runtime.toText, Runtime.unsignZero]
  split_ifs
  · rw [d.signed_zero]
  · rfl

lemma Doubles.isNumber_toText (f : F) : IsNumber (d.toText f) := by
  rw [d.toText_eq]
  exact d.isNumber_signed _

/-- **A double is read back**, up to the sign of a zero. -/
lemma Doubles.read_toText (f : F) : d.read (d.toText f) = .Finite (d.unsignZero f) := by
  rw [d.toText_eq]
  exact d.read_signed _

lemma Doubles.unsignZero_unsignZero (f : F) : d.unsignZero (d.unsignZero f) = d.unsignZero f := by
  by_cases hz : d.isZero f = true
  · simp [Runtime.unsignZero, hz]
  · simp [Runtime.unsignZero, hz]

lemma Doubles.toText_unsignZero (f : F) : d.toText (d.unsignZero f) = d.toText f := by
  by_cases hz : d.isZero f = true
  · simp [Runtime.toText, Runtime.unsignZero, hz, d.zero_isZero]
  · simp [Runtime.unsignZero, hz]

end

end NumberText
