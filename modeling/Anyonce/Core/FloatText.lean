import Anyonce.Core.NumberText
import Anyonce.Core.Unicode

/-!
# Reading numerals

The numerals of two languages, on ASCII codes.  `stringNumeric` is `Number(text)` of ECMA-262 and `parseFloat`
is `strconv.ParseFloat` of Go; both give the double nearest to what a numeral denotes.

A decimal numeral is one in both, `numeric_decimal`.  Beside these the one has an empty text for zero, white
space around a numeral and numerals of other bases, the other has underscores between digits and floats in
base sixteen, and no text is a finite number in both: `numeric_exclusive`.
-/

namespace NumberText

open JsonText.NumberState (isDigit)
open Unicode (trim Stripped trim_eq_iff)

/-! ## Numerals -/

/-- `± mantissa · base ^ exponent`. -/
structure Numeral where
  negative : Bool
  mantissa : ℕ
  base : ℕ
  exponent : ℤ
  deriving DecidableEq

def isHexDigit (n : ℕ) : Bool := isDigit n || (0x41 ≤ n && n ≤ 0x46) || (0x61 ≤ n && n ≤ 0x66)

def digitNumber (n : ℕ) : ℕ := if n < 0x41 then n - 0x30 else if n < 0x61 then n - 0x37 else n - 0x57

/-- The number that digits denote. -/
def numberIn (base : ℕ) (ds : List ℕ) : ℕ := ds.foldl (fun acc c => base * acc + digitNumber c) 0

/-- A letter, given in lower case, in either case. -/
def isLetter (letter n : ℕ) : Bool := n = letter || n + 0x20 = letter

/-- The sign of a numeral, and the rest. -/
def splitSign : List ℕ → Bool × List ℕ
  | 0x2B :: rest => (false, rest)
  | 0x2D :: rest => (true, rest)
  | text => (false, text)

/-- The exponent after its letter: the rest of the text. -/
def readExponent (text : List ℕ) : Option ℤ :=
  let (negative, ds) := splitSign text
  if ds ≠ [] ∧ ds.all isDigit = true then
    some (if negative then -(numberIn 10 ds : ℤ) else numberIn 10 ds)
  else none

/-- The digits after a point, if there is one, and what follows them. -/
def readFraction (digit : ℕ → Bool) : List ℕ → List ℕ × List ℕ
  | 0x2E :: rest => (rest.takeWhile digit, rest.dropWhile digit)
  | rest => ([], rest)

/-- Digits with a point before, among or after them: the digits, how many stand after the point, and what
follows. -/
def readMantissa (digit : ℕ → Bool) (text : List ℕ) : Option (List ℕ × ℕ × List ℕ) :=
  let whole := text.takeWhile digit
  let (frac, rest) := readFraction digit (text.dropWhile digit)
  if whole = [] ∧ frac = [] then none else some (whole ++ frac, frac.length, rest)

/-- A decimal numeral. -/
def readDecimal (text : List ℕ) : Option Numeral :=
  let (negative, text) := splitSign text
  match readMantissa isDigit text with
  | none => none
  | some (digits, places, []) => some ⟨negative, numberIn 10 digits, 10, -places⟩
  | some (digits, places, c :: rest) =>
      if isLetter 0x65 c then
        (readExponent rest).map fun e => ⟨negative, numberIn 10 digits, 10, e - places⟩
      else none

/-- The base that the letter after a zero stands for. -/
def radix (c : ℕ) : Option ℕ :=
  if isLetter 0x62 c then some 2 else if isLetter 0x6F c then some 8
  else if isLetter 0x78 c then some 16 else none

/-! ## ECMAScript -/

/-- White space and line terminators. -/
def isStrWhiteSpace (n : ℕ) : Bool :=
  [0x09, 0x0A, 0x0B, 0x0C, 0x0D, 0x20, 0xA0, 0x1680, 0x2028, 0x2029, 0x202F, 0x205F, 0x3000, 0xFEFF].contains n
    || (0x2000 ≤ n && n ≤ 0x200A)

/-- A whole number in base two, eight or sixteen. -/
def readRadix : List ℕ → Option Numeral
  | 0x30 :: c :: ds =>
      match radix c with
      | none => none
      | some base =>
          if ds ≠ [] ∧ ds.all (fun n => isHexDigit n && digitNumber n < base) = true then
            some ⟨false, numberIn base ds, base, 0⟩
          else none
  | _ => none

/-- The codes of `Infinity`. -/
def infinityText : List ℕ := [0x49, 0x6E, 0x66, 0x69, 0x6E, 0x69, 0x74, 0x79]

section

variable {F : Type} (nearest : Numeral → Number F)

/-- **`Number(text)`.** -/
def stringNumeric (text : List ℕ) : Number F :=
  let text := trim isStrWhiteSpace text
  if text = [] then nearest ⟨false, 0, 10, 0⟩
  else
    match readRadix text with
    | some m => nearest m
    | none =>
        if (splitSign text).2 = infinityText then .Infinite (splitSign text).1
        else
          match readDecimal text with
          | some m => nearest m
          | none => .NaN

end

/-! ## Go -/

/-- A float in base sixteen, whose exponent has to be there. -/
def readHexFloat (negative : Bool) (text : List ℕ) : Option Numeral :=
  match readMantissa isHexDigit text with
  | some (digits, places, c :: rest) =>
      if isLetter 0x70 c then
        (readExponent rest).map fun e => ⟨negative, numberIn 16 digits, 2, e - 4 * places⟩
      else none
  | _ => none

/-- `readFloat`, on a text without underscores. -/
def readFloat (text : List ℕ) : Option Numeral :=
  match (splitSign text).2 with
  | 0x30 :: c :: rest => if isLetter 0x78 c then readHexFloat (splitSign text).1 rest else readDecimal text
  | _ => readDecimal text

/-- What `underscoreOK` saw last. -/
inductive Seen
  | Start
  | Digit
  | Underscore
  | Other
  deriving DecidableEq

/-- The loop of `underscoreOK`: an underscore stands between digits. -/
def underscoresFrom (hex : Bool) : Seen → List ℕ → Bool
  | saw, [] => saw ≠ .Underscore
  | saw, c :: rest =>
      if isDigit c || (hex && isHexDigit c) then underscoresFrom hex .Digit rest
      else if c = 0x5F then saw = .Digit && underscoresFrom hex .Underscore rest
      else saw ≠ .Underscore && underscoresFrom hex .Other rest

/-- `underscoreOK`: a prefix of a base counts as a digit. -/
def underscoreOK (text : List ℕ) : Bool :=
  let text := (splitSign text).2
  match text with
  | 0x30 :: c :: rest =>
      if (radix c).isSome then underscoresFrom (isLetter 0x78 c) .Digit rest
      else underscoresFrom false .Start text
  | _ => underscoresFrom false .Start text

def lowerCode (n : ℕ) : ℕ := if 0x41 ≤ n ∧ n ≤ 0x5A then n + 0x20 else n

/-- `special`: the infinities and NaN. -/
def special {F : Type} (text : List ℕ) : Option (Number F) :=
  let name := (splitSign text).2.map lowerCode
  if name = [0x69, 0x6E, 0x66] ∨ name = infinityText.map lowerCode then some (.Infinite (splitSign text).1)
  else if text.map lowerCode = [0x6E, 0x61, 0x6E] then some .NaN
  else none

section

variable {F : Type} (nearest : Numeral → Number F)

/-- **`strconv.ParseFloat`**; `none` where it returns an error, as it does for a number out of range. -/
def parseFloat (text : List ℕ) : Option (Number F) :=
  match special text with
  | some x => some x
  | none =>
      if text.contains 0x5F && !underscoreOK text then none
      else
        match (readFloat (text.filter (· ≠ 0x5F))).map nearest with
        | some (.Finite f) => some (.Finite f)
        | _ => none

end

/-! ## The characters of numerals -/

lemma splitSign_mem {text : List ℕ} {c : ℕ} (h : c ∈ text) :
    c = 0x2B ∨ c = 0x2D ∨ c ∈ (splitSign text).2 := by
  cases text using splitSign.fun_cases with
  | case1 rest => rcases List.mem_cons.mp h with rfl | h <;> simp [splitSign, *]
  | case2 rest => rcases List.mem_cons.mp h with rfl | h <;> simp [splitSign, *]
  | case3 _ hplus hminus =>
      rw [splitSign]
      · exact Or.inr (Or.inr h)
      · exact hplus
      · exact hminus

lemma mem_of_splitSign {text : List ℕ} {c : ℕ} (h : c ∈ (splitSign text).2) : c ∈ text := by
  cases text using splitSign.fun_cases with
  | case1 rest => exact List.mem_cons_of_mem _ h
  | case2 rest => exact List.mem_cons_of_mem _ h
  | case3 _ hplus hminus =>
      rw [splitSign] at h
      · exact h
      · exact hplus
      · exact hminus

lemma splitSign_ne_nil {text : List ℕ} (h : (splitSign text).2 ≠ []) : text ≠ [] := by
  rintro rfl
  exact h rfl

lemma mem_takeWhile_or (digit : ℕ → Bool) {text : List ℕ} {c : ℕ} (h : c ∈ text) :
    digit c = true ∨ c ∈ text.dropWhile digit := by
  rw [← List.takeWhile_append_dropWhile (p := digit) (l := text), List.mem_append] at h
  exact h.imp (fun h => List.mem_takeWhile_imp h) id

/-- What is in front of the rest is digits and a point. -/
lemma readMantissa_mem {digit : ℕ → Bool} {text digits rest : List ℕ} {places : ℕ}
    (h : readMantissa digit text = some (digits, places, rest)) {c : ℕ} (hc : c ∈ text) :
    digit c = true ∨ c = 0x2E ∨ c ∈ rest := by
  have hrest : (readFraction digit (text.dropWhile digit)).2 = rest := by
    simp only [readMantissa] at h
    split_ifs at h
    exact congrArg (fun p => p.2.2) (Option.some.inj h)
  rcases mem_takeWhile_or digit hc with hdigit | hdrop
  · exact Or.inl hdigit
  · generalize text.dropWhile digit = after at hrest hdrop
    cases after using readFraction.fun_cases with
    | case1 after =>
        rcases List.mem_cons.mp hdrop with rfl | hafter
        · exact Or.inr (Or.inl rfl)
        · rcases mem_takeWhile_or digit hafter with hdigit | hmem
          · exact Or.inl hdigit
          · exact Or.inr (Or.inr (hrest ▸ hmem))
    | case2 _ hpoint =>
        rw [readFraction] at hrest
        · exact Or.inr (Or.inr (hrest ▸ hdrop))
        · exact hpoint

lemma readMantissa_ne_nil {digit : ℕ → Bool} {text : List ℕ} (h : (readMantissa digit text).isSome = true) :
    text ≠ [] := by
  rintro rfl
  simp [readMantissa, readFraction] at h

lemma readExponent_mem {text : List ℕ} {e : ℤ} (h : readExponent text = some e) {c : ℕ} (hc : c ∈ text) :
    c = 0x2B ∨ c = 0x2D ∨ isDigit c = true := by
  have hdigits : (splitSign text).2.all isDigit = true := by
    simp only [readExponent] at h
    split_ifs at h with hdigits
    · exact hdigits.2
    · exact hdigits.2
  exact (splitSign_mem hc).imp id (Or.imp id (List.all_eq_true.mp hdigits c))

/-- A character of a decimal numeral. -/
def IsDecimalCode (c : ℕ) : Prop := isDigit c = true ∨ c ∈ [0x2B, 0x2D, 0x2E, 0x45, 0x65]

/-- A character of a float in either base. -/
def IsFloatCode (c : ℕ) : Prop := isHexDigit c = true ∨ c ∈ [0x2B, 0x2D, 0x2E, 0x50, 0x58, 0x70, 0x78]

lemma isLetter_iff {letter n : ℕ} : isLetter letter n = true ↔ n = letter ∨ n + 0x20 = letter := by
  simp [isLetter]

lemma readDecimal_codes {text : List ℕ} {m : Numeral} (h : readDecimal text = some m) :
    text ≠ [] ∧ ∀ c ∈ text, IsDecimalCode c := by
  unfold readDecimal at h
  dsimp only at h
  split at h
  · cases h
  · rename_i digits places hmantissa
    refine ⟨splitSign_ne_nil (readMantissa_ne_nil (by rw [hmantissa]; rfl)), fun c hc => ?_⟩
    rcases splitSign_mem hc with rfl | rfl | hc
    · exact Or.inr (by simp)
    · exact Or.inr (by simp)
    · rcases readMantissa_mem hmantissa hc with hdigit | rfl | hrest
      · exact Or.inl hdigit
      · exact Or.inr (by simp)
      · simp at hrest
  · rename_i digits places letter rest hmantissa
    split_ifs at h with hletter
    obtain ⟨e, he, -⟩ := Option.map_eq_some_iff.mp h
    refine ⟨splitSign_ne_nil (readMantissa_ne_nil (by rw [hmantissa]; rfl)), fun c hc => ?_⟩
    rcases splitSign_mem hc with rfl | rfl | hc
    · exact Or.inr (by simp)
    · exact Or.inr (by simp)
    · rcases readMantissa_mem hmantissa hc with hdigit | rfl | hrest
      · exact Or.inl hdigit
      · exact Or.inr (by simp)
      · rcases List.mem_cons.mp hrest with rfl | hrest
        · refine Or.inr ?_
          rw [isLetter_iff] at hletter
          simp only [List.mem_cons, List.not_mem_nil, or_false]
          omega
        · rcases readExponent_mem he hrest with rfl | rfl | hdigit
          · exact Or.inr (by simp)
          · exact Or.inr (by simp)
          · exact Or.inl hdigit

lemma isHexDigit_of_isDigit {c : ℕ} (h : isDigit c = true) : isHexDigit c = true := by
  simp [isHexDigit, h]

lemma IsDecimalCode.float {c : ℕ} (h : IsDecimalCode c) : IsFloatCode c := by
  rcases h with hdigit | hmark
  · exact Or.inl (isHexDigit_of_isDigit hdigit)
  · simp only [List.mem_cons, List.not_mem_nil, or_false] at hmark
    rcases hmark with rfl | rfl | rfl | rfl | rfl
    · exact Or.inr (by simp)
    · exact Or.inr (by simp)
    · exact Or.inr (by simp)
    · exact Or.inl rfl
    · exact Or.inl rfl

/-- A float in base sixteen goes on after its digits. -/
lemma readHexFloat_codes {negative : Bool} {text : List ℕ} {m : Numeral}
    (h : readHexFloat negative text = some m) :
    (∀ c ∈ text, IsFloatCode c) ∧ ¬ ∀ c ∈ text, isHexDigit c = true := by
  unfold readHexFloat at h
  split at h
  · rename_i digits places letter rest hmantissa
    split_ifs at h with hletter
    obtain ⟨e, he, -⟩ := Option.map_eq_some_iff.mp h
    rw [isLetter_iff] at hletter
    constructor
    · intro c hc
      rcases readMantissa_mem hmantissa hc with hdigit | rfl | hrest
      · exact Or.inl hdigit
      · exact Or.inr (by simp)
      · rcases List.mem_cons.mp hrest with rfl | hrest
        · refine Or.inr ?_
          simp only [List.mem_cons, List.not_mem_nil, or_false]
          omega
        · rcases readExponent_mem he hrest with rfl | rfl | hdigit
          · exact Or.inr (by simp)
          · exact Or.inr (by simp)
          · exact Or.inl (isHexDigit_of_isDigit hdigit)
    · intro hall
      have hdrop : text.dropWhile isHexDigit = [] := by
        rw [List.dropWhile_eq_nil_iff]
        exact hall
      simp only [readMantissa, hdrop, readFraction] at hmantissa
      split_ifs at hmantissa
      cases hmantissa
  · cases h

lemma readFloat_codes {text : List ℕ} {m : Numeral} (h : readFloat text = some m) :
    text ≠ [] ∧ ∀ c ∈ text, IsFloatCode c := by
  have hdecimal : readDecimal text = some m → text ≠ [] ∧ ∀ c ∈ text, IsFloatCode c := by
    intro h
    obtain ⟨hne, hcodes⟩ := readDecimal_codes h
    exact ⟨hne, fun c hc => (hcodes c hc).float⟩
  unfold readFloat at h
  split at h
  · rename_i letter rest htext
    split_ifs at h with hletter
    · refine ⟨splitSign_ne_nil (by rw [htext]; simp), fun c hc => ?_⟩
      rw [isLetter_iff] at hletter
      rcases splitSign_mem hc with rfl | rfl | hc
      · exact Or.inr (by simp)
      · exact Or.inr (by simp)
      · rw [htext] at hc
        rcases List.mem_cons.mp hc with rfl | hc
        · exact Or.inl rfl
        · rcases List.mem_cons.mp hc with rfl | hc
          · refine Or.inr ?_
            simp only [List.mem_cons, List.not_mem_nil, or_false]
            omega
          · exact (readHexFloat_codes h).1 c hc
    · exact hdecimal h
  · exact hdecimal h

/-! ## One numeral in both -/

section

variable {F : Type} {nearest : Numeral → Number F} {text : List ℕ}

/-- No character of a float is white space. -/
lemma IsFloatCode.not_space {c : ℕ} (h : IsFloatCode c) : isStrWhiteSpace c = false := by
  have hlow : ∀ n < 0x80, IsFloatCode n → isStrWhiteSpace n = false := by
    unfold IsFloatCode
    decide +kernel
  refine hlow c ?_ h
  rcases h with hdigit | hmark
  · simp only [isHexDigit, isDigit, Bool.or_eq_true, Bool.and_eq_true, decide_eq_true_eq] at hdigit
    omega
  · simp only [List.mem_cons, List.not_mem_nil, or_false] at hmark
    omega

/-- A text without white space is not trimmed. -/
lemma trim_of_not_space (h : ∀ c ∈ text, isStrWhiteSpace c = false) : trim isStrWhiteSpace text = text :=
  trim_eq_iff.mpr ⟨⟨[], [], by simp, by simp, by simp⟩, fun c hc => by simp [h c (List.mem_of_mem_head? hc)],
    fun c hc => by simp [h c (List.mem_of_getLast? hc)]⟩

/-- What a decimal numeral has no character of. -/
lemma IsDecimalCode.plain {c : ℕ} (h : IsDecimalCode c) :
    radix c = none ∧ isLetter 0x78 c = false ∧ c ≠ 0x49 ∧ c ≠ 0x5F ∧ lowerCode c ≠ 0x69 ∧ lowerCode c ≠ 0x6E := by
  have hlow : ∀ n < 0x80, IsDecimalCode n → radix n = none ∧ isLetter 0x78 n = false ∧ n ≠ 0x49 ∧ n ≠ 0x5F
      ∧ lowerCode n ≠ 0x69 ∧ lowerCode n ≠ 0x6E := by
    unfold IsDecimalCode
    decide +kernel
  refine hlow c ?_ h
  rcases h with hdigit | hmark
  · simp only [isDigit, Bool.and_eq_true, decide_eq_true_eq] at hdigit
    omega
  · simp only [List.mem_cons, List.not_mem_nil, or_false] at hmark
    omega

lemma readRadix_of_decimal (h : ∀ c ∈ text, IsDecimalCode c) : readRadix text = none := by
  unfold readRadix
  split
  · rename_i letter ds
    rw [(h letter (by simp)).plain.1]
  · rfl

lemma special_of_decimal (h : ∀ c ∈ text, IsDecimalCode c) : special text = (none : Option (Number F)) := by
  have hletter : ∀ {l : ℕ} {codes : List ℕ}, codes ⊆ text → l ∈ codes.map lowerCode → l ≠ 0x69 ∧ l ≠ 0x6E := by
    intro l codes hsub hl
    obtain ⟨c, hc, rfl⟩ := List.mem_map.mp hl
    exact (h c (hsub hc)).plain.2.2.2.2
  have hsign : (splitSign text).2 ⊆ text := fun c hc => mem_of_splitSign hc
  unfold special
  dsimp only
  rw [if_neg, if_neg]
  · intro hnan
    exact (hletter (List.Subset.refl text) (by rw [hnan]; simp)).2 rfl
  · rintro (hinf | hinfinity)
    · exact (hletter hsign (by rw [hinf]; exact List.mem_cons_self)).1 rfl
    · exact (hletter hsign (by rw [hinfinity]; exact List.mem_cons_self)).1 rfl

/-- A text of such characters is read as a decimal numeral. -/
lemma readFloat_of_decimal (h : ∀ c ∈ text, IsDecimalCode c) : readFloat text = readDecimal text := by
  unfold readFloat
  split
  · rename_i letter rest htext
    have hmem : letter ∈ text := mem_of_splitSign (by rw [htext]; simp)
    rw [if_neg (by rw [(h letter hmem).plain.2.1]; simp)]
  · rfl

/-- **A decimal numeral is one in both languages.** -/
theorem numeric_decimal {m : Numeral} (h : readDecimal text = some m) :
    stringNumeric nearest text = nearest m
      ∧ parseFloat nearest text = (match nearest m with
        | .Finite f => some (.Finite f)
        | _ => none) := by
  obtain ⟨hne, hcodes⟩ := readDecimal_codes h
  constructor
  · have hinfinity : (splitSign text).2 ≠ infinityText := by
      intro heq
      exact (hcodes 0x49 (mem_of_splitSign (by rw [heq]; decide))).plain.2.2.1 rfl
    rw [stringNumeric, trim_of_not_space fun c hc => (hcodes c hc).float.not_space]
    simp only [if_neg hne, readRadix_of_decimal hcodes, if_neg hinfinity, h]
  · have hunderscore : text.contains 0x5F = false := by
      rw [← Bool.not_eq_true, List.contains_iff_mem]
      exact fun hmem => (hcodes _ hmem).plain.2.2.2.1 rfl
    have hfilter : text.filter (· ≠ 0x5F) = text := by
      refine List.filter_eq_self.mpr fun c hc => ?_
      simpa using (hcodes c hc).plain.2.2.2.1
    rw [parseFloat, special_of_decimal hcodes]
    simp only [hunderscore, hfilter, readFloat_of_decimal hcodes, h, Bool.false_and, Option.map_some]
    rw [if_neg Bool.false_ne_true]
    cases nearest m <;> rfl

/-- A text Go reads as a finite number is a float, apart from its underscores. -/
lemma readFloat_of_parseFloat {g : F} (h : parseFloat nearest text = some (.Finite g)) :
    ∃ m, readFloat (text.filter (· ≠ 0x5F)) = some m := by
  have hspecial : special text ≠ some (.Finite g) := by
    unfold special
    dsimp only
    split_ifs <;> simp
  unfold parseFloat at h
  cases hname : special text with
  | some x =>
      rw [hname] at h hspecial
      exact absurd h hspecial
  | none =>
      rw [hname] at h
      dsimp only at h
      split_ifs at h
      cases hread : readFloat (text.filter (· ≠ 0x5F)) with
      | none =>
          rw [hread] at h
          cases h
      | some m => exact ⟨m, rfl⟩

lemma readRadix_digits {m : Numeral} (h : readRadix text = some m) :
    ∃ letter ds, text = 0x30 :: letter :: ds ∧ (∃ base, radix letter = some base)
      ∧ ∀ c ∈ ds, isHexDigit c = true := by
  unfold readRadix at h
  split at h
  · rename_i letter ds
    split at h
    · cases h
    · rename_i base hbase
      split_ifs at h with hds
      refine ⟨letter, ds, rfl, ⟨base, hbase⟩, fun c hc => ?_⟩
      have hdigit := List.all_eq_true.mp hds.2 c hc
      rw [Bool.and_eq_true] at hdigit
      exact hdigit.1
  · cases h

/-- No whole number in another base is a float. -/
lemma readFloat_of_readRadix {m m' : Numeral} (h : readRadix text = some m) (hdecimal : readDecimal text = none) :
    readFloat (text.filter (· ≠ 0x5F)) ≠ some m' := by
  obtain ⟨letter, ds, rfl, ⟨base, hbase⟩, hds⟩ := readRadix_digits h
  have hletter : letter ≠ 0x5F := by
    rintro rfl
    cases hbase
  have hfilter : (0x30 :: letter :: ds).filter (· ≠ 0x5F) = 0x30 :: letter :: ds := by
    refine List.filter_eq_self.mpr fun c hc => ?_
    rcases List.mem_cons.mp hc with rfl | hc
    · rfl
    · rcases List.mem_cons.mp hc with rfl | hc
      · simpa using hletter
      · have hdigit := hds c hc
        have hne : c ≠ 0x5F := by
          rintro rfl
          cases hdigit
        simpa using hne
  rw [hfilter, readFloat]
  simp only [splitSign]
  split_ifs
  · intro hread
    exact (readHexFloat_codes hread).2 hds
  · rw [hdecimal]
    simp

/-- **No other text is a finite number in both.** -/
theorem numeric_exclusive (h : readDecimal text = none) {f g : F} (hts : stringNumeric nearest text = .Finite f)
    (hgo : parseFloat nearest text = some (.Finite g)) : False := by
  obtain ⟨m, hread⟩ := readFloat_of_parseFloat hgo
  obtain ⟨hne, hcodes⟩ := readFloat_codes hread
  have hcode : ∀ c ∈ text, c = 0x5F ∨ IsFloatCode c := by
    intro c hc
    by_cases hunderscore : c = 0x5F
    · exact Or.inl hunderscore
    · exact Or.inr (hcodes c (List.mem_filter.mpr ⟨hc, by simpa using hunderscore⟩))
  have hspace : ∀ c ∈ text, isStrWhiteSpace c = false := by
    intro c hc
    rcases hcode c hc with rfl | hfloat
    · decide
    · exact hfloat.not_space
  have htext : text ≠ [] := by
    rintro rfl
    exact hne rfl
  rw [stringNumeric, trim_of_not_space hspace] at hts
  simp only [if_neg htext, h] at hts
  cases hradix : readRadix text with
  | some m' => exact readFloat_of_readRadix hradix h hread
  | none =>
      rw [hradix] at hts
      dsimp only at hts
      split_ifs at hts

end

end NumberText
