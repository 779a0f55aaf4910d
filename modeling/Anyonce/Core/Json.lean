import Anyonce.Core.Decimal
import Anyonce.Core.JsonText

/-!
# JSON text

`stringify` and `parse` over UTF-16 code units, as ECMA-262 describes `JSON.stringify` and
`JSON.parse`, for values whose numbers are integers.  `parse` is the whole grammar otherwise: white
space between tokens, every escape, and the refusal of raw control characters; a number with a
fraction or an exponent is refused.  An object keeps its members in the order they are written, and
`member` reads the last one of a name.

`parse_stringify` is the round trip, and `parse_stringifyWith` the same for texts that quote strings in
another way.  The parser has fuel, one unit for each token it goes past; the length of the text is
enough.
-/

namespace Ecma

open JsonText (isSpace Follow follow_nil)

/-- A JSON value; an object keeps the order of its members, and numbers are whole. -/
inductive Json
  | Null
  | Bool (b : Bool)
  | Num (n : ℤ)
  | Str (s : List UInt16)
  | Arr (items : List Json)
  | Obj (members : List (List UInt16 × Json))

/-- The member of that name; a later one hides the earlier. -/
def Json.member (name : List UInt16) : Json → Option Json
  | .Obj members => (members.reverse.find? fun m => m.1 = name).map Prod.snd
  | _ => none

/-! ## Writing -/

def hexDigit (d : ℕ) : UInt16 :=
  if d < 10 then UInt16.ofNat (0x30 + d) else UInt16.ofNat (0x57 + d)

/-- The escape `\uXXXX` of a code unit, in lower case. -/
def unicodeEscape (u : UInt16) : List UInt16 :=
  [0x5C, 0x75, hexDigit (u.toNat / 4096), hexDigit (u.toNat / 256 % 16),
    hexDigit (u.toNat / 16 % 16), hexDigit (u.toNat % 16)]

def isLead (u : UInt16) : Bool := 0xD800 ≤ u && u ≤ 0xDBFF

def isTrail (u : UInt16) : Bool := 0xDC00 ≤ u && u ≤ 0xDFFF

/-- The characters with an escape of their own, as the unit after the backslash. -/
def shortEscape (u : UInt16) : Option UInt16 :=
  if u = 0x08 then some 0x62
  else if u = 0x09 then some 0x74
  else if u = 0x0A then some 0x6E
  else if u = 0x0C then some 0x66
  else if u = 0x0D then some 0x72
  else if u = 0x22 then some 0x22
  else if u = 0x5C then some 0x5C
  else none

/-- One code unit of a string, outside a surrogate pair. -/
def escapeUnit (u : UInt16) : List UInt16 :=
  match shortEscape u with
  | some e => [0x5C, e]
  | none => if u < 0x20 || isLead u || isTrail u then unicodeEscape u else [u]

/-- The text between the quotes of a string: pairs of surrogates stay, lone ones are escaped. -/
def quoteUnits : List UInt16 → List UInt16
  | [] => []
  | [u] => escapeUnit u
  | u :: v :: rest =>
      if isLead u && isTrail v then u :: v :: quoteUnits rest
      else escapeUnit u ++ quoteUnits (v :: rest)

/-- A string in quotes, with what has to be escaped. -/
def quote (s : List UInt16) : List UInt16 := 0x22 :: (quoteUnits s ++ [0x22])

mutual

/-- The text `JSON.stringify` writes. -/
def stringify : Json → List UInt16
  | .Null => units "null"
  | .Bool true => units "true"
  | .Bool false => units "false"
  | .Num n => intText n
  | .Str s => quote s
  | .Arr [] => [0x5B, 0x5D]
  | .Arr (v :: rest) => 0x5B :: (stringify v ++ stringifyItems rest)
  | .Obj [] => [0x7B, 0x7D]
  | .Obj ((name, v) :: rest) => 0x7B :: (quote name ++ 0x3A :: (stringify v ++ stringifyMembers rest))

/-- The items after the first, and the closing bracket. -/
def stringifyItems : List Json → List UInt16
  | [] => [0x5D]
  | v :: rest => 0x2C :: (stringify v ++ stringifyItems rest)

/-- The members after the first, and the closing brace. -/
def stringifyMembers : List (List UInt16 × Json) → List UInt16
  | [] => [0x7D]
  | (name, v) :: rest => 0x2C :: (quote name ++ 0x3A :: (stringify v ++ stringifyMembers rest))

end

/-! ## Reading -/

def skipSpace (text : List UInt16) : List UInt16 := text.dropWhile isSpace

def hexValue (u : UInt16) : Option ℕ :=
  if 0x30 ≤ u && u ≤ 0x39 then some (u.toNat - 0x30)
  else if 0x61 ≤ u && u ≤ 0x66 then some (u.toNat - 0x57)
  else if 0x41 ≤ u && u ≤ 0x46 then some (u.toNat - 0x37)
  else none

/-- The code unit a `\uXXXX` escape stands for. -/
def hexUnit (a b c d : UInt16) : Option UInt16 := do
  let a ← hexValue a
  let b ← hexValue b
  let c ← hexValue c
  let d ← hexValue d
  return UInt16.ofNat (4096 * a + 256 * b + 16 * c + d)

/-- The code unit a one-letter escape stands for. -/
def unescape (e : UInt16) : Option UInt16 :=
  if e = 0x62 then some 0x08
  else if e = 0x74 then some 0x09
  else if e = 0x6E then some 0x0A
  else if e = 0x66 then some 0x0C
  else if e = 0x72 then some 0x0D
  else if e = 0x22 then some 0x22
  else if e = 0x5C then some 0x5C
  else if e = 0x2F then some 0x2F
  else none

/-- The rest of a string whose opening quote has been read, and what follows it. -/
def readString : List UInt16 → Option (List UInt16 × List UInt16)
  | [] => none
  | u :: rest =>
      if u = 0x22 then some ([], rest)
      else if u = 0x5C then
        match rest with
        | [] => none
        | e :: after =>
            if e = 0x75 then
              match after with
              | a :: b :: c :: d :: tail => do
                  let v ← hexUnit a b c d
                  let (s, tail) ← readString tail
                  return (v :: s, tail)
              | _ => none
            else do
              let v ← unescape e
              let (s, tail) ← readString after
              return (v :: s, tail)
      else if u < 0x20 then none
      else do
        let (s, tail) ← readString rest
        return (u :: s, tail)

/-- A number without its minus sign. -/
def unsigned (text : List UInt16) : List UInt16 :=
  if text.head? = some 0x2D then text.tail else text

/-- Whether a zero is followed by more digits. -/
def leadingZero (digits : List UInt16) : Bool :=
  digits.head? = some 0x30 && digits.tail.head?.any isDigit

/-- A number: digits without a leading zero, and no fraction or exponent after them. -/
def readNumber (text : List UInt16) : Option (Json × List UInt16) :=
  if leadingZero (unsigned text) then none
  else
    match readInt text with
    | none => none
    | some (n, rest) =>
        if rest.head?.any fun u => u = 0x2E || u = 0x65 || u = 0x45 then none
        else some (.Num n, rest)

/-- A literal name, or a number. -/
def readScalar (text : List UInt16) : Option (Json × List UInt16) :=
  if units "null" <+: text then some (.Null, text.drop 4)
  else if units "true" <+: text then some (.Bool true, text.drop 4)
  else if units "false" <+: text then some (.Bool false, text.drop 5)
  else readNumber text

/-- The unit `u`, after white space. -/
def expect (u : UInt16) (text : List UInt16) : Option (List UInt16) :=
  match skipSpace text with
  | [] => none
  | v :: rest => if v = u then some rest else none

mutual

/-- One value read from the front of a text, with fuel. -/
def parseValue : ℕ → List UInt16 → Option (Json × List UInt16)
  | 0, _ => none
  | fuel + 1, text =>
      match skipSpace text with
      | [] => none
      | u :: rest =>
          if u = 0x22 then do
            let (s, rest) ← readString rest
            return (.Str s, rest)
          else if u = 0x5B then
            match expect 0x5D rest with
            | some rest => some (.Arr [], rest)
            | none => do
                let (v, rest) ← parseValue fuel rest
                let (vs, rest) ← parseItems fuel rest
                return (.Arr (v :: vs), rest)
          else if u = 0x7B then
            match expect 0x7D rest with
            | some rest => some (.Obj [], rest)
            | none => do
                let (m, rest) ← parseMember fuel rest
                let (ms, rest) ← parseMembers fuel rest
                return (.Obj (m :: ms), rest)
          else readScalar (u :: rest)

/-- What follows an item: the closing bracket, or a comma and more items. -/
def parseItems : ℕ → List UInt16 → Option (List Json × List UInt16)
  | 0, _ => none
  | fuel + 1, text =>
      match expect 0x5D text with
      | some rest => some ([], rest)
      | none => do
          let rest ← expect 0x2C text
          let (v, rest) ← parseValue fuel rest
          let (vs, rest) ← parseItems fuel rest
          return (v :: vs, rest)

/-- One member: its name, a colon, its value. -/
def parseMember : ℕ → List UInt16 → Option ((List UInt16 × Json) × List UInt16)
  | 0, _ => none
  | fuel + 1, text => do
      let rest ← expect 0x22 text
      let (name, rest) ← readString rest
      let rest ← expect 0x3A rest
      let (v, rest) ← parseValue fuel rest
      return ((name, v), rest)

/-- What follows a member: the closing brace, or a comma and more members. -/
def parseMembers : ℕ → List UInt16 → Option (List (List UInt16 × Json) × List UInt16)
  | 0, _ => none
  | fuel + 1, text =>
      match expect 0x7D text with
      | some rest => some ([], rest)
      | none => do
          let rest ← expect 0x2C text
          let (m, rest) ← parseMember fuel rest
          let (ms, rest) ← parseMembers fuel rest
          return (m :: ms, rest)

end

/-- The value a whole text denotes. -/
def parse (text : List UInt16) : Option Json :=
  match parseValue text.length text with
  | some (v, rest) => if skipSpace rest = [] then some v else none
  | none => none

/-! ## Strings -/

lemma hexValue_hexDigit : ∀ d, d < 16 → hexValue (hexDigit d) = some d := by
  decide

lemma hexUnit_unicodeEscape (u : UInt16) :
    hexUnit (hexDigit (u.toNat / 4096)) (hexDigit (u.toNat / 256 % 16))
      (hexDigit (u.toNat / 16 % 16)) (hexDigit (u.toNat % 16)) = some u := by
  have hu : u.toNat < 65536 := u.toNat_lt
  have hsum : 4096 * (u.toNat / 4096) + 256 * (u.toNat / 256 % 16) + 16 * (u.toNat / 16 % 16)
      + u.toNat % 16 = u.toNat := by
    omega
  simp only [hexUnit, hexValue_hexDigit _ (show u.toNat / 4096 < 16 by omega),
    hexValue_hexDigit _ (show u.toNat / 256 % 16 < 16 by omega),
    hexValue_hexDigit _ (show u.toNat / 16 % 16 < 16 by omega),
    hexValue_hexDigit _ (show u.toNat % 16 < 16 by omega), Option.bind_eq_bind, Option.bind_some,
    hsum, UInt16.ofNat_toNat]
  rfl

/-- What a short escape writes is read back, and is not the letter of a `\\u` escape. -/
lemma unescape_shortEscape {u e : UInt16} (h : shortEscape u = some e) :
    unescape e = some u ∧ e ≠ 0x75 := by
  unfold shortEscape at h
  split_ifs at h with h1 h2 h3 h4 h5 h6 h7 <;> cases h <;> subst_vars <;> decide

/-- A unit that stands for itself, in front of the rest of a string. -/
lemma readString_plain {u : UInt16} (hquote : u ≠ 0x22) (hslash : u ≠ 0x5C) (hctl : ¬ u < 0x20)
    (text : List UInt16) :
    readString (u :: text) = (readString text).map fun p => (u :: p.1, p.2) := by
  rw [readString.eq_def]
  simp only [if_neg hquote, if_neg hslash, if_neg hctl]
  cases readString text <;> rfl

lemma slash_ne_quote : (0x5C : UInt16) ≠ 0x22 := by decide

/-- An escaped unit, in front of the rest of a string. -/
lemma readString_escapeUnit (u : UInt16) (text : List UInt16) :
    readString (escapeUnit u ++ text) = (readString text).map fun p => (u :: p.1, p.2) := by
  unfold escapeUnit
  cases hs : shortEscape u with
  | some e =>
      obtain ⟨hun, hne⟩ := unescape_shortEscape hs
      show readString (0x5C :: e :: text) = _
      rw [readString.eq_def]
      simp only [if_neg slash_ne_quote, if_true, if_neg hne, hun, Option.bind_eq_bind,
        Option.bind_some]
      cases readString text <;> rfl
  | none =>
      have hplain : u ≠ 0x22 ∧ u ≠ 0x5C := by
        constructor <;> rintro rfl <;> exact absurd hs (by decide)
      dsimp only
      split_ifs with hesc
      · show readString (0x5C :: 0x75 :: _ :: _ :: _ :: _ :: text) = _
        rw [readString.eq_def]
        simp only [if_neg slash_ne_quote, if_true, hexUnit_unicodeEscape, Option.bind_eq_bind,
          Option.bind_some]
        cases readString text <;> rfl
      · have hctl : ¬ u < 0x20 := by
          intro hlt
          simp [hlt] at hesc
        exact readString_plain hplain.1 hplain.2 hctl text

lemma isLead_plain {u : UInt16} (h : isLead u = true) : u ≠ 0x22 ∧ u ≠ 0x5C ∧ ¬ u < 0x20 := by
  simp only [isLead, Bool.and_eq_true, decide_eq_true_eq] at h
  refine ⟨?_, ?_, ?_⟩
  · rintro rfl
    exact absurd h.1 (by decide)
  · rintro rfl
    exact absurd h.1 (by decide)
  · intro hlt
    have hle : (0xD800 : UInt16) ≤ 0x20 := UInt16.le_trans h.1 (UInt16.le_of_lt hlt)
    exact absurd hle (by decide)

lemma isTrail_plain {u : UInt16} (h : isTrail u = true) : u ≠ 0x22 ∧ u ≠ 0x5C ∧ ¬ u < 0x20 := by
  simp only [isTrail, Bool.and_eq_true, decide_eq_true_eq] at h
  refine ⟨?_, ?_, ?_⟩
  · rintro rfl
    exact absurd h.1 (by decide)
  · rintro rfl
    exact absurd h.1 (by decide)
  · intro hlt
    have hle : (0xDC00 : UInt16) ≤ 0x20 := UInt16.le_trans h.1 (UInt16.le_of_lt hlt)
    exact absurd hle (by decide)

/-- **A quoted string is read back**, whatever its code units are. -/
lemma readString_quoteUnits (s text : List UInt16) :
    readString (quoteUnits s ++ 0x22 :: text) = some (s, text) := by
  induction s using quoteUnits.induct with
  | case1 =>
      rw [quoteUnits, List.nil_append, readString.eq_def]
      simp
  | case2 u =>
      rw [quoteUnits, readString_escapeUnit, readString.eq_def]
      simp
  | case3 u v rest hpair ih =>
      rw [quoteUnits, if_pos hpair, List.cons_append, List.cons_append]
      rw [Bool.and_eq_true] at hpair
      obtain ⟨hu1, hu2, hu3⟩ := isLead_plain hpair.1
      obtain ⟨hv1, hv2, hv3⟩ := isTrail_plain hpair.2
      rw [readString_plain hu1 hu2 hu3, readString_plain hv1 hv2 hv3, ih]
      rfl
  | case4 u v rest hpair ih =>
      rw [quoteUnits, if_neg hpair, List.append_assoc, readString_escapeUnit, ih]
      rfl

/-! ## Tokens -/

/-- A comma or a closing bracket follows a value. -/
lemma follow_unit {u : UInt16} (h : u = 0x2C ∨ u = 0x5D ∨ u = 0x7D) (rest : List UInt16) : Follow (u :: rest) := by
  intro v hv
  obtain rfl := Option.some.inj hv
  rcases h with rfl | rfl | rfl <;> decide

/-- Nothing else does. -/
lemma unit_of_follow {u : UInt16} {rest : List UInt16} (h : Follow (u :: rest)) :
    u = 0x2C ∨ u = 0x5D ∨ u = 0x7D :=
  (h u rfl).imp UInt16.toNat_inj.mp (Or.imp UInt16.toNat_inj.mp UInt16.toNat_inj.mp)

lemma skipSpace_cons {u : UInt16} (h : isSpace u = false) (text : List UInt16) :
    skipSpace (u :: text) = u :: text := by
  simp [skipSpace, h]

lemma expect_self {u : UInt16} (h : isSpace u = false) (text : List UInt16) :
    expect u (u :: text) = some text := by
  simp [expect, skipSpace_cons h]

lemma expect_other {u v : UInt16} (h : isSpace v = false) (hne : v ≠ u) (text : List UInt16) :
    expect u (v :: text) = none := by
  simp [expect, skipSpace_cons h, hne]

/-- The unit an integer begins with: a minus sign or a digit. -/
lemma intText_head (n : ℤ) :
    ∃ u rest, intText n = u :: rest ∧ (u = 0x2D ∨ isDigit u = true) := by
  cases n with
  | ofNat n =>
      obtain ⟨u, us, hus⟩ := List.exists_cons_of_ne_nil (natText_ne_nil n)
      exact ⟨u, us, hus, Or.inr (isDigit_natText n u (by simp [hus]))⟩
  | negSucc n => exact ⟨0x2D, _, rfl, Or.inl rfl⟩

/-- A number does not begin as anything else does. -/
lemma number_head {u : UInt16} (h : u = 0x2D ∨ isDigit u = true) :
    isSpace u = false ∧ u ≠ 0x22 ∧ u ≠ 0x5B ∧ u ≠ 0x5D ∧ u ≠ 0x7B ∧ u ≠ 0x7D ∧ u ≠ 0x6E
      ∧ u ≠ 0x74 ∧ u ≠ 0x66 := by
  have hrange : u = 0x2D ∨ (0x30 ≤ u.toNat ∧ u.toNat ≤ 0x39) := by
    rcases h with rfl | hd
    · exact Or.inl rfl
    · simp only [isDigit, Bool.and_eq_true, decide_eq_true_eq, UInt16.le_iff_toNat_le] at hd
      exact Or.inr hd
  have hne : ∀ v : UInt16, v ≠ 0x2D → (v.toNat < 0x30 ∨ 0x39 < v.toNat) → u ≠ v := by
    rintro v hminus hv rfl
    rcases hrange with h' | h'
    · exact hminus h'
    · omega
  refine ⟨?_, hne _ (by decide) (by decide), hne _ (by decide) (by decide),
    hne _ (by decide) (by decide), hne _ (by decide) (by decide), hne _ (by decide) (by decide),
    hne _ (by decide) (by decide), hne _ (by decide) (by decide), hne _ (by decide) (by decide)⟩
  have hnat : u.toNat = 0x2D ∨ (0x30 ≤ u.toNat ∧ u.toNat ≤ 0x39) := hrange.imp_left (congrArg UInt16.toNat)
  simp only [isSpace, JsonText.ord, Bool.or_eq_false_iff, decide_eq_false_iff_not]
  omega

lemma unsigned_intText (n : ℤ) (rest : List UInt16) :
    unsigned (intText n ++ rest) = natText n.natAbs ++ rest := by
  cases n with
  | ofNat n =>
      obtain ⟨u, us, hus⟩ := List.exists_cons_of_ne_nil (natText_ne_nil n)
      have hu : isDigit u = true := isDigit_natText n u (by simp [hus])
      have hminus : (natText n ++ rest).head? ≠ some 0x2D := by
        rw [hus, List.cons_append, List.head?_cons, ne_eq, Option.some.injEq]
        rintro rfl
        exact absurd hu (by decide)
      rw [intText, unsigned, if_neg hminus]
      rfl
  | negSucc n => rfl

/-- No leading zero: a zero is written alone. -/
lemma leadingZero_natText (n : ℕ) {rest : List UInt16} (h : NoDigit rest) :
    leadingZero (natText n ++ rest) = false := by
  rcases Nat.eq_zero_or_pos n with rfl | hn
  · have hzero : natText 0 = [0x30] := by decide
    rw [hzero]
    cases rest with
    | nil => rfl
    | cons u rest => simp [leadingZero, h u rest rfl]
  · obtain ⟨u, us, hus, hne⟩ := natText_head hn
    simp [leadingZero, hus, hne]

lemma noDigit_of_follow {rest : List UInt16} (h : Follow rest) : NoDigit rest := by
  rintro u tail rfl
  rcases unit_of_follow h with rfl | rfl | rfl <;> decide

lemma noFraction_of_follow {rest : List UInt16} (h : Follow rest) :
    (rest.head?.any fun u => u = 0x2E || u = 0x65 || u = 0x45) = false := by
  cases rest with
  | nil => rfl
  | cons u tail => rcases unit_of_follow h with rfl | rfl | rfl <;> rfl

lemma readNumber_intText (n : ℤ) {rest : List UInt16} (h : Follow rest) :
    readNumber (intText n ++ rest) = some (.Num n, rest) := by
  rw [readNumber, unsigned_intText, leadingZero_natText _ (noDigit_of_follow h), readInt_intText n (noDigit_of_follow h)]
  simp [noFraction_of_follow h]

/-- A literal name is not the beginning of a text that starts with another unit. -/
lemma not_literal (name : List UInt16) {u v : UInt16} {text : List UInt16}
    (hname : name.head? = some v) (hne : u ≠ v) : ¬ name <+: u :: text := by
  rintro ⟨tail, htail⟩
  cases name with
  | nil => cases hname
  | cons w us =>
      rw [List.cons_append, List.cons.injEq] at htail
      rw [List.head?_cons, Option.some.injEq] at hname
      exact hne (htail.1.symm.trans hname)

lemma readScalar_intText (n : ℤ) {rest : List UInt16} (h : Follow rest) :
    readScalar (intText n ++ rest) = some (.Num n, rest) := by
  obtain ⟨u, us, hus, hhead⟩ := intText_head n
  obtain ⟨-, -, -, -, -, -, hn, ht, hf⟩ := number_head hhead
  have hread := readNumber_intText n h
  rw [hus, List.cons_append] at hread ⊢
  rw [readScalar, if_neg (not_literal (units "null") (by decide) hn),
    if_neg (not_literal (units "true") (by decide) ht),
    if_neg (not_literal (units "false") (by decide) hf), hread]

/-! ## Other ways to quote -/

/-- A string between quotes, written by `q`. -/
def quoteWith (q : List UInt16 → List UInt16) (s : List UInt16) : List UInt16 := 0x22 :: (q s ++ [0x22])

mutual

/-- The text of a value whose strings `q` writes.  There is more than one way: which characters are
escaped without need differs between languages. -/
def stringifyWith (q : List UInt16 → List UInt16) : Json → List UInt16
  | .Null => units "null"
  | .Bool true => units "true"
  | .Bool false => units "false"
  | .Num n => intText n
  | .Str s => quoteWith q s
  | .Arr [] => [0x5B, 0x5D]
  | .Arr (v :: rest) => 0x5B :: (stringifyWith q v ++ itemsWith q rest)
  | .Obj [] => [0x7B, 0x7D]
  | .Obj ((name, v) :: rest) =>
      0x7B :: (quoteWith q name ++ 0x3A :: (stringifyWith q v ++ membersWith q rest))

def itemsWith (q : List UInt16 → List UInt16) : List Json → List UInt16
  | [] => [0x5D]
  | v :: rest => 0x2C :: (stringifyWith q v ++ itemsWith q rest)

def membersWith (q : List UInt16 → List UInt16) : List (List UInt16 × Json) → List UInt16
  | [] => [0x7D]
  | (name, v) :: rest =>
      0x2C :: (quoteWith q name ++ 0x3A :: (stringifyWith q v ++ membersWith q rest))

end

mutual

lemma stringify_eq : ∀ v : Json, stringify v = stringifyWith quoteUnits v
  | .Null => rfl
  | .Bool true => rfl
  | .Bool false => rfl
  | .Num n => rfl
  | .Str s => rfl
  | .Arr [] => rfl
  | .Arr (v :: rest) => by rw [stringify, stringifyWith, stringify_eq v, stringifyItems_eq rest]
  | .Obj [] => rfl
  | .Obj ((name, v) :: rest) => by
      rw [stringify, stringifyWith, stringify_eq v, stringifyMembers_eq rest]
      rfl

lemma stringifyItems_eq : ∀ vs : List Json, stringifyItems vs = itemsWith quoteUnits vs
  | [] => rfl
  | v :: rest => by rw [stringifyItems, itemsWith, stringify_eq v, stringifyItems_eq rest]

lemma stringifyMembers_eq : ∀ ms : List (List UInt16 × Json),
    stringifyMembers ms = membersWith quoteUnits ms
  | [] => rfl
  | (name, v) :: rest => by
      rw [stringifyMembers, membersWith, stringify_eq v, stringifyMembers_eq rest]
      rfl

end

mutual

/-- All strings of a value, names included, satisfy `P`. -/
def Json.Strings (P : List UInt16 → Prop) : Json → Prop
  | .Null => True
  | .Bool _ => True
  | .Num _ => True
  | .Str s => P s
  | .Arr items => StringsItems P items
  | .Obj members => StringsMembers P members

def StringsItems (P : List UInt16 → Prop) : List Json → Prop
  | [] => True
  | v :: rest => v.Strings P ∧ StringsItems P rest

def StringsMembers (P : List UInt16 → Prop) : List (List UInt16 × Json) → Prop
  | [] => True
  | (name, v) :: rest => P name ∧ v.Strings P ∧ StringsMembers P rest

end

mutual

lemma strings_all : ∀ v : Json, v.Strings fun _ => True
  | .Null => trivial
  | .Bool _ => trivial
  | .Num _ => trivial
  | .Str _ => trivial
  | .Arr items => stringsItems_all items
  | .Obj members => stringsMembers_all members

lemma stringsItems_all : ∀ vs : List Json, StringsItems (fun _ => True) vs
  | [] => trivial
  | v :: rest => ⟨strings_all v, stringsItems_all rest⟩

lemma stringsMembers_all : ∀ ms : List (List UInt16 × Json), StringsMembers (fun _ => True) ms
  | [] => trivial
  | (_, v) :: rest => ⟨trivial, strings_all v, stringsMembers_all rest⟩

end

section

variable {q : List UInt16 → List UInt16} {P : List UInt16 → Prop}

/-- The unit the text of a value begins with closes nothing and is no space. -/
lemma stringifyWith_head (v : Json) :
    ∃ u text, stringifyWith q v = u :: text ∧ isSpace u = false ∧ u ≠ 0x5D ∧ u ≠ 0x7D := by
  cases v with
  | Null => exact ⟨_, _, rfl, by decide, by decide, by decide⟩
  | Bool b => cases b <;> exact ⟨_, _, rfl, by decide, by decide, by decide⟩
  | Num n =>
      obtain ⟨u, us, hus, hhead⟩ := intText_head n
      obtain ⟨hs, -, -, hb, -, hc, -⟩ := number_head hhead
      exact ⟨u, us, by rw [stringifyWith, hus], hs, hb, hc⟩
  | Str s => exact ⟨_, _, rfl, by decide, by decide, by decide⟩
  | Arr items => cases items <;> exact ⟨_, _, rfl, by decide, by decide, by decide⟩
  | Obj members => cases members <;> exact ⟨_, _, rfl, by decide, by decide, by decide⟩

/-! ## The round trip -/

lemma follow_items (vs : List Json) (rest : List UInt16) : Follow (itemsWith q vs ++ rest) := by
  cases vs with
  | nil => exact follow_unit (Or.inr (Or.inl rfl)) _
  | cons v vs => exact follow_unit (Or.inl rfl) _

lemma follow_members (ms : List (List UInt16 × Json)) (rest : List UInt16) :
    Follow (membersWith q ms ++ rest) := by
  cases ms with
  | nil => exact follow_unit (Or.inr (Or.inr rfl)) _
  | cons m ms => exact follow_unit (Or.inl rfl) _

/-- What `q` writes for the strings that satisfy `P` is read back. -/
def ReadBack (q : List UInt16 → List UInt16) (P : List UInt16 → Prop) : Prop :=
  ∀ s, P s → ∀ text, readString (q s ++ 0x22 :: text) = some (s, text)

/-- A name and its colon, in front of a value that is read. -/
lemma parseMember_quote (hq : ReadBack q P) {fuel : ℕ} {name text rest : List UInt16} {v : Json}
    (hname : P name) (h : parseValue fuel text = some (v, rest)) :
    parseMember (fuel + 1) (quoteWith q name ++ 0x3A :: text) = some ((name, v), rest) := by
  have hquote : quoteWith q name ++ 0x3A :: text = 0x22 :: (q name ++ 0x22 :: 0x3A :: text) := by
    simp [quoteWith]
  rw [parseMember, hquote, expect_self (by decide)]
  simp only [Option.bind_eq_bind, Option.bind_some, hq name hname,
    expect_self (show isSpace 0x3A = false by decide), h]
  rfl

mutual

/-- **What is written, the parser reads**, given fuel for the length of the text. -/
theorem parseValue_stringifyWith (hq : ReadBack q P) : ∀ (v : Json) (fuel : ℕ) (rest : List UInt16),
    v.Strings P → (stringifyWith q v).length ≤ fuel → Follow rest →
      parseValue fuel (stringifyWith q v ++ rest) = some (v, rest)
  | v, 0, rest, _, hfuel, _ => by
      obtain ⟨u, text, htext, -⟩ := stringifyWith_head (q := q) v
      rw [htext, List.length_cons] at hfuel
      omega
  | .Null, fuel + 1, rest, _, _, _ => by
      show parseValue (fuel + 1) (units "null" ++ rest) = some (.Null, rest)
      rfl
  | .Bool true, fuel + 1, rest, _, _, _ => rfl
  | .Bool false, fuel + 1, rest, _, _, _ => rfl
  | .Num n, fuel + 1, rest, _, _, hrest => by
      obtain ⟨u, us, hus, hhead⟩ := intText_head n
      obtain ⟨hs, hquote, hb, -, hc, -⟩ := number_head hhead
      have hread := readScalar_intText n hrest
      rw [hus, List.cons_append] at hread
      rw [stringifyWith, hus, List.cons_append, parseValue, skipSpace_cons hs]
      simp only [if_neg hquote, if_neg hb, if_neg hc, hread]
  | .Str s, fuel + 1, rest, hstrings, _, _ => by
      have hquote : stringifyWith q (.Str s) ++ rest = 0x22 :: (q s ++ 0x22 :: rest) := by
        simp [stringifyWith, quoteWith]
      rw [Json.Strings] at hstrings
      rw [hquote, parseValue, skipSpace_cons (by decide)]
      simp only [if_true, hq s hstrings, Option.bind_eq_bind, Option.bind_some]
      rfl
  | .Arr [], fuel + 1, rest, _, _, _ => rfl
  | .Arr (v :: vs), fuel + 1, rest, hstrings, hfuel, _ => by
      simp only [stringifyWith, List.length_cons, List.length_append] at hfuel
      rw [Json.Strings, StringsItems] at hstrings
      have hv := parseValue_stringifyWith hq v fuel (itemsWith q vs ++ rest) hstrings.1 (by omega)
        (follow_items vs rest)
      have hvs := parseItems_itemsWith hq vs fuel rest hstrings.2 (by omega)
      obtain ⟨u, text, htext, hs, hne, -⟩ := stringifyWith_head (q := q) v
      have hnot : expect 0x5D (stringifyWith q v ++ (itemsWith q vs ++ rest)) = none := by
        rw [htext]
        exact expect_other hs hne _
      rw [stringifyWith, List.cons_append, List.append_assoc, parseValue,
        skipSpace_cons (by decide)]
      simp only [hnot, hv, hvs, Option.bind_eq_bind, Option.bind_some]
      rfl
  | .Obj [], fuel + 1, rest, _, _, _ => rfl
  | .Obj ((name, v) :: ms), fuel + 1, rest, hstrings, hfuel, _ => by
      simp only [stringifyWith, quoteWith, List.length_cons, List.length_append] at hfuel
      rw [Json.Strings, StringsMembers] at hstrings
      obtain ⟨fuel, rfl⟩ : ∃ k, fuel = k + 1 := ⟨fuel - 1, by omega⟩
      have hv := parseValue_stringifyWith hq v fuel (membersWith q ms ++ rest) hstrings.2.1
        (by omega) (follow_members ms rest)
      have hms := parseMembers_membersWith hq ms (fuel + 1) rest hstrings.2.2 (by omega)
      rw [stringifyWith, List.cons_append, List.append_assoc, List.cons_append, List.append_assoc,
        parseValue, skipSpace_cons (by decide)]
      have hnot : expect 0x7D
          (quoteWith q name ++ 0x3A :: (stringifyWith q v ++ (membersWith q ms ++ rest))) = none :=
        expect_other (by decide) (by decide) _
      simp only [hnot, parseMember_quote hq hstrings.1 hv, hms, Option.bind_eq_bind,
        Option.bind_some]
      rfl

theorem parseItems_itemsWith (hq : ReadBack q P) : ∀ (vs : List Json) (fuel : ℕ)
    (rest : List UInt16), StringsItems P vs → (itemsWith q vs).length ≤ fuel →
      parseItems fuel (itemsWith q vs ++ rest) = some (vs, rest)
  | vs, 0, rest, _, hfuel => by cases vs <;> simp [itemsWith] at hfuel
  | [], fuel + 1, rest, _, _ => rfl
  | v :: vs, fuel + 1, rest, hstrings, hfuel => by
      simp only [itemsWith, List.length_cons, List.length_append] at hfuel
      rw [StringsItems] at hstrings
      have hv := parseValue_stringifyWith hq v fuel (itemsWith q vs ++ rest) hstrings.1 (by omega)
        (follow_items vs rest)
      have hvs := parseItems_itemsWith hq vs fuel rest hstrings.2 (by omega)
      rw [itemsWith, List.cons_append, List.append_assoc, parseItems,
        expect_other (by decide) (by decide), expect_self (by decide)]
      simp only [hv, hvs, Option.bind_eq_bind, Option.bind_some]
      rfl

theorem parseMembers_membersWith (hq : ReadBack q P) : ∀ (ms : List (List UInt16 × Json)) (fuel : ℕ)
    (rest : List UInt16), StringsMembers P ms → (membersWith q ms).length ≤ fuel →
      parseMembers fuel (membersWith q ms ++ rest) = some (ms, rest)
  | ms, 0, rest, _, hfuel => by
      cases ms with
      | nil => simp [membersWith] at hfuel
      | cons m ms =>
          obtain ⟨name, v⟩ := m
          simp [membersWith] at hfuel
  | [], fuel + 1, rest, _, _ => rfl
  | (name, v) :: ms, fuel + 1, rest, hstrings, hfuel => by
      simp only [membersWith, quoteWith, List.length_cons, List.length_append] at hfuel
      rw [StringsMembers] at hstrings
      obtain ⟨fuel, rfl⟩ : ∃ k, fuel = k + 1 := ⟨fuel - 1, by omega⟩
      have hv := parseValue_stringifyWith hq v fuel (membersWith q ms ++ rest) hstrings.2.1
        (by omega) (follow_members ms rest)
      have hms := parseMembers_membersWith hq ms (fuel + 1) rest hstrings.2.2 (by omega)
      rw [membersWith, List.cons_append, List.append_assoc, List.cons_append,
        List.append_assoc, parseMembers, expect_other (by decide) (by decide),
        expect_self (by decide)]
      simp only [parseMember_quote hq hstrings.1 hv, hms, Option.bind_eq_bind, Option.bind_some]
      rfl

end

/-- **JSON text denotes the value it was written for**, however its strings are quoted. -/
theorem parse_stringifyWith (hq : ReadBack q P) {v : Json} (hv : v.Strings P) :
    parse (stringifyWith q v) = some v := by
  have hread := parseValue_stringifyWith hq v (stringifyWith q v).length [] hv (Nat.le_refl _)
    follow_nil
  rw [List.append_nil] at hread
  rw [parse, hread]
  rfl

end

theorem parse_stringify (v : Json) : parse (stringify v) = some v := by
  rw [stringify_eq]
  exact parse_stringifyWith (fun s _ text => readString_quoteUnits s text) (strings_all v)

end Ecma
