import Anyonce.Key
import Anyonce.Core.Unicode

/-!
# The key parser

`parseSfString` of `packages/core/src/sfstring.ts` and `parseKey` of `packages/core/src/key.ts`, with
the texts of their refusals.

The grammar they are compared with is declarative.  `SfString text value` says that the text is one
RFC 9651 sf-string with that unescaped value, `BareToken text` that it is a token a lenient parser
admits without quotes, and `Stripped isOws` what remains between spaces and tabs at both ends.
`parseKey_lenient` and `parseKey_strict` say that the parser accepts exactly this, and
`parseKey_quoteKey` that it inverts quoting.
-/

namespace Anyonce

open Unicode (trim Stripped trim_eq_iff)

/-! ## RFC 9651 strings -/

/-- What the parser of structured-field strings returns. -/
inductive SfStringResult
  | Ok (value : JsString)
  | Fail (reason : String)
  deriving DecidableEq

/-- The text without the spaces at its ends. -/
def trimSpaces (input : JsString) : JsString := trim (fun u => u = 0x20) input

/-- The loop of `parseSfString` from index `i`, with what it has read so far in `out`. -/
def parseSfChars : JsString → ℕ → JsString → SfStringResult
  | [], _, _ => .Fail "unterminated quote"
  | code :: rest, i, out =>
      if code = 0x5c then
        match rest with
        | [] => .Fail "unterminated escape"
        | next :: rest =>
            if next ≠ 0x22 ∧ next ≠ 0x5c then .Fail s!"invalid escape at index {i + 1}"
            else parseSfChars rest (i + 2) (out ++ [next])
      else if code = 0x22 then
        if rest ≠ [] then .Fail "trailing characters after the closing quote" else .Ok out
      else if code < 0x20 ∨ code > 0x7e then
        .Fail "non-printable or non-ASCII character in sf-string"
      else parseSfChars rest (i + 1) (out ++ [code])

/-- Parses one RFC 9651 sf-string (section 4.2.5): a DQUOTE, then printable ASCII with backslash
escapes for DQUOTE and backslash only, then a closing DQUOTE.  Surrounding spaces are discarded. -/
def parseSfString (input : JsString) : SfStringResult :=
  match trimSpaces input with
  | [] => .Fail "not an sf-string: missing opening quote"
  | code :: rest =>
      if code ≠ 0x22 then .Fail "not an sf-string: missing opening quote"
      else parseSfChars rest 1 []

/-! ## Keys -/

/-- The two ways to read a key header: as a structured-field string only, or as a bare value too. -/
inductive KeySyntax
  | Lenient
  | Strict
  deriving DecidableEq

/-- What `parseKey` returns; every failure has the code `invalid-key`. -/
inductive ParseKeyResult
  | Ok (key : JsString)
  | Fail (reason : String)
  deriving DecidableEq

/-- Optional white space of HTTP: a space or a tab. -/
def isOws (u : UInt16) : Bool := u = 0x20 || u = 0x09

/-- The text without the spaces and tabs at its ends. -/
def trimOws (value : JsString) : JsString := trim isOws value

/-- The key, if it satisfies `validateKey`. -/
def admitKey (key : JsString) (allowSpace : Bool) : ParseKeyResult :=
  match validateKey key allowSpace with
  | .Fail reason => .Fail reason
  | .Ok => .Ok key

/-- D7: lenient accepts a bare token or a quoted sf-string (quotes stripped, escapes unescaped);
strict accepts only an sf-string.  Space is allowed only inside an sf-string. -/
def parseKey (headerValue : JsString) (keySyntax : KeySyntax) : ParseKeyResult :=
  let trimmed := trimOws headerValue
  if keySyntax = .Strict ∨ trimmed.head? = some 0x22 then
    match parseSfString trimmed with
    | .Fail reason => .Fail reason
    | .Ok value => admitKey value true
  else admitKey trimmed false

/-! ## The grammar -/

/-- What stands between the quotes of an sf-string, and the value it denotes. -/
inductive SfChars : JsString → JsString → Prop
  | nil : SfChars [] []
  | unescaped {u : UInt16} {text value : JsString} (hlow : 0x20 ≤ u) (hhigh : u ≤ 0x7e)
      (hquote : u ≠ 0x22) (hslash : u ≠ 0x5c) (h : SfChars text value) :
      SfChars (u :: text) (u :: value)
  | escaped {u : UInt16} {text value : JsString} (hu : u = 0x22 ∨ u = 0x5c)
      (h : SfChars text value) : SfChars (0x5c :: u :: text) (u :: value)

/-- The text is an sf-string and this its unescaped value. -/
def SfString (text value : JsString) : Prop :=
  ∃ chars, text = 0x22 :: (chars ++ [0x22]) ∧ SfChars chars value

/-- A token of 1 to 255 characters 0x21..0x7E that does not start with a double quote. -/
structure BareToken (text : JsString) : Prop where
  nonempty : 1 ≤ text.length
  short : text.length ≤ 255
  visible : ∀ u ∈ text, 0x21 ≤ u ∧ u ≤ 0x7e
  unquoted : text.head? ≠ some 0x22

/-- What a key may be: 1 to 255 characters 0x20..0x7E. -/
structure KeyText (key : JsString) : Prop where
  nonempty : 1 ≤ key.length
  short : key.length ≤ 255
  printable : ∀ u ∈ key, 0x20 ≤ u ∧ u ≤ 0x7e

/-- One character of a key between quotes. -/
def quoteChar (u : UInt16) : JsString := if u = 0x22 ∨ u = 0x5c then [0x5c, u] else [u]

/-- A key as an sf-string: in double quotes, with a backslash before each double quote and each
backslash. -/
def quoteKey (key : JsString) : JsString := 0x22 :: (key.flatMap quoteChar ++ [0x22])

/-! ## Validation -/

lemma validateUnits_iff {allowSpace : Bool} (key : JsString) (i : ℕ) :
    validateUnits allowSpace key i = .Ok ↔
      ∀ u ∈ key, (u = 0x20 ∧ allowSpace) ∨ (0x21 ≤ u ∧ u ≤ 0x7e) := by
  induction key generalizing i with
  | nil => simp [validateUnits]
  | cons u rest ih =>
      rw [validateUnits, List.forall_mem_cons]
      split_ifs with hspace hrange
      · rw [ih]
        exact ⟨fun h => ⟨Or.inl hspace, h⟩, fun h => h.2⟩
      · have hout : ¬ (0x21 ≤ u ∧ u ≤ 0x7e) := by
          rw [not_and_or, UInt16.not_le, UInt16.not_le]
          exact hrange
        simp [hout, hspace]
      · have hin : 0x21 ≤ u ∧ u ≤ 0x7e := by
          simpa [not_or, not_lt] using hrange
        simp [ih, hin]

/-- `validateKey` accepts the keys of 1 to 255 units in range, a space among them if allowed. -/
lemma validateKey_iff {allowSpace : Bool} (key : JsString) :
    validateKey key allowSpace = .Ok ↔
      1 ≤ key.length ∧ key.length ≤ 255 ∧
        ∀ u ∈ key, (u = 0x20 ∧ allowSpace) ∨ (0x21 ≤ u ∧ u ≤ 0x7e) := by
  rw [← validateUnits_iff key 0, validateKey]
  by_cases hempty : key.length = 0
  · simp [hempty]
  · rw [if_neg hempty]
    cases hunits : validateUnits allowSpace key 0 with
    | Fail reason => simp
    | Ok =>
        have hone : 1 ≤ key.length := by omega
        by_cases hlong : key.length > maxKeyBytes
        · have hlong' : ¬ key.length ≤ 255 := by simpa [maxKeyBytes] using hlong
          simp [hlong, hlong']
        · have hshort : key.length ≤ 255 := by simpa [maxKeyBytes] using hlong
          simp [hlong, hone, hshort]

lemma admit_eq_ok {key found : JsString} {allowSpace : Bool} :
    admitKey found allowSpace = .Ok key ↔ validateKey found allowSpace = .Ok ∧ found = key := by
  unfold admitKey
  cases validateKey found allowSpace <;> simp

/-- With spaces allowed, the range is 0x20..0x7E. -/
lemma validateKey_true_iff (key : JsString) : validateKey key true = .Ok ↔ KeyText key := by
  have hunit : ∀ u : UInt16, (u = 0x20 ∨ (0x21 ≤ u ∧ u ≤ 0x7e)) ↔ 0x20 ≤ u ∧ u ≤ 0x7e := by
    intro u
    simp only [UInt16.le_iff_toNat_le, ← UInt16.toNat_inj]
    simp
    omega
  rw [validateKey_iff]
  simp only [and_true, hunit]
  exact ⟨fun h => ⟨h.1, h.2.1, h.2.2⟩, fun h => ⟨h.nonempty, h.short, h.printable⟩⟩

lemma validateKey_false_iff (key : JsString) :
    validateKey key false = .Ok ↔
      1 ≤ key.length ∧ key.length ≤ 255 ∧ ∀ u ∈ key, 0x21 ≤ u ∧ u ≤ 0x7e := by
  simp [validateKey_iff]

/-! ## What the parser accepts -/

/-- The loop accepts the characters of an sf-string with the closing quote as the last unit. -/
lemma parseSfChars_complete {chars more : JsString} (h : SfChars chars more) :
    ∀ (i : ℕ) (out : JsString), parseSfChars (chars ++ [0x22]) i out = .Ok (out ++ more) := by
  induction h with
  | nil =>
      intro i out
      simp [parseSfChars]
  | @unescaped u text value hlow hhigh hquote hslash _ ih =>
      intro i out
      have hrange : ¬ (u < 0x20 ∨ u > 0x7e) := by
        rw [not_or, UInt16.not_lt, gt_iff_lt, UInt16.not_lt]
        exact ⟨hlow, hhigh⟩
      rw [List.cons_append, parseSfChars.eq_def]
      simp only [if_neg hslash, if_neg hquote, if_neg hrange, ih]
      simp
  | @escaped u text value hu _ ih =>
      intro i out
      have hescape : ¬ (u ≠ 0x22 ∧ u ≠ 0x5c) := by
        rwa [not_and_or, not_not, not_not]
      rw [List.cons_append, List.cons_append, parseSfChars.eq_def]
      simp only [if_true, if_neg hescape, ih]
      simp

/-- The loop accepts nothing else. -/
lemma parseSfChars_sound {text : JsString} {i : ℕ} {out value : JsString}
    (h : parseSfChars text i out = .Ok value) :
    ∃ chars more, text = chars ++ [0x22] ∧ SfChars chars more ∧ value = out ++ more := by
  induction text, i, out using parseSfChars.induct with
  | case1 i out => simp [parseSfChars] at h
  | case2 i out => simp [parseSfChars] at h
  | case3 i out next rest hbad =>
      rw [parseSfChars.eq_def] at h
      simp [hbad] at h
  | case4 i out next rest hgood ih =>
      rw [parseSfChars.eq_def] at h
      simp only [if_true, if_neg hgood] at h
      obtain ⟨chars, more, rfl, hchars, rfl⟩ := ih h
      have hnext : next = 0x22 ∨ next = 0x5c := by
        rwa [not_and_or, not_not, not_not] at hgood
      exact ⟨0x5c :: next :: chars, next :: more, rfl, .escaped hnext hchars, by simp⟩
  | case5 rest i out hrest =>
      rw [parseSfChars.eq_def] at h
      simp [hrest] at h
  | case6 rest i out hrest =>
      rw [not_not] at hrest
      subst hrest
      have hvalue : value = out := by
        simpa [parseSfChars, eq_comm] using h
      exact ⟨[], [], rfl, .nil, by simp [hvalue]⟩
  | case7 code rest i out hslash hquote hrange =>
      rw [parseSfChars.eq_def] at h
      simp [hslash, hquote, hrange] at h
  | case8 code rest i out hslash hquote hrange ih =>
      rw [parseSfChars.eq_def] at h
      simp only [if_neg hslash, if_neg hquote, if_neg hrange] at h
      obtain ⟨chars, more, rfl, hchars, rfl⟩ := ih h
      rw [not_or, UInt16.not_lt, gt_iff_lt, UInt16.not_lt] at hrange
      exact ⟨code :: chars, code :: more, rfl,
        .unescaped hrange.1 hrange.2 hquote hslash hchars, by simp⟩

/-- Between spaces, `parseSfString` accepts the sf-strings. -/
lemma parseSfString_iff (input value : JsString) :
    parseSfString input = .Ok value ↔ SfString (trimSpaces input) value := by
  unfold parseSfString SfString
  cases trimSpaces input with
  | nil => simp
  | cons code rest =>
      by_cases hcode : code = 0x22
      · subst hcode
        simp only [ne_eq, not_true_eq_false, if_false, List.cons.injEq, true_and]
        constructor
        · intro h
          obtain ⟨chars, more, rfl, hchars, rfl⟩ := parseSfChars_sound h
          exact ⟨chars, rfl, hchars⟩
        · rintro ⟨chars, rfl, hchars⟩
          exact parseSfChars_complete hchars 1 []
      · simp [hcode]

/-- What `trimOws` leaves has no spaces at its ends for `trimSpaces` to strip. -/
lemma trimSpaces_stripped {headerValue : JsString} :
    trimSpaces (trimOws headerValue) = trimOws headerValue := by
  have hcore : Stripped isOws headerValue (trimOws headerValue) := trim_eq_iff.mp rfl
  refine trim_eq_iff.mpr ⟨⟨[], [], by simp, by simp, by simp⟩, ?_, ?_⟩
  · intro u hu hspace
    exact hcore.first u hu (by simp [isOws, of_decide_eq_true hspace])
  · intro u hu hspace
    exact hcore.last u hu (by simp [isOws, of_decide_eq_true hspace])

/-- The quoted alternative: an sf-string whose unescaped value may be a key. -/
def QuotedKey (text key : JsString) : Prop := SfString text key ∧ KeyText key

/-- The branch of `parseKey` that reads an sf-string. -/
lemma quoted_iff (headerValue key : JsString) :
    (match parseSfString (trimOws headerValue) with
      | .Fail reason => ParseKeyResult.Fail reason
      | .Ok value => admitKey value true) = .Ok key ↔ QuotedKey (trimOws headerValue) key := by
  have hsf := parseSfString_iff (trimOws headerValue)
  rw [trimSpaces_stripped] at hsf
  cases hparsed : parseSfString (trimOws headerValue) with
  | Fail reason =>
      simp only [reduceCtorEq, false_iff]
      rintro ⟨htext, -⟩
      rw [← hsf, hparsed] at htext
      cases htext
  | Ok value =>
      simp only [admit_eq_ok, validateKey_true_iff, QuotedKey, ← hsf, hparsed,
        SfStringResult.Ok.injEq]
      constructor
      · rintro ⟨hkey, rfl⟩
        exact ⟨rfl, hkey⟩
      · rintro ⟨rfl, hkey⟩
        exact ⟨hkey, rfl⟩

/-- **Strict accepts exactly the quoted keys**, between spaces and tabs. -/
lemma parseKey_strict (headerValue key : JsString) :
    parseKey headerValue .Strict = .Ok key ↔
      ∃ text, Stripped isOws headerValue text ∧ QuotedKey text key := by
  rw [parseKey, if_pos (Or.inl rfl), quoted_iff]
  simp [← trim_eq_iff, trimOws]

/-- **Lenient accepts exactly the bare tokens and the quoted keys**, between spaces and tabs. -/
lemma parseKey_lenient (headerValue key : JsString) :
    parseKey headerValue .Lenient = .Ok key ↔
      ∃ text, Stripped isOws headerValue text ∧
        (BareToken text ∧ key = text ∨ QuotedKey text key) := by
  simp only [← trim_eq_iff, exists_eq_left']
  change _ ↔ BareToken (trimOws headerValue) ∧ key = trimOws headerValue
    ∨ QuotedKey (trimOws headerValue) key
  by_cases hquote : (trimOws headerValue).head? = some 0x22
  · have hbare : ¬ BareToken (trimOws headerValue) := fun h => h.unquoted hquote
    rw [parseKey, if_pos (Or.inr hquote), quoted_iff]
    simp [hbare]
  · have hquoted : ¬ QuotedKey (trimOws headerValue) key := by
      rintro ⟨⟨chars, htext, -⟩, -⟩
      rw [htext] at hquote
      exact hquote rfl
    rw [parseKey, if_neg (by simp [hquote]), admit_eq_ok, validateKey_false_iff]
    constructor
    · rintro ⟨⟨hone, hshort, hunits⟩, rfl⟩
      exact Or.inl ⟨⟨hone, hshort, hunits, hquote⟩, rfl⟩
    · rintro (⟨hbare, rfl⟩ | h)
      · exact ⟨⟨hbare.nonempty, hbare.short, hbare.visible⟩, rfl⟩
      · exact absurd h hquoted

/-! ## Quoting -/

lemma sfChars_quote {key : JsString} (h : ∀ u ∈ key, 0x20 ≤ u ∧ u ≤ 0x7e) :
    SfChars (key.flatMap quoteChar) key := by
  induction key with
  | nil => exact .nil
  | cons u rest ih =>
      rw [List.forall_mem_cons] at h
      rw [List.flatMap_cons, quoteChar]
      split_ifs with hescape
      · exact .escaped hescape (ih h.2)
      · rw [not_or] at hescape
        exact .unescaped h.1.1 h.1.2 hescape.1 hescape.2 (ih h.2)

/-- A key in quotes, between any spaces and tabs, is stripped to the key in quotes. -/
lemma stripped_quoteKey (key : JsString) {lead trail : JsString} (hlead : ∀ u ∈ lead, isOws u)
    (htrail : ∀ u ∈ trail, isOws u) : Stripped isOws (lead ++ quoteKey key ++ trail) (quoteKey key) := by
  refine ⟨⟨lead, trail, rfl, hlead, htrail⟩, ?_, ?_⟩
  · intro u hu
    cases hu
    decide
  · intro u hu
    rw [quoteKey, ← List.cons_append, List.getLast?_concat] at hu
    cases hu
    decide

/-- **A quoted key parses back**, in both syntaxes. -/
lemma parseKey_quoteKey {key lead trail : JsString} (keySyntax : KeySyntax) (hkey : KeyText key)
    (hlead : ∀ u ∈ lead, isOws u) (htrail : ∀ u ∈ trail, isOws u) :
    parseKey (lead ++ quoteKey key ++ trail) keySyntax = .Ok key := by
  have hcore := stripped_quoteKey key hlead htrail
  have hquoted : QuotedKey (quoteKey key) key :=
    ⟨⟨_, rfl, sfChars_quote hkey.printable⟩, hkey⟩
  cases keySyntax with
  | Strict => exact (parseKey_strict _ key).mpr ⟨_, hcore, hquoted⟩
  | Lenient => exact (parseKey_lenient _ key).mpr ⟨_, hcore, Or.inr hquoted⟩

/-- Whenever strict succeeds, lenient returns the same key. -/
lemma parseKey_lenient_of_strict {headerValue key : JsString}
    (h : parseKey headerValue .Strict = .Ok key) : parseKey headerValue .Lenient = .Ok key := by
  obtain ⟨text, hcore, hquoted⟩ := (parseKey_strict headerValue key).mp h
  exact (parseKey_lenient headerValue key).mpr ⟨text, hcore, Or.inr hquoted⟩

end Anyonce
