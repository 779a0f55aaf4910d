import Anyonce.KeyParser
import Anyonce.Go.Types

/-!
# The Go key parser

`ValidateKey` and `ParseKey` of `go/anyonce/key.go` and `ParseSfString` of `go/anyonce/sfstring.go`,
over bytes.  Every error wraps `ErrInvalidKey` and is modelled by its text.

A Go string holds UTF-8 and a JavaScript string UTF-16, so the two parsers index different units.
`parseKey_parity` says that this never shows: on the two encodings of one text they accept the same
keys, and refuse for the same reason at the same index.
-/

namespace Anyonce.Go

open Unicode

/-- The text of an error that wraps `ErrInvalidKey`. -/
def invalidKey (reason : String) : String := "anyonce: invalid key: " ++ reason

/-- The loop over the key's bytes, from index `i`. -/
def validateBytes (allowSpace : Bool) : GoString → ℕ → Except String Unit
  | [], _ => .ok ()
  | c :: rest, i =>
      if c = 0x20 ∧ allowSpace then validateBytes allowSpace rest (i + 1)
      else if c < 0x21 ∨ c > 0x7e then
        .error (invalidKey s!"key contains a character outside printable ASCII at index {i}")
      else validateBytes allowSpace rest (i + 1)

/-- `ValidateKey` enforces REQ-CORE-2: 1 to 255 bytes of printable ASCII (0x21..0x7E); space only when
`allowSpace`. -/
def validateKey (key : GoString) (allowSpace : Bool) : Except String Unit := do
  if key = [] then throw (invalidKey "key is empty")
  validateBytes allowSpace key 0
  if key.length > maxKeyBytes then throw (invalidKey s!"key exceeds {maxKeyBytes} bytes")

lemma validateBytes_bytes {allowSpace : Bool} {key : GoString} {i : ℕ}
    (h : validateBytes allowSpace key i = .ok ()) : ∀ c ∈ key, 0x20 ≤ c ∧ c ≤ 0x7e := by
  induction key generalizing i with
  | nil => simp
  | cons b rest ih =>
      rw [validateBytes] at h
      intro c hc
      split_ifs at h with hspace hrange
      · rcases List.mem_cons.mp hc with rfl | hc
        · rw [hspace.1]
          decide
        · exact ih h c hc
      · rw [not_or] at hrange
        rcases List.mem_cons.mp hc with rfl | hc
        · exact ⟨UInt8.le_trans (by decide) (UInt8.not_lt.mp hrange.1), UInt8.not_lt.mp hrange.2⟩
        · exact ih h c hc

/-- The loop finds nothing wrong with an admitted key. -/
lemma validateBytes_of_validateKey {key : GoString} {allowSpace : Bool}
    (h : validateKey key allowSpace = .ok ()) : validateBytes allowSpace key 0 = .ok () := by
  rw [validateKey] at h
  cases hv : validateBytes allowSpace key 0 with
  | ok u => rfl
  | error reason =>
      rw [hv] at h
      split_ifs at h <;> cases h

/-- An admitted key contains no NUL. -/
lemma zero_not_mem_of_validateKey {key : GoString} {allowSpace : Bool}
    (h : validateKey key allowSpace = .ok ()) : 0x00 ∉ key := by
  intro hmem
  exact absurd (validateBytes_bytes (validateBytes_of_validateKey h) 0x00 hmem).1 (by decide)

/-- `trimOWS` strips HTTP optional whitespace from both ends. -/
def trimOWS (s : GoString) : GoString := trim (fun c => c = 0x20 || c = 0x09) s

/-- The loop of `ParseSfString` from index `i`, with what it has written so far in `out`. -/
def parseSfBytes : GoString → ℕ → GoString → Except String GoString
  | [], _, _ => .error (invalidKey "unterminated quote")
  | c :: rest, i, out =>
      if c = 0x5c then
        match rest with
        | [] => .error (invalidKey "unterminated escape")
        | next :: rest =>
            if next ≠ 0x22 ∧ next ≠ 0x5c then
              .error (invalidKey s!"invalid escape at index {i + 1}")
            else parseSfBytes rest (i + 2) (out ++ [next])
      else if c = 0x22 then
        if rest ≠ [] then .error (invalidKey "trailing characters after the closing quote")
        else .ok out
      else if c < 0x20 ∨ c > 0x7e then
        .error (invalidKey "non-printable or non-ASCII character in sf-string")
      else parseSfBytes rest (i + 1) (out ++ [c])

/-- `parseSfString`: a quoted string, with `\"` and `\\` as its only escapes. -/
def parseSfString (input : GoString) : Except String GoString :=
  match trim (fun c => c = 0x20) input with
  | [] => .error (invalidKey "not an sf-string: missing opening quote")
  | c :: rest =>
      if c ≠ 0x22 then .error (invalidKey "not an sf-string: missing opening quote")
      else parseSfBytes rest 1 []

/-- `ParseKey` applies D7: lenient accepts a bare token or a quoted sf-string, strict accepts only an
sf-string. -/
def parseKey (headerValue : GoString) (keySyntax : KeySyntax) : Except String GoString := do
  let trimmed := trimOWS headerValue
  if keySyntax = .Strict ∨ trimmed.head? = some 0x22 then
    let value ← parseSfString trimmed
    validateKey value true
    return value
  validateKey trimmed false
  return trimmed

/-! ## One character in both encodings -/

/-- A character is one ASCII unit of the same number in both encodings, or a group of units above
ASCII in both. -/
lemma char_cases (c : Char) :
    (∃ n, n < 0x80 ∧ utf16Char c = [UInt16.ofNat n] ∧ utf8Char c = [UInt8.ofNat n]) ∨
    ∃ (u : UInt16) (us : List UInt16) (b : UInt8) (bs : List UInt8), utf16Char c = u :: us ∧
      utf8Char c = b :: bs ∧ 0x80 ≤ u.toNat ∧ 0x80 ≤ b.toNat := by
  by_cases hc : c.toNat < 0x80
  · exact Or.inl ⟨c.toNat, hc, utf16Char_ascii hc, utf8Char_ascii hc⟩
  · have hwide : 0x80 ≤ c.toNat := by omega
    obtain ⟨u, us, hu⟩ := List.exists_cons_of_ne_nil (utf16Char_ne_nil c)
    obtain ⟨b, bs, hb⟩ := List.exists_cons_of_ne_nil (utf8Char_ne_nil c)
    exact Or.inr ⟨u, us, b, bs, hu, hb, utf16Char_wide hwide u (by simp [hu]),
      utf8Char_wide hwide b (by simp [hb])⟩

section Ascii

variable {n : ℕ} (hn : n < 0x80)

include hn

lemma unit_toNat : (UInt16.ofNat n).toNat = n := by
  rw [UInt16.toNat_ofNat']
  omega

lemma byte_toNat : (UInt8.ofNat n).toNat = n := by
  rw [UInt8.toNat_ofNat']
  omega

lemma unit_eq_iff (k : UInt16) : UInt16.ofNat n = k ↔ n = k.toNat := by
  rw [← UInt16.toNat_inj, unit_toNat hn]

lemma byte_eq_iff (k : UInt8) : UInt8.ofNat n = k ↔ n = k.toNat := by
  rw [← UInt8.toNat_inj, byte_toNat hn]

lemma unit_lt_iff (k : UInt16) : UInt16.ofNat n < k ↔ n < k.toNat := by
  rw [UInt16.lt_iff_toNat_lt, unit_toNat hn]

lemma byte_lt_iff (k : UInt8) : UInt8.ofNat n < k ↔ n < k.toNat := by
  rw [UInt8.lt_iff_toNat_lt, byte_toNat hn]

lemma unit_gt_iff (k : UInt16) : UInt16.ofNat n > k ↔ k.toNat < n := by
  rw [gt_iff_lt, UInt16.lt_iff_toNat_lt, unit_toNat hn]

lemma byte_gt_iff (k : UInt8) : UInt8.ofNat n > k ↔ k.toNat < n := by
  rw [gt_iff_lt, UInt8.lt_iff_toNat_lt, byte_toNat hn]

end Ascii

section Wide

variable {u : UInt16} {b : UInt8} (hu : 0x80 ≤ u.toNat) (hb : 0x80 ≤ b.toNat)

include hu in
lemma unit_ne {k : UInt16} (hk : k.toNat < 0x80) : u ≠ k := by
  rintro rfl
  omega

include hb in
lemma byte_ne {k : UInt8} (hk : k.toNat < 0x80) : b ≠ k := by
  rintro rfl
  omega

include hu in
lemma unit_gt {k : UInt16} (hk : k.toNat < 0x80) : u > k := by
  rw [gt_iff_lt, UInt16.lt_iff_toNat_lt]
  omega

include hb in
lemma byte_gt {k : UInt8} (hk : k.toNat < 0x80) : b > k := by
  rw [gt_iff_lt, UInt8.lt_iff_toNat_lt]
  omega

end Wide

/-! ## The same outcome -/

/-- What Go returns where TypeScript returns this. -/
def ofValidation : KeyValidation → Except String Unit
  | .Ok => .ok ()
  | .Fail reason => .error (invalidKey reason)

lemma validateBytes_utf8 (allowSpace : Bool) (cs : List Char) (i : ℕ) :
    validateBytes allowSpace (utf8 cs) i = ofValidation (validateUnits allowSpace (utf16 cs) i) := by
  induction cs generalizing i with
  | nil => rfl
  | cons c cs ih =>
      rcases char_cases c with ⟨n, hn, h16, h8⟩ | ⟨u, us, b, bs, h16, h8, hu, hb⟩
      · simp only [utf16_cons, utf8_cons, h16, h8, List.singleton_append, validateBytes,
          validateUnits, ih, unit_eq_iff hn, byte_eq_iff hn, unit_lt_iff hn, byte_lt_iff hn,
          unit_gt_iff hn, byte_gt_iff hn]
        simp only [UInt16.reduceToNat, UInt8.reduceToNat]
        split_ifs <;> rfl
      · have hspace : ¬ (u = 0x20 ∧ allowSpace) := fun h => unit_ne hu (by decide) h.1
        have hspace' : ¬ (b = 0x20 ∧ allowSpace) := fun h => byte_ne hb (by decide) h.1
        simp only [utf16_cons, utf8_cons, h16, h8, List.cons_append, validateBytes, validateUnits,
          if_neg hspace, if_neg hspace', if_pos (Or.inr (unit_gt hu (k := 0x7e) (by decide))),
          if_pos (Or.inr (byte_gt hb (k := 0x7e) (by decide)))]
        rfl

lemma utf16_eq_nil_iff (cs : List Char) : utf16 cs = [] ↔ cs = [] := by
  cases cs with
  | nil => simp
  | cons c cs => simp [utf16Char_ne_nil]

lemma utf8_eq_nil_iff (cs : List Char) : utf8 cs = [] ↔ cs = [] := by
  cases cs with
  | nil => simp
  | cons c cs => simp [utf8Char_ne_nil]

/-- What both encodings of a text hold when all of it is ASCII: as many units as characters. -/
lemma length_of_validateUnits {allowSpace : Bool} {cs : List Char} {i : ℕ}
    (h : validateUnits allowSpace (utf16 cs) i = .Ok) : (utf8 cs).length = (utf16 cs).length := by
  induction cs generalizing i with
  | nil => rfl
  | cons c cs ih =>
      have hunits := (validateUnits_iff _ _).mp h
      rcases char_cases c with ⟨n, hn, h16, h8⟩ | ⟨u, us, b, bs, h16, h8, hu, hb⟩
      · have hrest : validateUnits allowSpace (utf16 cs) i = .Ok := by
          refine (validateUnits_iff _ _).mpr ?_
          intro u hu
          exact hunits u (by simp [hu])
        simp [h16, h8, ih hrest]
      · have hhead := hunits u (by simp [h16])
        rcases hhead with ⟨hspace, -⟩ | ⟨-, hle⟩
        · exact absurd hspace (unit_ne hu (by decide))
        · exact absurd hle (UInt16.not_le.mpr (unit_gt hu (by decide)))

/-- **Both validators say the same** about the two encodings of a text. -/
lemma validateKey_utf8 (cs : List Char) (allowSpace : Bool) :
    validateKey (utf8 cs) allowSpace = ofValidation (Anyonce.validateKey (utf16 cs) allowSpace) := by
  unfold validateKey Anyonce.validateKey
  rw [validateBytes_utf8]
  by_cases hempty : cs = []
  · subst hempty
    rfl
  · have h8 : ¬ utf8 cs = [] := by rwa [utf8_eq_nil_iff]
    have h16 : ¬ (utf16 cs).length = 0 := by rwa [List.length_eq_zero_iff, utf16_eq_nil_iff]
    cases hunits : validateUnits allowSpace (utf16 cs) 0 with
    | Fail reason => simp [h8, h16, ofValidation, bind, Except.bind]
    | Ok =>
        simp only [if_neg h8, if_neg h16, ofValidation, length_of_validateUnits hunits]
        by_cases hlong : (utf16 cs).length > maxKeyBytes
        · simp [hlong, bind, Except.bind, throw, throwThe, MonadExceptOf.throw]
        · simp [hlong, bind, Except.bind, pure, Except.pure]

/-- The two outcomes of reading an sf-string are the same. -/
inductive SameSf : SfStringResult → Except String GoString → Prop
  | ok (value : List Char) : SameSf (.Ok (utf16 value)) (.ok (utf8 value))
  | fail (reason : String) : SameSf (.Fail reason) (.error (invalidKey reason))

/-- What follows a backslash: the end of the text, a quote or a backslash, or anything else. -/
lemma parseSfBytes_escape (cs : List Char) (i : ℕ) (out : List Char)
    (ih : ∀ (d : Char) (ds : List Char), cs = d :: ds →
      SameSf (parseSfChars (utf16 ds) (i + 2) (utf16 (out ++ [d])))
        (parseSfBytes (utf8 ds) (i + 2) (utf8 (out ++ [d])))) :
    SameSf (parseSfChars (0x5c :: utf16 cs) i (utf16 out))
      (parseSfBytes (0x5c :: utf8 cs) i (utf8 out)) := by
  cases cs with
  | nil => exact .fail _
  | cons d ds =>
      rcases char_cases d with ⟨n, hn, h16, h8⟩ | ⟨u, us, b, bs, h16, h8, hu, hb⟩
      · have hrest := ih d ds rfl
        simp only [utf16_append, utf8_append, utf16_cons, utf8_cons, utf16_nil, utf8_nil, h16, h8,
          List.append_nil] at hrest
        simp only [utf16_cons, utf8_cons, h16, h8, List.singleton_append]
        rw [parseSfChars.eq_def, parseSfBytes.eq_def]
        simp only [if_true, ne_eq, unit_eq_iff hn, byte_eq_iff hn]
        simp only [UInt16.reduceToNat, UInt8.reduceToNat]
        split_ifs
        · exact .fail _
        · exact hrest
      · have hbad : u ≠ 0x22 ∧ u ≠ 0x5c := ⟨unit_ne hu (by decide), unit_ne hu (by decide)⟩
        have hbad' : b ≠ 0x22 ∧ b ≠ 0x5c := ⟨byte_ne hb (by decide), byte_ne hb (by decide)⟩
        simp only [utf16_cons, utf8_cons, h16, h8, List.cons_append]
        rw [parseSfChars.eq_def, parseSfBytes.eq_def]
        simp only [if_true, if_pos hbad, if_pos hbad']
        exact .fail _

/-- **Both loops read the same sf-string** from the two encodings of a text. -/
lemma parseSfBytes_utf8 : ∀ (cs : List Char) (i : ℕ) (out : List Char),
    SameSf (parseSfChars (utf16 cs) i (utf16 out)) (parseSfBytes (utf8 cs) i (utf8 out))
  | [], i, out => .fail _
  | c :: cs, i, out => by
      rcases char_cases c with ⟨n, hn, h16, h8⟩ | ⟨u, us, b, bs, h16, h8, hu, hb⟩
      · by_cases hslash : n = 0x5c
        · subst hslash
          simp only [utf16_cons, utf8_cons, h16, h8]
          refine parseSfBytes_escape cs i out ?_
          rintro d ds rfl
          exact parseSfBytes_utf8 ds (i + 2) (out ++ [d])
        · have hrest := parseSfBytes_utf8 cs (i + 1) (out ++ [c])
          simp only [utf16_append, utf8_append, utf16_cons, utf8_cons, utf16_nil, utf8_nil, h16, h8,
            List.append_nil] at hrest
          simp only [utf16_cons, utf8_cons, h16, h8, List.singleton_append]
          rw [parseSfChars.eq_def, parseSfBytes.eq_def]
          simp only [ne_eq, unit_eq_iff hn, byte_eq_iff hn, unit_lt_iff hn, byte_lt_iff hn,
            unit_gt_iff hn, byte_gt_iff hn, utf16_eq_nil_iff, utf8_eq_nil_iff]
          simp only [UInt16.reduceToNat, UInt8.reduceToNat, if_neg hslash]
          split_ifs
          · exact .ok out
          · exact .fail _
          · exact .fail _
          · exact hrest
      · simp only [utf16_cons, utf8_cons, h16, h8, List.cons_append]
        rw [parseSfChars.eq_def, parseSfBytes.eq_def]
        simp only [if_neg (unit_ne hu (k := 0x5c) (by decide)),
          if_neg (unit_ne hu (k := 0x22) (by decide)), if_neg (byte_ne hb (k := 0x5c) (by decide)),
          if_neg (byte_ne hb (k := 0x22) (by decide)),
          if_pos (Or.inr (unit_gt hu (k := 0x7e) (by decide))),
          if_pos (Or.inr (byte_gt hb (k := 0x7e) (by decide)))]
        exact .fail _

/-! ## Stripping in both encodings -/

/-- A predicate on ASCII units reads the same character in both encodings. -/
lemma trim_encodings {p : Char → Bool} {q : UInt16 → Bool} {r : UInt8 → Bool}
    (hascii : ∀ c : Char, c.toNat < 0x80 →
      q (UInt16.ofNat c.toNat) = p c ∧ r (UInt8.ofNat c.toNat) = p c)
    (hwide : ∀ c : Char, 0x80 ≤ c.toNat → p c = false) (hq : ∀ u, 0x80 ≤ u.toNat → q u = false)
    (hr : ∀ b, 0x80 ≤ b.toNat → r b = false) (cs : List Char) :
    trim q (utf16 cs) = utf16 (trim p cs) ∧ trim r (utf8 cs) = utf8 (trim p cs) := by
  constructor
  · refine trim_flatMap ?_ ?_ cs
    · intro c hc
      have hlt : c.toNat < 0x80 := by
        by_contra hge
        simp [hwide c (by omega)] at hc
      exact ⟨_, utf16Char_ascii hlt, by rw [(hascii c hlt).1, hc]⟩
    · intro c hc
      refine ⟨utf16Char_ne_nil c, ?_⟩
      intro u hu
      by_cases hlt : c.toNat < 0x80
      · rw [utf16Char_ascii hlt, List.mem_singleton] at hu
        rwa [hu, (hascii c hlt).1]
      · simp [hq u (utf16Char_wide (by omega) u hu)]
  · refine trim_flatMap ?_ ?_ cs
    · intro c hc
      have hlt : c.toNat < 0x80 := by
        by_contra hge
        simp [hwide c (by omega)] at hc
      exact ⟨_, utf8Char_ascii hlt, by rw [(hascii c hlt).2, hc]⟩
    · intro c hc
      refine ⟨utf8Char_ne_nil c, ?_⟩
      intro u hu
      by_cases hlt : c.toNat < 0x80
      · rw [utf8Char_ascii hlt, List.mem_singleton] at hu
        rwa [hu, (hascii c hlt).2]
      · simp [hr u (utf8Char_wide (by omega) u hu)]

/-- The text between spaces, in both encodings. -/
lemma trimSpaces_encodings (cs : List Char) :
    trimSpaces (utf16 cs) = utf16 (trim (fun c => c.toNat = 0x20) cs) ∧
      trim (fun c => c = 0x20) (utf8 cs) = utf8 (trim (fun c => c.toNat = 0x20) cs) := by
  refine trim_encodings ?_ ?_ ?_ ?_ cs
  · intro c hc
    simp [unit_eq_iff hc, byte_eq_iff hc]
  · intro c hc
    simp only [decide_eq_false_iff_not]
    omega
  · intro u hu
    simp [unit_ne hu (k := 0x20) (by decide)]
  · intro b hb
    simp [byte_ne hb (k := 0x20) (by decide)]

/-- The text between spaces and tabs, in both encodings. -/
lemma trimOws_encodings (cs : List Char) :
    trimOws (utf16 cs) = utf16 (trim (fun c => c.toNat = 0x20 || c.toNat = 0x09) cs) ∧
      trimOWS (utf8 cs) = utf8 (trim (fun c => c.toNat = 0x20 || c.toNat = 0x09) cs) := by
  refine trim_encodings ?_ ?_ ?_ ?_ cs
  · intro c hc
    simp [isOws, unit_eq_iff hc, byte_eq_iff hc]
  · intro c hc
    simp only [Bool.or_eq_false_iff, decide_eq_false_iff_not]
    omega
  · intro u hu
    simp [isOws, unit_ne hu (k := 0x20) (by decide), unit_ne hu (k := 0x09) (by decide)]
  · intro b hb
    simp [byte_ne hb (k := 0x20) (by decide), byte_ne hb (k := 0x09) (by decide)]

/-- Whether a text begins with a double quote does not depend on the encoding. -/
lemma quote_encodings (cs : List Char) :
    (utf16 cs).head? = some 0x22 ↔ (utf8 cs).head? = some 0x22 := by
  cases cs with
  | nil => simp
  | cons c cs =>
      rcases char_cases c with ⟨n, hn, h16, h8⟩ | ⟨u, us, b, bs, h16, h8, hu, hb⟩
      · simp [h16, h8, unit_eq_iff hn, byte_eq_iff hn]
      · simp [h16, h8, unit_ne hu (k := 0x22) (by decide), byte_ne hb (k := 0x22) (by decide)]

lemma parseSfString_utf8 (cs : List Char) :
    SameSf (Anyonce.parseSfString (utf16 cs)) (parseSfString (utf8 cs)) := by
  unfold Anyonce.parseSfString parseSfString
  obtain ⟨h16, h8⟩ := trimSpaces_encodings cs
  rw [h16, h8]
  generalize trim (fun c : Char => c.toNat = 0x20) cs = ts
  cases ts with
  | nil => exact .fail _
  | cons c ts =>
      rcases char_cases c with ⟨n, hn, h16, h8⟩ | ⟨u, us, b, bs, h16, h8, hu, hb⟩
      · simp only [utf16_cons, utf8_cons, h16, h8, List.singleton_append, ne_eq, unit_eq_iff hn,
          byte_eq_iff hn]
        simp only [UInt16.reduceToNat, UInt8.reduceToNat]
        split_ifs
        · exact parseSfBytes_utf8 ts 1 []
        · exact .fail _
      · simp only [utf16_cons, utf8_cons, h16, h8, List.cons_append,
          if_pos (unit_ne hu (k := 0x22) (by decide)), if_pos (byte_ne hb (k := 0x22) (by decide))]
        exact .fail _

/-- The two outcomes of parsing a key are the same. -/
inductive SameKey : ParseKeyResult → Except String GoString → Prop
  | ok (key : List Char) : SameKey (.Ok (utf16 key)) (.ok (utf8 key))
  | fail (reason : String) : SameKey (.Fail reason) (.error (invalidKey reason))

lemma admit_utf8 (cs : List Char) (allowSpace : Bool) :
    SameKey (admitKey (utf16 cs) allowSpace)
      (do validateKey (utf8 cs) allowSpace; return utf8 cs) := by
  rw [validateKey_utf8, admitKey]
  cases Anyonce.validateKey (utf16 cs) allowSpace with
  | Ok => exact .ok cs
  | Fail reason => exact .fail reason

/-- **The two parsers agree** on every well-formed text: the same key, or the same refusal. -/
lemma parseKey_parity (cs : List Char) (keySyntax : KeySyntax) :
    SameKey (Anyonce.parseKey (utf16 cs) keySyntax) (parseKey (utf8 cs) keySyntax) := by
  unfold Anyonce.parseKey parseKey
  obtain ⟨h16, h8⟩ := trimOws_encodings cs
  simp only [h16, h8, quote_encodings]
  generalize trim (fun c : Char => c.toNat = 0x20 || c.toNat = 0x09) cs = ts
  split_ifs
  · have hsame := parseSfString_utf8 ts
    generalize Anyonce.parseSfString (utf16 ts) = parsed at hsame ⊢
    generalize parseSfString (utf8 ts) = parsed' at hsame ⊢
    cases hsame with
    | ok value => exact admit_utf8 value true
    | fail reason => exact .fail reason
  · exact admit_utf8 ts false

/-- **The key parser is exact.**  For every header value: what lenient and strict accept and return,
that strict implies lenient, that quoting is inverted whatever surrounds it, and that Go does the same
on the UTF-8 bytes. -/
theorem parseKey_exact (headerValue key : JsString) :
    (Anyonce.parseKey headerValue .Lenient = .Ok key ↔
      ∃ text, Stripped isOws headerValue text ∧
        (BareToken text ∧ key = text ∨ SfString text key ∧ KeyText key)) ∧
    (Anyonce.parseKey headerValue .Strict = .Ok key ↔
      ∃ text, Stripped isOws headerValue text ∧ SfString text key ∧ KeyText key) ∧
    (Anyonce.parseKey headerValue .Strict = .Ok key →
      Anyonce.parseKey headerValue .Lenient = .Ok key) ∧
    (KeyText key → ∀ (lead trail : JsString) (keySyntax : KeySyntax), (∀ u ∈ lead, isOws u) →
      (∀ u ∈ trail, isOws u) →
      Anyonce.parseKey (lead ++ quoteKey key ++ trail) keySyntax = .Ok key) ∧
    ∀ (text : List Char) (keySyntax : KeySyntax), headerValue = utf16 text →
      SameKey (Anyonce.parseKey headerValue keySyntax) (parseKey (utf8 text) keySyntax) := by
  refine ⟨parseKey_lenient headerValue key, parseKey_strict headerValue key,
    parseKey_lenient_of_strict, ?_, ?_⟩
  · intro hkey lead trail keySyntax hlead htrail
    exact parseKey_quoteKey keySyntax hkey hlead htrail
  · rintro text keySyntax rfl
    exact parseKey_parity text keySyntax

example : Anyonce.parseKey (js " \"a\\\\b c\"\t") .Strict = .Ok (js "a\\b c") := by decide +kernel

end Anyonce.Go
