import Anyonce.Core.NumberValue
import Anyonce.Go.Json

/-!
# Canonical JSON in Go

`Canonicalize` of `go/anyonce/jcs.go`: the value is marshalled, decoded again with its numbers as text,
and written by `writeCanonical`, which sorts by UTF-16 although its strings are UTF-8, escapes by hand
and lays numbers out by hand.

TypeScript leaves all three to the runtime.  Both write the same text, `canonicalChars`, each in its
own encoding: `canonicalize_units` and `writeCanonical_chars`.

* `canonicalize_parity` — the UTF-8 encoding of the TypeScript text is the Go text.
-/

namespace Anyonce.Go

open NumberText JsonText JsonTree Unicode
open Ecma (isLead isTrail shortEscape hexDigit)

/-! ## The code -/

/-- Why `Canonicalize` failed.  All but `NonFinite` wrap the error of the package. -/
inductive CanonicalizeError
  | Marshal
  | Decode
  | Range
  | NonFinite
  deriving DecidableEq

/-- The loop of `lessUTF16` over the code units. -/
def lessUnits : List UInt16 → List UInt16 → Bool
  | u :: us, v :: vs => if u ≠ v then u < v else lessUnits us vs
  | us, vs => us.length < vs.length

/-- The order of RFC 8785: by UTF-16 code units. -/
def lessUTF16 (a b : GoString) : Bool := lessUnits (utf16 (runes a)) (utf16 (runes b))

/-- One rune of `writeJSONString`. -/
def writeRune (r : Char) : GoString :=
  if r.toNat = 0x22 then [0x5C, 0x22]
  else if r.toNat = 0x5C then [0x5C, 0x5C]
  else if r.toNat = 0x08 then [0x5C, 0x62]
  else if r.toNat = 0x0C then [0x5C, 0x66]
  else if r.toNat = 0x0A then [0x5C, 0x6E]
  else if r.toNat = 0x0D then [0x5C, 0x72]
  else if r.toNat = 0x09 then [0x5C, 0x74]
  else if r.toNat < 0x20 then
    -- `\u%04x`
    [0x5C, 0x75, (hexDigit (r.toNat / 4096)).toUInt8, (hexDigit (r.toNat / 256 % 16)).toUInt8,
      (hexDigit (r.toNat / 16 % 16)).toUInt8, (hexDigit (r.toNat % 16)).toUInt8]
  else utf8Char r

/-- A string in quotes, with the escapes of RFC 8785 only. -/
def writeJSONString (s : GoString) : GoString := 0x22 :: ((runes s).flatMap writeRune ++ [0x22])

/-- `strconv.FormatFloat(f, 'e', -1, 64)` of `0.d₁d₂…dₖ · 10ⁿ`: one digit before the point, and an
exponent of at least two digits. -/
def formatFloat (digits : List (Fin 10)) (n : ℤ) : List ℕ :=
  let ds := digits.map code
  let e := n - 1
  ds.take 1 ++ (if ds.length = 1 then [] else 0x2E :: ds.drop 1)
    ++ 0x65 :: (if e < 0 then 0x2D else 0x2B)
      :: (if e.natAbs < 10 then 0x30 :: decimal e.natAbs else decimal e.natAbs)

/-- `strconv.Atoi`, on a text it accepts. -/
def atoi : List ℕ → ℤ
  | [] => 0
  | c :: ds =>
      if c = 0x2D then -(natValue ds : ℤ)
      else if c = 0x2B then natValue ds
      else natValue (c :: ds)

/-- The text of a positive double, from what `FormatFloat` gives. -/
def es6Magnitude (text : List ℕ) : List ℕ :=
  -- `strings.Cut(text, "e")`
  let mant := text.takeWhile fun c => c ≠ 0x65
  let expStr := (text.dropWhile fun c => c ≠ 0x65).drop 1
  let exp := atoi expStr
  let digits := mant.erase 0x2E
  let k : ℤ := digits.length
  let n := exp + 1
  if k ≤ n ∧ n ≤ 21 then digits ++ List.replicate (n - k).toNat 0x30
  else if 0 < n ∧ n ≤ 21 then digits.take n.toNat ++ 0x2E :: digits.drop n.toNat
  else if -6 < n ∧ n ≤ 0 then 0x30 :: 0x2E :: (List.replicate (-n).toNat 0x30 ++ digits)
  else
    let e := n - 1
    let sign := if e < 0 then 0x2D else 0x2B
    if k = 1 then digits ++ 0x65 :: sign :: decimal e.natAbs
    else digits.take 1 ++ 0x2E :: digits.drop 1 ++ 0x65 :: sign :: decimal e.natAbs

section

variable {F : Type} (d : Doubles F)

/-- `es6Number` formats `f` exactly as ECMAScript `Number::toString` does. -/
def es6Number : Number F → Except CanonicalizeError GoString
  | .Finite f =>
      if d.isZero f then .ok [0x30]
      else
        let out := es6Magnitude (formatFloat (d.digits f) (d.exponent f))
        .ok ((if d.signbit f then 0x2D :: out else out).map UInt8.ofNat)
  | _ => .error .NonFinite

/-- `Float64` of a `json.Number`; a number out of range is an error. -/
def float64 (token : List ℕ) : Except CanonicalizeError (Number F) :=
  match d.read token with
  | .Finite f => .ok (.Finite f)
  | _ => .error .Range

/-- The keys of a map in the order of `lessUTF16`. -/
def sortKeys (keys : List GoString) : List GoString :=
  keys.insertionSort fun a b => lessUTF16 b a = false

mutual

/-- The canonical form of a tree: members in order, numbers in the layout of ECMAScript. -/
def writeCanonical : JsonTree (List ℕ) GoString → Except CanonicalizeError GoString
  | .Null => .ok (ascii "null")
  | .Boolean b => .ok (if b then ascii "true" else ascii "false")
  | .Num token => do
      let f ← float64 d token
      es6Number d f
  | .Str s => .ok (writeJSONString s)
  | .Arr items => do
      let items ← writeItems items
      return 0x5B :: (join 0x2C items ++ [0x5D])
  | .Obj members => do
      let texts := writeMembers members
      let keys := sortKeys (members.map Prod.fst).dedup
      let members ← (keys.filterMap fun k => (last k texts).map (k, ·)).mapM fun m =>
        m.2.map fun text => writeJSONString m.1 ++ 0x3A :: text
      return 0x7B :: (join 0x2C members ++ [0x7D])

def writeItems : List (JsonTree (List ℕ) GoString) → Except CanonicalizeError (List GoString)
  | [] => .ok []
  | v :: rest => do
      let item ← writeCanonical v
      let rest ← writeItems rest
      return item :: rest

/-- What each entry of a map would be written as. -/
def writeMembers : List (GoString × JsonTree (List ℕ) GoString) →
    List (GoString × Except CanonicalizeError GoString)
  | [] => []
  | (k, v) :: rest => (k, writeCanonical v) :: writeMembers rest

end

/-- `Canonicalize` produces the RFC 8785 (JCS) form of any value `encoding/json` can marshal. -/
def canonicalize (v : JsonTree (Number F) GoString) : Except CanonicalizeError GoString :=
  match marshal d v with
  | none => .error .Marshal
  | some data =>
      match decodeNumbers data with
      | none => .error .Decode
      | some tree => writeCanonical d tree

end

/-! ## The order of names -/

/-- How names that are characters are sorted: by their code units. -/
def charKey (cs : List Char) : List ℕ := unitKey (utf16 cs)

lemma lessUnits_iff (us vs : List UInt16) : lessUnits us vs = true ↔ unitKey us < unitKey vs := by
  induction us generalizing vs with
  | nil =>
      cases vs with
      | nil => simp [lessUnits, unitKey]
      | cons v vs => simp [lessUnits, unitKey]
  | cons u us ih =>
      cases vs with
      | nil => simp [lessUnits, unitKey]
      | cons v vs =>
          rw [lessUnits, unitKey, List.map_cons, unitKey, List.map_cons, List.cons_lt_cons_iff,
            ← unitKey, ← unitKey, ← ih, UInt16.toNat_inj, ← UInt16.lt_iff_toNat_lt]
          by_cases h : u = v
          · simp [h]
          · simp [h]

/-- **`lessUTF16` is the order of the code units.** -/
lemma sortKeys_eq (keys : List GoString) :
    sortKeys keys = keys.insertionSort fun a b => charKey (runes a) ≤ charKey (runes b) := by
  have hrel : (fun a b : GoString => lessUTF16 b a = false)
      = fun a b => charKey (runes a) ≤ charKey (runes b) := by
    funext a b
    rw [lessUTF16, ← Bool.not_eq_true, lessUnits_iff, not_lt]
    rfl
  unfold sortKeys
  congr 1

lemma charKey_injective : Function.Injective charKey :=
  unitKey_injective.comp utf16_injective

/-! ## Strings -/

/-- A character as both languages write it. -/
def plainChar (c : Char) : Piece Char := escapeChar (fun _ => false) c

lemma plainChar_valid (c : Char) : (plainChar c).Valid := escapeChar_valid nofun

/-- **`writeRune`** writes the character as the piece it is. -/
lemma writeRune_eq (c : Char) :
    writeRune c = (expandPiece utf8Char (plainChar c)).flatMap writePiece := by
  by_cases hc : c.toNat < 0x80
  · have hascii : ∀ n, n < 0x80 → writeRune (Char.ofNat n)
        = (expandPiece utf8Char (plainChar (Char.ofNat n))).flatMap writePiece := by
      decide +kernel
    have h := hascii c.toNat hc
    rwa [Char.ofNat_toNat] at h
  · have hraw : plainChar c = .Raw c := by
      rw [plainChar, escapeChar, if_neg hc]
      exact if_neg (by simp; omega)
    rw [hraw, writeRune]
    repeat rw [if_neg (by omega)]
    simp [expandPiece, List.flatMap_map, writePiece]

lemma writeJSONString_eq (cs : List Char) :
    writeJSONString (utf8 cs) = quoted (expandPieces utf8Char (cs.map plainChar)) := by
  rw [writeJSONString, runes_utf8, quoted, expandPieces, List.flatMap_map, List.flatMap_assoc]
  simp only [← writeRune_eq]
  rfl

/-! ## Numbers -/

section Numbers

/-- The exponent is read back from what `FormatFloat` writes. -/
lemma atoi_exponent (e : ℤ) :
    atoi ((if e < 0 then 0x2D else 0x2B)
      :: (if e.natAbs < 10 then 0x30 :: decimal e.natAbs else decimal e.natAbs)) = e := by
  have hvalue : natValue (if e.natAbs < 10 then 0x30 :: decimal e.natAbs else decimal e.natAbs)
      = e.natAbs := by
    split_ifs
    · exact natValue_decimal e.natAbs
    · exact natValue_decimal e.natAbs
  rw [atoi, hvalue]
  split_ifs <;> omega

/-- What `FormatFloat` writes is cut at the letter. -/
lemma formatFloat_cut (digit : Fin 10) (ds : List (Fin 10)) (n : ℤ) :
    ((formatFloat (digit :: ds) n).takeWhile fun c => c ≠ 0x65).erase 0x2E = (digit :: ds).map code
      ∧ atoi (((formatFloat (digit :: ds) n).dropWhile fun c => c ≠ 0x65).drop 1) = n - 1 := by
  have hcodes : ∀ c ∈ (digit :: ds).map code, c ≠ 0x65 ∧ c ≠ 0x2E := by
    intro c hc
    obtain ⟨x, -, rfl⟩ := List.mem_map.mp hc
    have hx := x.isLt
    constructor <;> simp only [code] <;> omega
  set mant := ((digit :: ds).map code).take 1 ++ (if ((digit :: ds).map code).length = 1 then []
    else 0x2E :: ((digit :: ds).map code).drop 1) with hmant
  have hclean : ∀ c ∈ mant, decide (c ≠ 0x65) = true := by
    intro c hc
    refine decide_eq_true ?_
    rw [hmant, List.mem_append] at hc
    rcases hc with hc | hc
    · exact (hcodes c (List.mem_of_mem_take hc)).1
    · split_ifs at hc with hone
      · cases hc
      · rcases List.mem_cons.mp hc with rfl | hc
        · decide
        · exact (hcodes c (List.mem_of_mem_drop hc)).1
  have hdigits : mant.erase 0x2E = (digit :: ds).map code := by
    have hfirst : code digit ≠ 0x2E := (hcodes _ (by simp)).2
    rw [hmant]
    cases ds with
    | nil => simp [hfirst]
    | cons x ds => simp [hfirst]
  rw [formatFloat, ← hmant, List.takeWhile_append_of_pos hclean, List.dropWhile_append_of_pos hclean]
  refine ⟨?_, ?_⟩
  · simpa using hdigits
  · simpa using atoi_exponent (n - 1)

/-- **The layout by hand is the layout of ECMA-262.** -/
lemma es6Magnitude_formatFloat (digit : Fin 10) (ds : List (Fin 10)) (n : ℤ) :
    es6Magnitude (formatFloat (digit :: ds) n) = layout (digit :: ds) n := by
  obtain ⟨hdigits, hexp⟩ := formatFloat_cut digit ds n
  rw [es6Magnitude]
  dsimp only
  rw [hdigits, hexp]
  have hone : (((digit :: ds).length : ℕ) : ℤ) = 1 ↔ (digit :: ds).length = 1 := by omega
  rw [layout, show n - 1 + 1 = n by omega, List.length_map]
  simp only [exponentText, hone]

variable {F : Type} (d : Doubles F)

/-- **`es6Number`** gives the text of `Number::toString`. -/
lemma es6Number_finite (f : F) : es6Number d (.Finite f) = .ok ((d.toText f).map UInt8.ofNat) := by
  rw [es6Number, Runtime.toText]
  split_ifs with hz hs
  · rfl
  · obtain ⟨digit, ds, hdigits, -⟩ := d.digits_head f (by simpa using hz)
    rw [Runtime.signed, if_pos hs, Runtime.magnitude, if_neg hz, hdigits,
      es6Magnitude_formatFloat]
  · obtain ⟨digit, ds, hdigits, -⟩ := d.digits_head f (by simpa using hz)
    rw [Runtime.signed, if_neg hs, Runtime.magnitude, if_neg hz, hdigits,
      es6Magnitude_formatFloat]

end Numbers

/-! ## The text both languages write -/

section

variable {F : Type} (d : Doubles F)

/-- The canonical tree of a value whose strings are texts, in characters. -/
def canonicalChars (v : JsonTree F (List Char)) : Source Char :=
  (canonical charKey v).map d.toText (List.map plainChar)

lemma canonicalChars_valid (v : JsonTree F (List Char)) : Valid (canonicalChars d v) := by
  rw [canonicalChars, Valid, all_map]
  refine all_of_forall d.isNumber_toText (fun cs p hp => ?_) _
  obtain ⟨c, -, rfl⟩ := List.mem_map.mp hp
  exact plainChar_valid c

lemma canonicalChars_arr (items : List (JsonTree F (List Char))) :
    canonicalChars d (.Arr items) = .Arr (items.map (canonicalChars d)) := by
  rw [canonicalChars, canonical_arr, map_arr, List.map_map]
  rfl

lemma canonicalChars_obj (members : List (List Char × JsonTree F (List Char))) :
    canonicalChars d (.Obj members) = .Obj ((ordered charKey members).map
      (Prod.map (List.map plainChar) (canonicalChars d))) := by
  rw [canonicalChars, canonical_obj, map_obj, ordered_values, List.map_map]
  rfl

lemma writeMembers_eq (members : List (GoString × JsonTree (List ℕ) GoString)) :
    writeMembers d members = members.map (Prod.map id (writeCanonical d)) := by
  induction members with
  | nil => rw [writeMembers, List.map_nil]
  | cons m rest ih =>
      rw [writeMembers, ih]
      rfl

lemma writeItems_ok {items : List (JsonTree (List ℕ) GoString)} {texts : List GoString}
    (h : items.map (writeCanonical d) = texts.map .ok) : writeItems d items = .ok texts := by
  induction items generalizing texts with
  | nil =>
      obtain rfl : texts = [] := by simpa using h.symm
      rw [writeItems]
  | cons v items ih =>
      obtain ⟨text, texts', rfl, htext, htexts⟩ := List.map_eq_cons_iff.mp h.symm
      rw [writeItems, ← htext, ih htexts.symm]
      rfl

/-- **`writeCanonical`** writes the canonical text in UTF-8. -/
theorem writeCanonical_chars (v : JsonTree F (List Char)) :
    writeCanonical d (v.map d.signed utf8) = .ok (write (expand utf8Char (canonicalChars d v))) := by
  induction v using induction with
  | Null =>
      simp only [map_null, writeCanonical, canonicalChars, canonical, expand, write]
      rfl
  | Boolean b =>
      simp only [map_bool, writeCanonical, canonicalChars, canonical, expand, write]
      cases b <;> rfl
  | Num f =>
      simp only [map_num, writeCanonical, canonicalChars, canonical, expand, write, float64,
        d.read_signed]
      exact es6Number_finite d f
  | Str s =>
      simp only [map_str, writeCanonical, canonicalChars, canonical, expand, write,
        writeJSONString_eq]
      rfl
  | Arr items ih =>
      have hitems : (items.map fun v => v.map d.signed utf8).map (writeCanonical d)
          = (items.map fun v => write (expand utf8Char (canonicalChars d v))).map .ok := by
        rw [List.map_map, List.map_map]
        exact List.map_congr_left ih
      rw [map_arr, writeCanonical, writeItems_ok d hitems, canonicalChars_arr]
      simp only [expand, map_arr, write, fold_arr, List.map_map]
      rfl
  | Obj members ih =>
      have htexts : writeMembers d (members.map (Prod.map utf8 fun v => v.map d.signed utf8))
          = members.map (Prod.map utf8 fun v =>
            .ok (write (expand utf8Char (canonicalChars d v)))) := by
        rw [writeMembers_eq, List.map_map]
        refine List.map_congr_left ?_
        intro m hm
        exact Prod.ext rfl (ih m hm)
      have hkeys : sortKeys ((members.map (Prod.map utf8 fun v => v.map d.signed utf8)).map
            Prod.fst).dedup
          = sortedNames (fun s => charKey (runes s)) (members.map (Prod.map utf8 fun v =>
            Except.ok (ε := CanonicalizeError) (write (expand utf8Char (canonicalChars d v))))) := by
        rw [sortKeys_eq, sortedNames, List.map_map, List.map_map]
        rfl
      have hordered : ordered (fun s => charKey (runes s)) (members.map (Prod.map utf8 fun v =>
            Except.ok (ε := CanonicalizeError) (write (expand utf8Char (canonicalChars d v)))))
          = (ordered charKey members).map (Prod.map utf8 fun v =>
            .ok (write (expand utf8Char (canonicalChars d v)))) :=
        ordered_map utf8_injective (fun cs => congrArg charKey (runes_utf8 cs)) _ members
      have hwritten : ((ordered charKey members).map (Prod.map utf8 fun v =>
            Except.ok (ε := CanonicalizeError) (write (expand utf8Char (canonicalChars d v))))).mapM
            (fun m => m.2.map fun text => writeJSONString m.1 ++ 0x3A :: text)
          = .ok ((ordered charKey members).map fun m =>
            member (expandPieces utf8Char (m.1.map plainChar),
              write (expand utf8Char (canonicalChars d m.2)))) := by
        rw [List.mapM_map]
        refine mapM_ok fun m _ => ?_
        simp only [Function.comp, Prod.map, writeJSONString_eq]
        rfl
      rw [ordered] at hordered
      rw [map_obj, writeCanonical, htexts, hkeys]
      simp only [hordered, hwritten]
      rw [canonicalChars_obj]
      simp only [expand, map_obj, write, fold_obj, List.map_map]
      rfl

/-! ## Both languages -/

lemma plainChar_raw {c : Char} (h : 0x80 ≤ c.toNat) : plainChar c = .Raw c := by
  rw [plainChar, escapeChar, if_neg (by omega)]
  exact if_neg (by simp; omega)

/-- A character of one code unit is one piece. -/
lemma escapePiece_char {c : Char} (hbmp : c.toNat < 0x10000) :
    expandPiece utf16Char (plainChar c) = [escapePiece (UInt16.ofNat c.toNat)] := by
  by_cases hc : c.toNat < 0x80
  · have hascii : ∀ n, n < 0x80 → expandPiece utf16Char (plainChar (Char.ofNat n))
        = [escapePiece (UInt16.ofNat n)] := by
      decide +kernel
    have h := hascii c.toNat hc
    rwa [Char.ofNat_toNat] at h
  · have hvalid : c.toNat < 0xD800 ∨ 0xDFFF < c.toNat := c.valid.imp id And.left
    have hu : (UInt16.ofNat c.toNat).toNat = c.toNat := toNat_unit hbmp
    have hshort : shortEscape (UInt16.ofNat c.toNat) = none := by
      unfold shortEscape
      simp only [← UInt16.toNat_inj, hu]
      repeat rw [if_neg (by simp; omega)]
    have hplain : (UInt16.ofNat c.toNat < 0x20 || isLead (UInt16.ofNat c.toNat)
        || isTrail (UInt16.ofNat c.toNat)) = false := by
      rw [← Bool.not_eq_true, Bool.or_eq_true, Bool.or_eq_true, isLead_iff, isTrail_iff,
        decide_eq_true_eq, UInt16.lt_iff_toNat_lt, hu]
      simp
      omega
    rw [plainChar_raw (by omega), escapePiece, hshort]
    simp only [hplain, expandPiece, utf16Char, if_pos hbmp]
    rfl

/-- In UTF-16 the pieces of a text are those of the characters. -/
lemma quotePieces_utf16 (cs : List Char) :
    quotePieces (utf16 cs) = expandPieces utf16Char (cs.map plainChar) := by
  induction cs with
  | nil => rfl
  | cons c cs ih =>
      have hc := toNat_lt c
      have hvalid : c.toNat < 0xD800 ∨ 0xDFFF < c.toNat := c.valid.imp id And.left
      rw [utf16_cons, List.map_cons, expandPieces, List.flatMap_cons, ← expandPieces, ← ih]
      by_cases hbmp : c.toNat < 0x10000
      · have hlead : isLead (UInt16.ofNat c.toNat) = false := by
          rw [← Bool.not_eq_true, isLead_iff, toNat_unit hbmp]
          omega
        rw [escapePiece_char hbmp, utf16Char, if_pos hbmp, List.singleton_append,
          List.singleton_append]
        cases utf16 cs with
        | nil => rfl
        | cons v rest => rw [quotePieces, if_neg (by simp [hlead])]
      · have hpair : (isLead (UInt16.ofNat (0xD800 + (c.toNat - 0x10000) / 0x400))
            && isTrail (UInt16.ofNat (0xDC00 + (c.toNat - 0x10000) % 0x400))) = true := by
          rw [Bool.and_eq_true, isLead_iff, isTrail_iff, toNat_unit (by omega),
            toNat_unit (by omega)]
          omega
        rw [plainChar_raw (by omega), expandPiece, utf16Char, if_neg hbmp, List.cons_append,
          List.singleton_append, quotePieces, if_pos hpair]
        rfl

/-- **`canonicalize` in TypeScript** writes the canonical text in UTF-16. -/
theorem canonicalize_units (v : JsonTree F (List Char)) :
    Anyonce.canonicalize d (toJs (finite (v.map id utf16)))
      = .ok (utf16 (write (canonicalChars d v))) := by
  have hsource : canonicalSource d (v.map id utf16) = expand utf16Char (canonicalChars d v) := by
    rw [canonicalSource, canonical_map utf16_injective fun _ => rfl, map_map, expand, canonicalChars,
      map_map]
    exact congrArg (fun g => (canonical charKey v).map d.toText g) (funext quotePieces_utf16)
  rw [Anyonce.canonicalize, serialize_toJs, hsource,
    write_expand encoding_utf16 (canonicalChars_valid d v)]
  rfl

/-- How deep a value is nested.  A member that a later one of its name replaces does not count. -/
def nesting {N : Type} (v : JsonTree N (List Char)) : ℕ := depth (canonical charKey v)

/-- **`Canonicalize` in Go** writes the canonical text in UTF-8, unless the value is nested too deep to
be decoded. -/
theorem canonicalize_bytes (v : JsonTree F (List Char)) :
    canonicalize d (v.map .Finite utf8)
      = if nesting v ≤ maxNestingDepth then .ok (utf8 (write (canonicalChars d v)))
        else .error .Decode := by
  have hkey : Function.Injective fun cs => byteKey (utf8 cs) :=
    (List.map_injective_iff.mpr fun _ _ h => UInt8.toNat_inj.mp h).comp utf8_injective
  have hsorted : canonicalChars d (canonical (fun cs => byteKey (utf8 cs)) v) = canonicalChars d v :=
    congrArg (JsonTree.map d.toText (List.map plainChar))
      (canonical_congr charKey_injective (meaning_canonical v))
  obtain ⟨data, hmarshal, hdecode⟩ := decodeNumbers_marshal d v
  rw [depth_canonical_key hkey charKey_injective, ← nesting] at hdecode
  simp only [canonicalize, hmarshal, hdecode]
  split_ifs
  · simp only [writeCanonical_chars, hsorted, write_expand encoding_utf8 (canonicalChars_valid d v)]
    rfl
  · rfl

/-- **Both languages write the same text**, for every value that is not nested deeper than
`encoding/json` decodes, and for no other. -/
theorem canonicalize_parity (v : JsonTree F (List Char)) :
    (∃ text, Anyonce.canonicalize d (toJs (finite (v.map id utf16))) = .ok text
        ∧ canonicalize d (v.map .Finite utf8) = .ok (encode text))
      ↔ nesting v ≤ maxNestingDepth := by
  rw [canonicalize_bytes]
  constructor
  · rintro ⟨text, -, hbytes⟩
    by_contra hdeep
    rw [if_neg hdeep] at hbytes
    cases hbytes
  · intro hdepth
    refine ⟨_, canonicalize_units d v, ?_⟩
    rw [if_pos hdepth, encode_utf16]

end

/-- Arrays nested `n` deep. -/
def nestedArrays {N S : Type} : ℕ → JsonTree N S
  | 0 => .Null
  | n + 1 => .Arr [nestedArrays n]

lemma nesting_nestedArrays {N : Type} (n : ℕ) : nesting (nestedArrays n : JsonTree N _) = n := by
  induction n with
  | zero => simp [nestedArrays, nesting, canonical, depth]
  | succ n ih =>
      rw [nesting, nestedArrays, canonical_arr, List.map_singleton, depth_arr, List.map_singleton,
        List.foldr_cons, List.foldr_nil, ← nesting, ih]
      simp

/-- Of 10001 nested arrays TypeScript gives the text and Go an error. -/
theorem canonicalize_deep_diverges :
    (∃ text, Anyonce.canonicalize oneDigit
        (toJs (finite ((nestedArrays 10001 : JsonTree _ (List Char)).map id utf16))) = .ok text)
      ∧ canonicalize oneDigit ((nestedArrays 10001 : JsonTree _ (List Char)).map .Finite utf8)
        = .error .Decode
      ∧ ¬ ∀ v : JsonTree (Bool × Fin 10) (List Char),
        ∃ text, Anyonce.canonicalize oneDigit (toJs (finite (v.map id utf16))) = .ok text
          ∧ canonicalize oneDigit (v.map .Finite utf8) = .ok (encode text) := by
  have hdeep : ¬ nesting (nestedArrays 10001 : JsonTree (Bool × Fin 10) _) ≤ maxNestingDepth := by
    rw [nesting_nestedArrays, maxNestingDepth]
    omega
  have hgo := canonicalize_bytes oneDigit (nestedArrays 10001)
  rw [if_neg hdeep] at hgo
  refine ⟨⟨_, canonicalize_units oneDigit _⟩, hgo, ?_⟩
  intro hparity
  obtain ⟨text, -, hbytes⟩ := hparity (nestedArrays 10001)
  rw [hgo] at hbytes
  cases hbytes

end Anyonce.Go
