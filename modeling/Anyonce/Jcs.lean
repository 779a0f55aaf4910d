import Anyonce.Core.NumberText
import Anyonce.Core.Utf8
import Anyonce.Types

/-!
# Canonical JSON in TypeScript

`canonicalize` of `packages/core/src/jcs.ts`, for every JavaScript value: what is no JSON is refused
with a `JcsError`, a hole in an array is `null`, a property that is `undefined` is dropped, and an
object with a `toJSON` is what that returns.

On the values of JSON it is a normal form.  The tree it writes is the canonical tree of the value
(`serialize_toJs`), and the text of a tree determines the tree, so two values have the same text
exactly when they mean the same.

* `canonicalize_normal_form` — that, and that parsing the text and canonicalizing again gives the text.
-/

namespace Anyonce

open NumberText JsonText JsonTree
open Ecma (quote quoteUnits escapeUnit shortEscape unicodeEscape hexDigit isLead isTrail unescape
  hexUnit)

/-! ## The code -/

/-- A JavaScript value.  `none` in an array is a hole; an object is the list of properties it was given
one after another; `ToJSON` is an object with a `toJSON` method, and what the method returns. -/
inductive JsValue (F : Type)
  | Undefined
  | Null
  | Boolean (b : Bool)
  | Number (n : Number F)
  | BigInt
  | Symbol
  | Function
  | Str (s : JsString)
  | Array (items : List (Option (JsValue F)))
  | Record (members : List (JsString × JsValue F))
  | ToJSON (result : JsValue F)

def JsValue.isUndefined {F : Type} : JsValue F → Bool
  | .Undefined => true
  | _ => false

/-- What `canonicalize` throws. -/
structure JcsError where
  message : JsString
  deriving DecidableEq

/-- Strings are compared by their code units. -/
def unitKey (s : JsString) : List ℕ := s.map UInt16.toNat

section

variable {F : Type} (d : Doubles F)

/-- `JSON.stringify` of a finite number. -/
def stringifyNumber (f : F) : JsString := (d.toText f).map UInt16.ofNat

/-- The error for a value of that `typeof`. -/
def unsupported (type : String) : JcsError := ⟨js (type ++ " values cannot be canonicalized")⟩

mutual

/-- The canonical form of a value; what has none, such as a number that is not finite, is an error. -/
def serialize : JsValue F → Except JcsError JsString
  | .Null => .ok (js "null")
  | .Boolean b => .ok (if b then js "true" else js "false")
  | .Number (.Finite f) => .ok (stringifyNumber d f)
  | .Number _ => .error ⟨js "non-finite numbers cannot be canonicalized"⟩
  | .Str s => .ok (quote s)
  | .ToJSON result => serialize result
  | .Array items => do
      let items ← serializeItems items
      return 0x5B :: (join 0x2C items ++ [0x5D])
  | .Record members => do
      -- the properties in the order of their names, without those that are undefined
      let record := (ordered unitKey (serializeMembers members)).filterMap fun m =>
        m.2.map fun text => text.map fun text => quote m.1 ++ 0x3A :: text
      let members ← record.mapM id
      return 0x7B :: (join 0x2C members ++ [0x7D])
  | .Undefined => .error (unsupported "undefined")
  | .BigInt => .error (unsupported "bigint")
  | .Symbol => .error (unsupported "symbol")
  | .Function => .error (unsupported "function")

/-- The items of an array; a hole is written as `null`. -/
def serializeItems : List (Option (JsValue F)) → Except JcsError (List JsString)
  | [] => .ok []
  | none :: rest => do
      let rest ← serializeItems rest
      return js "null" :: rest
  | some v :: rest => do
      let item ← serialize v
      let rest ← serializeItems rest
      return item :: rest

/-- The texts of the properties, where they are defined. -/
def serializeMembers : List (JsString × JsValue F) →
    List (JsString × Option (Except JcsError JsString))
  | [] => []
  | (key, v) :: rest =>
      (key, if v.isUndefined then none else some (serialize v)) :: serializeMembers rest

end

def canonicalize (value : JsValue F) : Except JcsError JsString := serialize d value

/-- The value `JSON.parse` builds. -/
def toJs : JsonTree (Number F) JsString → JsValue F :=
  fold {
    null := .Null
    bool := .Boolean
    num := .Number
    str := .Str
    arr := fun items => .Array (items.map some)
    obj := .Record }

/-- The code unit a one-letter escape stands for. -/
def shortUnit (e : ℕ) : UInt16 := (unescape (UInt16.ofNat e)).getD 0

/-- The code unit a `\u` escape stands for. -/
def fourHexUnit (a b c e : ℕ) : UInt16 :=
  (hexUnit (UInt16.ofNat a) (UInt16.ofNat b) (UInt16.ofNat c) (UInt16.ofNat e)).getD 0

/-- The code unit a piece of a string stands for. -/
def pieceUnit : Piece UInt16 → UInt16
  | .Raw u => u
  | .Short e => shortUnit e
  | .Hex a b c e => fourHexUnit a b c e

/-- `JSON.parse`; `none` is a `SyntaxError`. -/
def jsonParse (text : JsString) : Option (JsonTree (Number F) JsString) :=
  (parse text).map (JsonTree.map d.read (List.map pieceUnit))

end

/-! ## Strings -/

/-- One code unit of a string outside a surrogate pair, as a piece. -/
def escapePiece (u : UInt16) : Piece UInt16 :=
  match shortEscape u with
  | some e => .Short e.toNat
  | none =>
      if u < 0x20 || isLead u || isTrail u then
        .Hex (hexDigit (u.toNat / 4096)).toNat (hexDigit (u.toNat / 256 % 16)).toNat
          (hexDigit (u.toNat / 16 % 16)).toNat (hexDigit (u.toNat % 16)).toNat
      else .Raw u

/-- A string as `JSON.stringify` writes it, in pieces. -/
def quotePieces : JsString → List (Piece UInt16)
  | [] => []
  | [u] => [escapePiece u]
  | u :: v :: rest =>
      if isLead u && isTrail v then .Raw u :: .Raw v :: quotePieces rest
      else escapePiece u :: quotePieces (v :: rest)

lemma escapeUnit_eq (u : UInt16) : escapeUnit u = writePiece (escapePiece u) := by
  rw [escapeUnit, escapePiece]
  cases shortEscape u with
  | some e => simp [writePiece, sym]
  | none =>
      dsimp only
      split_ifs
      · simp [writePiece, unicodeEscape, sym]
      · rfl

lemma quoteUnits_eq (s : JsString) : quoteUnits s = (quotePieces s).flatMap writePiece := by
  induction s using quotePieces.induct with
  | case1 => rfl
  | case2 u => simp [quoteUnits, quotePieces, escapeUnit_eq]
  | case3 u v rest hpair ih =>
      rw [quoteUnits, quotePieces, if_pos hpair, if_pos hpair, ih]
      rfl
  | case4 u v rest hpair ih =>
      rw [quoteUnits, quotePieces, if_neg hpair, if_neg hpair, ih, escapeUnit_eq, List.flatMap_cons]

lemma quote_eq (s : JsString) : quote s = quoted (quotePieces s) := by
  rw [quote, quoted, quoteUnits_eq]
  rfl

lemma isHex_hexDigit : ∀ n, n < 16 → isHex (hexDigit n).toNat = true := by
  decide

lemma isShort_shortEscape {u e : UInt16} (h : shortEscape u = some e) : isShort e.toNat = true := by
  unfold shortEscape at h
  split_ifs at h <;> cases h <;> decide

/-- A unit that is neither a quote, a backslash nor a control character. -/
lemma raw_valid {u : UInt16} (hquote : u ≠ 0x22) (hslash : u ≠ 0x5C) (hctl : ¬ u < 0x20) :
    (Piece.Raw u).Valid := by
  refine ⟨?_, ?_, ?_⟩
  · exact fun h => hquote (UInt16.toNat_inj.mp h)
  · exact fun h => hslash (UInt16.toNat_inj.mp h)
  · rw [UInt16.lt_iff_toNat_lt] at hctl
    exact not_lt.mp hctl

lemma escapePiece_valid (u : UInt16) : (escapePiece u).Valid := by
  have hu : u.toNat < 65536 := u.toNat_lt
  rw [escapePiece]
  cases hs : shortEscape u with
  | some e => exact isShort_shortEscape hs
  | none =>
      dsimp only
      split_ifs with hesc
      · exact ⟨isHex_hexDigit _ (by omega), isHex_hexDigit _ (by omega),
          isHex_hexDigit _ (by omega), isHex_hexDigit _ (by omega)⟩
      · refine raw_valid ?_ ?_ ?_
        · rintro rfl
          exact absurd hs (by decide)
        · rintro rfl
          exact absurd hs (by decide)
        · intro hlt
          simp [hlt] at hesc

lemma quotePieces_valid (s : JsString) : ∀ p ∈ quotePieces s, p.Valid := by
  induction s using quotePieces.induct with
  | case1 => simp [quotePieces]
  | case2 u => simpa [quotePieces] using escapePiece_valid u
  | case3 u v rest hpair ih =>
      have hpair' := hpair
      rw [Bool.and_eq_true] at hpair'
      obtain ⟨hu1, hu2, hu3⟩ := Ecma.isLead_plain hpair'.1
      obtain ⟨hv1, hv2, hv3⟩ := Ecma.isTrail_plain hpair'.2
      rw [quotePieces, if_pos hpair]
      intro p hp
      rcases List.mem_cons.mp hp with rfl | hp
      · exact raw_valid hu1 hu2 hu3
      · rcases List.mem_cons.mp hp with rfl | hp
        · exact raw_valid hv1 hv2 hv3
        · exact ih p hp
  | case4 u v rest hpair ih =>
      rw [quotePieces, if_neg hpair]
      intro p hp
      rcases List.mem_cons.mp hp with rfl | hp
      · exact escapePiece_valid u
      · exact ih p hp

lemma pieceUnit_escapePiece (u : UInt16) : pieceUnit (escapePiece u) = u := by
  rw [escapePiece]
  cases hs : shortEscape u with
  | some e => simp [pieceUnit, shortUnit, (Ecma.unescape_shortEscape hs).1]
  | none =>
      dsimp only
      split_ifs
      · simp [pieceUnit, fourHexUnit, Ecma.hexUnit_unicodeEscape]
      · rfl

/-- **A string is read back from its pieces.** -/
lemma pieceUnit_quotePieces (s : JsString) : (quotePieces s).map pieceUnit = s := by
  induction s using quotePieces.induct with
  | case1 => rfl
  | case2 u => simp [quotePieces, pieceUnit_escapePiece]
  | case3 u v rest hpair ih => simp [quotePieces, hpair, ih, pieceUnit]
  | case4 u v rest hpair ih => simp [quotePieces, hpair, ih, pieceUnit_escapePiece]

/-! ## The tree that is written -/

section

variable {F : Type} (d : Doubles F)

lemma unitKey_injective : Function.Injective unitKey :=
  List.map_injective_iff.mpr fun _ _ h => UInt16.toNat_inj.mp h

/-- The canonical tree of a value, as it is written. -/
def canonicalSource (v : JsonTree F JsString) : Source UInt16 :=
  (canonical unitKey v).map d.toText quotePieces

/-- A value of JSON, whose numbers are finite, as a value of the language. -/
def finite (v : JsonTree F JsString) : JsonTree (Number F) JsString := v.map .Finite id

lemma canonicalSource_obj (members : List (JsString × JsonTree F JsString)) :
    canonicalSource d (.Obj members)
      = .Obj ((ordered unitKey members).map (Prod.map quotePieces (canonicalSource d))) := by
  rw [canonicalSource, canonical_obj, map_obj, ordered_values, List.map_map]
  rfl

lemma canonicalSource_arr (items : List (JsonTree F JsString)) :
    canonicalSource d (.Arr items) = .Arr (items.map (canonicalSource d)) := by
  rw [canonicalSource, canonical_arr, map_arr, List.map_map]
  rfl

lemma canonicalSource_valid (v : JsonTree F JsString) : Valid (canonicalSource d v) := by
  induction v using induction with
  | Null => simp [canonicalSource, canonical, Valid]
  | Boolean b => simp [canonicalSource, canonical, Valid]
  | Num f => simpa [canonicalSource, canonical, Valid] using d.isNumber_toText f
  | Str s => simpa [canonicalSource, canonical, Valid] using quotePieces_valid s
  | Arr items ih =>
      rw [canonicalSource_arr, Valid, all_arr]
      intro w hw
      obtain ⟨v, hv, rfl⟩ := List.mem_map.mp hw
      exact ih v hv
  | Obj members ih =>
      rw [canonicalSource_obj, Valid, all_obj]
      intro m hm
      obtain ⟨m', hm', rfl⟩ := List.mem_map.mp hm
      have hmem := mem_of_last ((mem_ordered unitKey members m').mp hm')
      exact ⟨quotePieces_valid _, ih m' hmem⟩

lemma serializeMembers_eq (members : List (JsString × JsValue F)) :
    serializeMembers d members = members.map
      (Prod.map id fun v => if v.isUndefined then none else some (serialize d v)) := by
  induction members with
  | nil => rw [serializeMembers, List.map_nil]
  | cons m rest ih =>
      rw [serializeMembers, ih]
      rfl

lemma serializeItems_ok {items : List (JsValue F)} {texts : List JsString}
    (h : items.map (serialize d) = texts.map .ok) :
    serializeItems d (items.map some) = .ok texts := by
  induction items generalizing texts with
  | nil =>
      obtain rfl : texts = [] := by simpa using h.symm
      rw [List.map_nil, serializeItems]
  | cons v items ih =>
      obtain ⟨text, texts', rfl, htext, htexts⟩ := List.map_eq_cons_iff.mp h.symm
      rw [List.map_cons, serializeItems, ← htext, ih htexts.symm]
      rfl

lemma mapM_ok {α β ε : Type} {f : α → Except ε β} {g : α → β} {l : List α}
    (h : ∀ x ∈ l, f x = .ok (g x)) : l.mapM f = .ok (l.map g) := by
  induction l with
  | nil => rfl
  | cons x l ih =>
      rw [List.mapM_cons, h x List.mem_cons_self, ih fun y hy => h y (List.mem_cons_of_mem x hy)]
      rfl

lemma isUndefined_toJs (v : JsonTree (Number F) JsString) : (toJs v).isUndefined = false := by
  cases v <;> simp [toJs, JsValue.isUndefined]

/-- **On the values of JSON, `serialize` writes the canonical tree.** -/
theorem serialize_toJs (v : JsonTree F JsString) :
    serialize d (toJs (finite v)) = .ok (write (canonicalSource d v)) := by
  induction v using induction with
  | Null =>
      simp only [finite, map_null, toJs, fold_null, serialize, canonicalSource, canonical, write]
      rfl
  | Boolean b =>
      simp only [finite, map_bool, toJs, fold_bool, serialize, canonicalSource, canonical, write]
      cases b <;> rfl
  | Num f =>
      simp only [finite, map_num, toJs, fold_num, serialize, canonicalSource, canonical, write]
      rfl
  | Str s =>
      simp only [finite, map_str, toJs, fold_str, serialize, canonicalSource, canonical, write,
        quote_eq]
      rfl
  | Arr items ih =>
      have hitems : (items.map fun v => toJs (finite v)).map (serialize d)
          = (items.map fun v => write (canonicalSource d v)).map .ok := by
        rw [List.map_map, List.map_map]
        exact List.map_congr_left ih
      have hvalue : toJs (finite (.Arr items)) = .Array ((items.map fun v => toJs (finite v)).map some) := by
        simp only [finite, map_arr, toJs, fold_arr, List.map_map]
        rfl
      rw [hvalue, serialize, serializeItems_ok d hitems, canonicalSource_arr]
      simp only [write, fold_arr, List.map_map]
      rfl
  | Obj members ih =>
      have hvalue : toJs (finite (.Obj members))
          = .Record (members.map (Prod.map id fun v => toJs (finite v))) := by
        simp only [finite, map_obj, toJs, fold_obj, List.map_map]
        rfl
      have hmembers : serializeMembers d (members.map (Prod.map id fun v => toJs (finite v)))
          = members.map (Prod.map id fun v => some (.ok (write (canonicalSource d v)))) := by
        rw [serializeMembers_eq, List.map_map]
        refine List.map_congr_left ?_
        intro m hm
        simp only [Function.comp, Prod.map, isUndefined_toJs, ih m hm]
        rfl
      have htexts : ((ordered unitKey members).map (Prod.map id fun v =>
            some (Except.ok (ε := JcsError) (write (canonicalSource d v))))).filterMap
            (fun m => m.2.map fun text => text.map fun text => quote m.1 ++ 0x3A :: text)
          = ((ordered unitKey members).map fun m =>
            member (quotePieces m.1, write (canonicalSource d m.2))).map .ok := by
        rw [List.filterMap_map, List.map_map, ← List.filterMap_eq_map]
        refine List.filterMap_congr fun m _ => ?_
        simp only [Function.comp, Prod.map, Option.map_some, Except.map, quote_eq]
        rfl
      rw [hvalue, serialize, hmembers, ordered_values]
      have hmapM : (((ordered unitKey members).map fun m =>
            member (quotePieces m.1, write (canonicalSource d m.2))).map
            (Except.ok (ε := JcsError))).mapM id
          = .ok ((ordered unitKey members).map fun m =>
            member (quotePieces m.1, write (canonicalSource d m.2))) := by
        rw [List.mapM_map]
        exact (mapM_ok fun _ _ => rfl).trans (congrArg _ (List.map_id _))
      simp only [htexts, hmapM]
      rw [canonicalSource_obj]
      simp only [write, fold_obj, List.map_map]
      rfl

/-! ## The normal form -/

/-- A value with every zero unsigned. -/
def unsigned (v : JsonTree (Number F) JsString) : JsonTree (Number F) JsString :=
  v.map (Number.map d.unsignZero) id

/-- Equality of JSON values: the members of an object are unordered, and `-0` is `0`. -/
def SameValue (v w : JsonTree (Number F) JsString) : Prop :=
  (unsigned d v).meaning = (unsigned d w).meaning

lemma unsigned_finite (v : JsonTree F JsString) :
    unsigned d (finite v) = v.map (Number.map d.unsignZero ∘ Number.Finite) id := by
  rw [unsigned, finite, map_map]
  rfl

lemma unsigned_unsigned (v : JsonTree (Number F) JsString) :
    unsigned d (unsigned d v) = unsigned d v := by
  have hnumbers : Number.map d.unsignZero ∘ Number.map d.unsignZero = Number.map d.unsignZero := by
    funext n
    cases n with
    | Finite f => exact congrArg Number.Finite (d.unsignZero_unsignZero f)
    | Infinite negative => rfl
    | NaN => rfl
  rw [unsigned, unsigned, map_map, hnumbers]
  rfl

/-- **The text is parsed to the canonical tree.** -/
lemma jsonParse_write (v : JsonTree F JsString) :
    jsonParse d (write (canonicalSource d v))
      = some (canonical unitKey (unsigned d (finite v))) := by
  have hnumbers : d.read ∘ d.toText = Number.map d.unsignZero ∘ Number.Finite :=
    funext d.read_toText
  have hstrings : List.map pieceUnit ∘ quotePieces = id := funext pieceUnit_quotePieces
  rw [jsonParse, parse_write (canonicalSource_valid d v), Option.map_some, canonicalSource, map_map,
    hnumbers, hstrings, unsigned_finite, canonical_numbers]

/-- The text of a number of a canonical tree. -/
def tokenOf : Number F → List ℕ
  | .Finite f => d.toText f
  | _ => []

/-- The tree that is written, from the canonical tree of the value. -/
lemma canonicalSource_eq (v : JsonTree F JsString) :
    canonicalSource d v
      = (canonical unitKey (unsigned d (finite v))).map (tokenOf d) quotePieces := by
  have hnumbers : tokenOf d ∘ (Number.map d.unsignZero ∘ Number.Finite) = d.toText :=
    funext d.toText_unsignZero
  rw [unsigned_finite, canonical_numbers, map_map, hnumbers]
  rfl

/-- **Values have the same text exactly when they are equal as JSON values.** -/
theorem canonicalSource_eq_iff (v w : JsonTree F JsString) :
    canonicalSource d v = canonicalSource d w ↔ SameValue d (finite v) (finite w) := by
  rw [SameValue, ← canonical_eq_iff unitKey_injective]
  constructor
  · intro h
    have hparse := jsonParse_write d v
    rw [h, jsonParse_write] at hparse
    exact (Option.some.inj hparse).symm
  · intro h
    rw [canonicalSource_eq, h, ← canonicalSource_eq]

/-- **The canonical form is a normal form.**  Of any two JSON values: they have the same text exactly
when they are equal up to the order of members and the sign of a zero.  And the text is JSON, denotes
the value it was made of, and is the canonical text of what it denotes. -/
theorem canonicalize_normal_form (a b : JsonTree F JsString) :
    (canonicalize d (toJs (finite a)) = canonicalize d (toJs (finite b))
        ↔ SameValue d (finite a) (finite b))
      ∧ ∃ text v, canonicalize d (toJs (finite a)) = .ok text ∧ jsonParse d text = some v
        ∧ SameValue d v (finite a) ∧ canonicalize d (toJs v) = .ok text := by
  have hparsed : canonical unitKey (unsigned d (finite a))
      = finite ((canonical unitKey a).map d.unsignZero id) := by
    rw [unsigned_finite, canonical_numbers, finite, map_map]
    rfl
  have hsame : SameValue d (canonical unitKey (unsigned d (finite a))) (finite a) := by
    rw [SameValue, unsigned, ← canonical_numbers, meaning_canonical, ← unsigned, unsigned_unsigned]
  refine ⟨?_, write (canonicalSource d a), _, serialize_toJs d a, jsonParse_write d a, hsame, ?_⟩
  · rw [canonicalize, canonicalize, serialize_toJs, serialize_toJs, Except.ok.injEq,
      ← canonicalSource_eq_iff]
    constructor
    · exact write_injOn (canonicalSource_valid d a) (canonicalSource_valid d b)
    · exact congrArg write
  · rw [hparsed] at hsame ⊢
    rw [canonicalize, serialize_toJs, (canonicalSource_eq_iff d _ a).mpr hsame]

end

/-- The doubles of one digit, with either sign. -/
def oneDigit : Doubles (Bool × Fin 10) where
  zero := (false, 0)
  isZero f := f.2 = 0
  signbit f := f.1
  digits f := [f.2]
  exponent _ := 1
  read token :=
    match token with
    | [c] => .Finite (false, Fin.ofNat 10 (c - 0x30))
    | [0x2D, c] => .Finite (true, Fin.ofNat 10 (c - 0x30))
    | _ => .NaN
  zero_isZero := rfl
  zero_signbit := rfl
  digits_head f h := ⟨f.2, [], rfl, by simpa using h⟩
  read_signed := by
    rintro ⟨sign, digit⟩
    revert digit
    cases sign <;> decide

/-- The members in one order, with a negative zero. -/
def unorderedMembers : JsonTree (Bool × Fin 10) JsString :=
  .Obj [(js "b", .Num (true, 0)), (js "a", .Arr [.Num (false, 1)])]

def orderedMembers : JsonTree (Bool × Fin 10) JsString :=
  .Obj [(js "a", .Arr [.Num (false, 1)]), (js "b", .Num (false, 0))]

theorem canonicalize_normal_form_members :
    canonicalize oneDigit (toJs (finite unorderedMembers)) = .ok (js "\x7b\"a\":[1],\"b\":0\x7d")
      ∧ SameValue oneDigit (finite unorderedMembers) (finite orderedMembers) := by
  constructor
  · decide +kernel
  · exact (canonicalize_normal_form oneDigit unorderedMembers orderedMembers).1.mp
      (by decide +kernel)

end Anyonce
