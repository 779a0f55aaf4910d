import Anyonce.Go.Types
import Anyonce.Jcs

/-!
# encoding/json

What the Go code uses of the package: `Unmarshal` into an `any`, `Decode` with `UseNumber`, and
`Marshal`.  A JSON value is a tree over Go strings; a `map[string]any` is the list of the entries it
was given.

A Go string is bytes, and the decoder repairs them: bytes that are no UTF-8 and surrogate escapes that
are no pair become U+FFFD.  `pieceRunes_expand` says exactly what it makes of the strings of a text in
UTF-8: the characters of the code units the text denotes.

* `decodeNumbers_marshal` — what `Marshal` writes is decoded to the value, with the entries of a map in
  order and the numbers as they are written.
-/

namespace Anyonce.Go

open NumberText JsonText JsonTree Unicode
open Ecma (isLead isTrail shortEscape hexDigit)

/-! ## Decoding -/

/-- The raw bytes a string goes on with. -/
def rawBytes : List (Piece UInt8) → List UInt8
  | .Raw b :: rest => b :: rawBytes rest
  | _ => []

/-- The loop of `unquote`, after `k` more pieces: a rune at a time, and U+FFFD for what is none. -/
def pieceRunes : ℕ → List (Piece UInt8) → List Char
  | _, [] => []
  | k + 1, _ :: rest => pieceRunes k rest
  | 0, .Raw b :: rest =>
      match decodeFirst b (rawBytes rest) with
      | (k, some c) => c :: pieceRunes k rest
      | (_, none) => replacement :: pieceRunes 0 rest
  | 0, .Short e :: rest => single (shortUnit e) :: pieceRunes 0 rest
  | 0, .Hex a b c d :: rest =>
      match rest with
      | .Hex a' b' c' d' :: _ =>
          if isLead (fourHexUnit a b c d) && isTrail (fourHexUnit a' b' c' d') then
            pair (fourHexUnit a b c d) (fourHexUnit a' b' c' d') :: pieceRunes 1 rest
          else single (fourHexUnit a b c d) :: pieceRunes 0 rest
      | _ => single (fourHexUnit a b c d) :: pieceRunes 0 rest

/-- The string a quoted string denotes. -/
def unquote (pieces : List (Piece UInt8)) : GoString := utf8 (pieceRunes 0 pieces)

/-- The depth beyond which the decoder refuses a text. -/
def maxNestingDepth : ℕ := 10000

/-- How deep the containers of a tree are nested. -/
def depth {N S : Type} : JsonTree N S → ℕ :=
  fold {
    null := 0
    bool := fun _ => 0
    num := fun _ => 0
    str := fun _ => 0
    arr := fun depths => depths.foldr max 0 + 1
    obj := fun ms => (ms.map Prod.snd).foldr max 0 + 1 }

/-- `Decode` with `UseNumber`: a number is its text.  Nesting beyond the limit is an error. -/
def decodeNumbers (data : List UInt8) : Option (JsonTree (List ℕ) GoString) := do
  let source ← parse data
  if depth source ≤ maxNestingDepth then some (source.map id unquote) else none

/-- Whether the numbers of a value are all finite. -/
def finiteNumbers {F S : Type} : JsonTree (Number F) S → Bool :=
  fold {
    null := true
    bool := fun _ => true
    num := fun n =>
      match n with
      | .Finite _ => true
      | _ => false
    str := fun _ => true
    arr := fun items => items.all id
    obj := fun ms => ms.all Prod.snd }

section

variable {F : Type} (d : Doubles F)

/-- `Unmarshal` into an `any`: a number out of range is an error, wherever it stands. -/
def unmarshal (data : List UInt8) : Option (JsonTree (Number F) GoString) := do
  let tree ← decodeNumbers data
  let value := tree.map d.read id
  if finiteNumbers value then some value else none

/-! ## Encoding -/

/-- The character as it is written in a string; `also` says which are escaped beside those that have
to be. -/
def escapeChar (also : Char → Bool) (c : Char) : Piece Char :=
  match (if c.toNat < 0x80 then shortEscape (UInt16.ofNat c.toNat) else none) with
  | some e => .Short e.toNat
  | none =>
      if c.toNat < 0x20 || also c then
        .Hex (hexDigit (c.toNat / 4096)).toNat (hexDigit (c.toNat / 256 % 16)).toNat
          (hexDigit (c.toNat / 16 % 16)).toNat (hexDigit (c.toNat % 16)).toNat
      else .Raw c

/-- What `Marshal` escapes for the sake of HTML and JavaScript. -/
def htmlUnsafe (c : Char) : Bool :=
  c = '<' || c = '>' || c = '&' || c.toNat = 0x2028 || c.toNat = 0x2029

/-- A string as `encoding/json` writes it. -/
def marshalString (s : GoString) : List (Piece UInt8) :=
  expandPieces utf8Char ((runes s).map (escapeChar htmlUnsafe))

/-- A float64: the text of `Number::toString`, except that a zero keeps its sign. -/
def marshalNumber : Number F → List ℕ
  | .Finite f => d.signed f
  | _ => []

/-- The keys of a map are sorted by their bytes. -/
def byteKey (s : GoString) : List ℕ := s.map UInt8.toNat

/-- `Marshal`; a number that is not finite is an `UnsupportedValueError`. -/
def marshal (v : JsonTree (Number F) GoString) : Option (List UInt8) :=
  if finiteNumbers v then
    some (write ((canonical byteKey v).map (marshalNumber d) marshalString))
  else none

end

/-! ## The two encodings of a text -/

lemma encoding_utf8 : Encoding utf8Char where
  ascii _ h := utf8Char_ascii h
  wide c h := ⟨utf8Char_ne_nil c, utf8Char_wide h⟩

lemma encoding_utf16 : Encoding utf16Char where
  ascii _ h := utf16Char_ascii h
  wide c h := ⟨utf16Char_ne_nil c, utf16Char_wide h⟩

/-- The code units a piece of a text stands for. -/
def charUnits : Piece Char → List UInt16
  | .Raw c => utf16Char c
  | .Short e => [shortUnit e]
  | .Hex a b c d => [fourHexUnit a b c d]

/-- In UTF-16 a text denotes the code units of its pieces. -/
lemma pieceUnit_expand (ps : List (Piece Char)) :
    (expandPieces utf16Char ps).map pieceUnit = ps.flatMap charUnits := by
  induction ps with
  | nil => rfl
  | cons p ps ih =>
      rw [expandPieces, List.flatMap_cons, List.map_append, ← expandPieces, ih, List.flatMap_cons]
      cases p with
      | Raw c => simp [expandPiece, charUnits, pieceUnit, Function.comp_def]
      | Short e => rfl
      | Hex a b c d => rfl

/-- A one-letter escape stands for no surrogate. -/
lemma shortUnit_plain (e : ℕ) : isLead (shortUnit e) = false ∧ isTrail (shortUnit e) = false := by
  rw [shortUnit, Ecma.unescape]
  split_ifs <;> decide

section Runes

variable (rest : List (Piece UInt8))

lemma rawBytes_append (bs : List UInt8) :
    rawBytes (bs.map .Raw ++ rest) = bs ++ rawBytes rest := by
  induction bs with
  | nil => rfl
  | cons b bs ih => rw [List.map_cons, List.cons_append, rawBytes, ih, List.cons_append]

lemma pieceRunes_skip (bs : List UInt8) :
    pieceRunes bs.length (bs.map .Raw ++ rest) = pieceRunes 0 rest := by
  induction bs with
  | nil => rfl
  | cons b bs ih =>
      rw [List.length_cons, List.map_cons, List.cons_append, pieceRunes]
      exact ih

/-- A character in UTF-8 is read as the character. -/
lemma pieceRunes_utf8Char (c : Char) :
    pieceRunes 0 ((utf8Char c).map .Raw ++ rest) = c :: pieceRunes 0 rest := by
  obtain ⟨b, bs, hbytes, hfirst⟩ := decodeFirst_utf8Char c (rawBytes rest)
  rw [hbytes, List.map_cons, List.cons_append, pieceRunes, rawBytes_append, hfirst]
  dsimp only
  rw [pieceRunes_skip]

/-- An escape that no other follows. -/
lemma pieceRunes_hex {rest : List (Piece UInt8)} (a b c d : ℕ)
    (h : ∀ a' b' c' d' tail, rest ≠ .Hex a' b' c' d' :: tail) :
    pieceRunes 0 (.Hex a b c d :: rest) = single (fourHexUnit a b c d) :: pieceRunes 0 rest := by
  rw [pieceRunes]
  exact h

end Runes

/-- **What the decoder makes of a string**: the characters of the code units it denotes, which is where
a surrogate that is not part of a pair is lost. -/
lemma pieceRunes_expand (ps : List (Piece Char)) :
    pieceRunes 0 (expandPieces utf8Char ps) = scalars (ps.flatMap charUnits) := by
  induction hn : ps.length using Nat.strongRecOn generalizing ps with
  | _ n ih =>
      cases ps with
      | nil => rfl
      | cons p ps =>
          have hps := ih ps.length (by rw [← hn]; simp) ps rfl
          rw [expandPieces, List.flatMap_cons, ← expandPieces, List.flatMap_cons]
          cases p with
          | Raw c => rw [expandPiece, pieceRunes_utf8Char, charUnits, scalars_utf16Char, hps]
          | Short e =>
              rw [expandPiece, List.singleton_append, pieceRunes, charUnits, List.singleton_append,
                scalars_cons (by simp [shortUnit_plain]), hps]
          | Hex a b c d =>
              rw [expandPiece, List.singleton_append, charUnits, List.singleton_append]
              cases ps with
              | nil => rfl
              | cons q ps =>
                  cases q with
                  | Raw c' =>
                      obtain ⟨b', bs, hbytes, -⟩ := decodeFirst_utf8Char c' []
                      have hhead : ∀ v ∈ (utf16Char c' ++ ps.flatMap charUnits).head?,
                          (isLead (fourHexUnit a b c d) && isTrail v) = false := by
                        intro v hv
                        rw [List.head?_append_of_ne_nil _ (utf16Char_ne_nil c')] at hv
                        rw [utf16Char_head c' v hv, Bool.and_false]
                      rw [expandPieces, List.flatMap_cons, ← expandPieces, expandPiece, hbytes,
                        List.map_cons, List.cons_append] at hps ⊢
                      rw [pieceRunes_hex _ _ _ _ (by simp), hps, List.flatMap_cons, charUnits,
                        scalars_cons hhead]
                  | Short e =>
                      have hhead : ∀ v ∈ (shortUnit e :: ps.flatMap charUnits).head?,
                          (isLead (fourHexUnit a b c d) && isTrail v) = false := by
                        simp [shortUnit_plain]
                      rw [expandPieces, List.flatMap_cons, ← expandPieces, expandPiece,
                        List.singleton_append] at hps ⊢
                      rw [pieceRunes_hex _ _ _ _ (by simp), hps, List.flatMap_cons, charUnits,
                        List.singleton_append, scalars_cons hhead]
                  | Hex a' b' c' d' =>
                      have hps' := ih ps.length
                        (by rw [← hn, List.length_cons, List.length_cons]; omega) ps rfl
                      rw [expandPieces, List.flatMap_cons, ← expandPieces, expandPiece,
                        List.singleton_append] at hps ⊢
                      rw [List.flatMap_cons, charUnits, List.singleton_append] at hps ⊢
                      rw [pieceRunes, scalars]
                      split_ifs
                      · rw [pieceRunes, hps']
                      · rw [hps]

/-! ## Strings that are written -/

section Escape

variable {also : Char → Bool} {c : Char}

lemma shortEscape_of_char {e : UInt16}
    (h : (if c.toNat < 0x80 then shortEscape (UInt16.ofNat c.toNat) else none) = some e) :
    c.toNat < 0x80 ∧ shortEscape (UInt16.ofNat c.toNat) = some e := by
  split_ifs at h with hlt
  exact ⟨hlt, h⟩

/-- **A character is denoted by the way it is written.** -/
lemma charUnits_escapeChar (halso : also c = true → c.toNat < 0x10000) :
    charUnits (escapeChar also c) = utf16Char c := by
  rw [escapeChar]
  split
  · rename_i e he
    obtain ⟨hlt, hshort⟩ := shortEscape_of_char he
    rw [charUnits, shortUnit, UInt16.ofNat_toNat, (Ecma.unescape_shortEscape hshort).1,
      utf16Char_ascii hlt]
    rfl
  · split_ifs with hesc
    · have hlt : c.toNat < 0x10000 := by
        rcases Bool.or_eq_true_iff.mp hesc with hctl | hal
        · have hlt := of_decide_eq_true hctl
          omega
        · exact halso hal
      have hunit := Ecma.hexUnit_unicodeEscape (UInt16.ofNat c.toNat)
      rw [toNat_unit hlt] at hunit
      rw [charUnits, fourHexUnit]
      simp only [UInt16.ofNat_toNat, hunit, Option.getD_some, utf16Char, if_pos hlt]
    · rfl

lemma escapeChar_valid (halso : also c = true → c.toNat < 0x10000) : (escapeChar also c).Valid := by
  rw [escapeChar]
  split
  · rename_i e he
    exact isShort_shortEscape (shortEscape_of_char he).2
  · rename_i hnone
    split_ifs with hesc
    · have hlt : c.toNat < 0x10000 := by
        rcases Bool.or_eq_true_iff.mp hesc with hctl | hal
        · have hlt := of_decide_eq_true hctl
          omega
        · exact halso hal
      exact ⟨isHex_hexDigit _ (by omega), isHex_hexDigit _ (by omega), isHex_hexDigit _ (by omega),
        isHex_hexDigit _ (by omega)⟩
    · have hne : ∀ n, n < 0x80 → (shortEscape (UInt16.ofNat n)).isSome = true → c.toNat ≠ n := by
        rintro n hn hsome rfl
        rw [if_pos hn] at hnone
        rw [hnone] at hsome
        cases hsome
      refine ⟨hne 0x22 (by decide) (by decide), hne 0x5C (by decide) (by decide), ?_⟩
      by_contra hctl
      exact hesc (by simp [show c.toNat < 0x20 from not_le.mp hctl])

end Escape

lemma htmlUnsafe_lt {c : Char} (h : htmlUnsafe c = true) : c.toNat < 0x10000 := by
  simp only [htmlUnsafe, Bool.or_eq_true, decide_eq_true_eq] at h
  rcases h with (((rfl | rfl) | rfl) | h) | h
  · decide
  · decide
  · decide
  · omega
  · omega

/-- Encoding a text keeps its pieces valid. -/
lemma expandPiece_valid {β : Type} [Symbol β] {e : Char → List β} (he : Encoding e) {p : Piece Char}
    (hp : p.Valid) : ∀ q ∈ expandPiece e p, q.Valid := by
  cases p with
  | Raw c =>
      obtain ⟨hquote, hslash, hctl⟩ := hp
      intro q hq
      obtain ⟨b, hb, rfl⟩ := List.mem_map.mp hq
      by_cases hc : ord c < 0x80
      · rw [he.ascii c hc, List.mem_singleton] at hb
        rw [hb, Piece.Valid, JsonText.ord_sym hc]
        exact ⟨hquote, hslash, hctl⟩
      · have hwide := (he.wide c (not_lt.mp hc)).2 b hb
        refine ⟨?_, ?_, ?_⟩ <;> omega
  | Short n =>
      intro q hq
      rw [expandPiece, List.mem_singleton] at hq
      rw [hq]
      exact hp
  | Hex a b c d =>
      intro q hq
      rw [expandPiece, List.mem_singleton] at hq
      rw [hq]
      exact hp

/-- The pieces of a text, encoded. -/
lemma expandPieces_valid {β : Type} [Symbol β] {e : Char → List β} (he : Encoding e)
    {ps : List (Piece Char)} (hps : ∀ p ∈ ps, p.Valid) : ∀ q ∈ expandPieces e ps, q.Valid := by
  intro q hq
  obtain ⟨p, hp, hq⟩ := List.mem_flatMap.mp hq
  exact expandPiece_valid he (hps p hp) q hq

/-- What `Marshal` writes for a string is decoded to the string. -/
lemma unquote_marshalString (cs : List Char) : unquote (marshalString (utf8 cs)) = utf8 cs := by
  have hunits : (cs.map (escapeChar htmlUnsafe)).flatMap charUnits = utf16 cs := by
    rw [List.flatMap_map, utf16]
    exact List.flatMap_congr fun c _ => charUnits_escapeChar htmlUnsafe_lt
  rw [unquote, marshalString, runes_utf8, pieceRunes_expand, hunits, scalars_utf16]

lemma marshalString_valid (s : GoString) : ∀ p ∈ marshalString s, p.Valid := by
  refine expandPieces_valid encoding_utf8 ?_
  intro p hp
  obtain ⟨c, -, rfl⟩ := List.mem_map.mp hp
  exact escapeChar_valid htmlUnsafe_lt

/-! ## Values that are written -/

section

variable {N N' S S' : Type}

lemma depth_arr (items : List (JsonTree N S)) :
    depth (.Arr items) = (items.map depth).foldr max 0 + 1 := by
  simp [depth]

lemma depth_obj (members : List (S × JsonTree N S)) :
    depth (.Obj members) = (members.map fun m => depth m.2).foldr max 0 + 1 := by
  simp [depth, Function.comp_def]

lemma depth_map (f : N → N') (g : S → S') (v : JsonTree N S) : depth (v.map f g) = depth v := by
  induction v using induction with
  | Null => simp [depth]
  | Boolean b => simp [depth]
  | Num n => simp [depth]
  | Str s => simp [depth]
  | Arr items ih =>
      rw [map_arr, depth_arr, depth_arr, List.map_map]
      exact congrArg (fun ds : List ℕ => ds.foldr max 0 + 1) (List.map_congr_left ih)
  | Obj members ih =>
      rw [map_obj, depth_obj, depth_obj, List.map_map]
      exact congrArg (fun ds : List ℕ => ds.foldr max 0 + 1) (List.map_congr_left ih)

/-- The largest of some numbers is no larger than another number exactly when none of them is. -/
lemma foldr_max_le {ds : List ℕ} {n : ℕ} : ds.foldr max 0 ≤ n ↔ ∀ x ∈ ds, x ≤ n := by
  induction ds with
  | nil => simp
  | cons x ds ih => simp [ih]

/-- Dropping the members that do not count makes no tree deeper. -/
lemma depth_canonical {K : Type} [LinearOrder K] [DecidableEq S] (key : S → K) (v : JsonTree N S) :
    depth (canonical key v) ≤ depth v := by
  induction v using induction with
  | Null => simp [canonical]
  | Boolean b => simp [canonical]
  | Num n => simp [canonical]
  | Str s => simp [canonical]
  | Arr items ih =>
      rw [canonical_arr, depth_arr, depth_arr, Nat.add_le_add_iff_right, foldr_max_le]
      intro x hx
      simp only [List.map_map, List.mem_map, Function.comp] at hx
      obtain ⟨v, hv, rfl⟩ := hx
      exact (ih v hv).trans (foldr_max_le.mp le_rfl _ (List.mem_map_of_mem hv))
  | Obj members ih =>
      rw [canonical_obj, depth_obj, depth_obj, ordered_values, Nat.add_le_add_iff_right, foldr_max_le]
      intro x hx
      simp only [List.map_map, List.mem_map, Function.comp] at hx
      obtain ⟨m, hm, rfl⟩ := hx
      have hmem := mem_of_last ((mem_ordered key members m).mp hm)
      exact (ih m hmem).trans (foldr_max_le.mp le_rfl _ (List.mem_map_of_mem hmem))

/-- How deep the members that count are nested does not depend on how they are sorted. -/
lemma depth_canonical_key {K K' : Type} [LinearOrder K] [LinearOrder K'] [DecidableEq S]
    {key : S → K} {key' : S → K'} (hkey : Function.Injective key) (hkey' : Function.Injective key')
    (v : JsonTree N S) : depth (canonical key v) = depth (canonical key' v) := by
  have hsorted : canonical key (canonical key' v) = canonical key v :=
    canonical_congr hkey (meaning_canonical v)
  have hsorted' : canonical key' (canonical key v) = canonical key' v :=
    canonical_congr hkey' (meaning_canonical v)
  apply le_antisymm
  · rw [← hsorted]
    exact depth_canonical key _
  · rw [← hsorted']
    exact depth_canonical key' _

end

section

variable {F : Type} (d : Doubles F)

lemma finiteNumbers_arr {S : Type} (items : List (JsonTree (Number F) S)) :
    finiteNumbers (.Arr items) = items.all finiteNumbers := by
  simp [finiteNumbers]

lemma finiteNumbers_obj {S : Type} (members : List (S × JsonTree (Number F) S)) :
    finiteNumbers (.Obj members) = members.all fun m => finiteNumbers m.2 := by
  simp [finiteNumbers, Function.comp_def]

lemma finiteNumbers_all {S : Type} (v : JsonTree (Number F) S) :
    finiteNumbers v = true ↔ v.All (fun n => ∃ f, n = .Finite f) fun _ => True := by
  induction v using induction with
  | Null => simp [finiteNumbers]
  | Boolean b => simp [finiteNumbers]
  | Num n => cases n <;> simp [finiteNumbers]
  | Str s => simp [finiteNumbers]
  | Arr items ih =>
      rw [finiteNumbers_arr, List.all_eq_true, all_arr]
      exact forall₂_congr ih
  | Obj members ih =>
      rw [finiteNumbers_obj, List.all_eq_true, all_obj]
      exact forall₂_congr fun m hm => (ih m hm).trans (by simp)

include d in
/-- **A value has finite numbers exactly when it is a tree over the finite doubles.** -/
lemma finiteNumbers_iff {S : Type} (v : JsonTree (Number F) S) :
    finiteNumbers v = true ↔ ∃ w : JsonTree F S, v = w.map .Finite id := by
  rw [finiteNumbers_all]
  constructor
  · intro hall
    refine ⟨v.map (fun n => match n with
      | .Finite f => f
      | _ => d.zero) id, ?_⟩
    rw [map_map]
    refine (map_id v).symm.trans (map_congr (hall.imp ?_ fun _ _ => rfl))
    rintro n ⟨f, rfl⟩
    rfl
  · rintro ⟨w, rfl⟩
    rw [all_map]
    exact all_of_forall (fun f => ⟨f, rfl⟩) (fun _ => trivial) w

/-- The order of the keys of a map, on their texts. -/
def textKey (cs : List Char) : List ℕ := byteKey (utf8 cs)

/-- The tree that `Marshal` writes. -/
def marshalSource (v : JsonTree F (List Char)) : Source UInt8 :=
  (canonical textKey v).map d.signed (marshalString ∘ utf8)

lemma marshalSource_valid (v : JsonTree F (List Char)) : Valid (marshalSource d v) := by
  rw [Valid, marshalSource, all_map]
  exact all_of_forall d.isNumber_signed (fun cs => marshalString_valid (utf8 cs)) _

lemma marshal_eq (v : JsonTree F (List Char)) :
    marshal d (v.map .Finite utf8) = some (write (marshalSource d v)) := by
  have hfinite : finiteNumbers (v.map Number.Finite utf8) = true := by
    rw [finiteNumbers_all, all_map]
    exact all_of_forall (fun f => ⟨f, rfl⟩) (fun _ => trivial) v
  have hsource : (canonical byteKey (v.map Number.Finite utf8)).map (marshalNumber d) marshalString
      = marshalSource d v := by
    rw [canonical_map utf8_injective fun _ => rfl, map_map]
    rfl
  rw [marshal, if_pos hfinite, hsource]

/-- What is written is read back as the tree. -/
lemma marshalSource_read (v : JsonTree F (List Char)) :
    (marshalSource d v).map d.read unquote = (canonical textKey v).map .Finite utf8 := by
  have hstrings : unquote ∘ (marshalString ∘ utf8) = utf8 := funext unquote_marshalString
  rw [marshalSource, map_map, hstrings]
  exact congrArg (fun f => (canonical textKey v).map f utf8) (funext d.read_signed)

/-- **`Marshal` writes values alike exactly when they are one up to the order of members.** -/
lemma marshal_eq_iff (v w : JsonTree F (List Char)) :
    marshal d (v.map .Finite utf8) = marshal d (w.map .Finite utf8)
      ↔ (canonical textKey v).map Number.Finite utf8 = (canonical textKey w).map .Finite utf8 := by
  rw [marshal_eq, marshal_eq, Option.some.injEq, ← marshalSource_read, ← marshalSource_read]
  constructor
  · intro h
    rw [write_injOn (marshalSource_valid d v) (marshalSource_valid d w) h]
  · intro h
    have hfinite : (canonical textKey v).map Number.Finite utf8 = (canonical textKey w).map .Finite utf8 := by
      rw [← marshalSource_read, h, marshalSource_read]
    have hsource : ∀ u : JsonTree F (List Char), marshalSource d u
        = ((canonical textKey u).map Number.Finite utf8).map (marshalNumber d) marshalString := by
      intro u
      rw [map_map]
      rfl
    rw [hsource, hsource, hfinite]

/-- **What `Marshal` writes is decoded to the value**, unless it is nested too deep. -/
theorem decodeNumbers_marshal (v : JsonTree F (List Char)) :
    ∃ data, marshal d (v.map .Finite utf8) = some data
      ∧ decodeNumbers data
        = if depth (canonical (fun cs => byteKey (utf8 cs)) v) ≤ maxNestingDepth then
            some ((canonical (fun cs => byteKey (utf8 cs)) v).map d.signed utf8)
          else none := by
  have hstrings : unquote ∘ (marshalString ∘ utf8) = utf8 := funext unquote_marshalString
  refine ⟨_, marshal_eq d v, ?_⟩
  rw [decodeNumbers, parse_write (marshalSource_valid d v)]
  simp only [Option.bind_eq_bind, Option.bind_some, marshalSource, depth_map, map_map, hstrings]
  rfl

end

end Anyonce.Go
