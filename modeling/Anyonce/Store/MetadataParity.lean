import Anyonce.Engine.Parity
import Anyonce.Go.Jcs
import Anyonce.Go.RowCodec
import Anyonce.Store.Codec

/-!
# Metadata across languages

A row may be written by one language and read by the other, and the metadata of its result is a JSON
text.  The texts differ: Go escapes characters that `JSON.stringify` leaves alone.  Both are texts of one
tree over characters (`charSource`), which either language reads.

* `metadata_cross_language` — a result comes back the same from each pair of a writer and a reader.
* `metadata_status_overflow` — a status that Go's `int` has no room for does not.
* `go_headers_exact_iff` — Go headers come back byte for byte exactly when they are UTF-8.
-/

namespace Anyonce

open Ecma JsonText JsonTree Unicode
open Go (intToken charSource htmlUnsafe escapeChar plainChar metaJson)

/-! ## Trees over characters -/

/-- The value a tree over characters stands for in TypeScript. -/
def toJson : JsonTree ℤ (List Char) → Json :=
  fold {
    null := .Null
    bool := .Bool
    num := .Num
    str := fun cs => .Str (utf16 cs)
    arr := .Arr
    obj := fun ms => .Obj (ms.map (Prod.map utf16 id)) }

lemma toJson_arr (items : List (JsonTree ℤ (List Char))) :
    toJson (.Arr items) = .Arr (items.map toJson) := by
  simp [toJson]

lemma toJson_obj (members : List (List Char × JsonTree ℤ (List Char))) :
    toJson (.Obj members) = .Obj (members.map (Prod.map utf16 toJson)) := by
  simp [toJson, Function.comp_def, Prod.map]

/-- The strings of such a value are well formed. -/
lemma toJson_strings (v : JsonTree ℤ (List Char)) : (toJson v).Strings fun s => ∃ cs, s = utf16 cs := by
  induction v using JsonTree.induction with
  | Null => simp [toJson, Json.Strings]
  | Boolean b => simp [toJson, Json.Strings]
  | Num n => simp [toJson, Json.Strings]
  | Str cs =>
      simp only [toJson, fold_str, Json.Strings]
      exact ⟨cs, rfl⟩
  | Arr items ih =>
      rw [toJson_arr, Json.Strings]
      induction items with
      | nil => trivial
      | cons v rest ih' =>
          exact ⟨ih v List.mem_cons_self, ih' fun w hw => ih w (List.mem_cons_of_mem v hw)⟩
  | Obj members ih =>
      rw [toJson_obj, Json.Strings]
      induction members with
      | nil => trivial
      | cons m rest ih' =>
          exact ⟨⟨m.1, rfl⟩, ih m List.mem_cons_self, ih' fun w hw => ih w (List.mem_cons_of_mem m hw)⟩

section

variable {q : JsString → JsString}

lemma itemsWith_eq (vs : List Json) :
    itemsWith q vs = (vs.map (stringifyWith q)).flatMap (0x2C :: ·) ++ [0x5D] := by
  induction vs with
  | nil => rfl
  | cons v rest ih =>
      rw [itemsWith, ih, List.map_cons, List.flatMap_cons, List.append_assoc, List.cons_append]

lemma membersWith_eq (ms : List (JsString × Json)) :
    membersWith q ms
      = (ms.map fun m => quoteWith q m.1 ++ 0x3A :: stringifyWith q m.2).flatMap (0x2C :: ·)
        ++ [0x7D] := by
  induction ms with
  | nil => rfl
  | cons m rest ih =>
      obtain ⟨name, v⟩ := m
      rw [membersWith, ih, List.map_cons, List.flatMap_cons]
      simp

/-- **A tree is written alike by both writers**, when its strings are. -/
lemma write_eq_stringifyWith {g : List Char → List (Piece UInt16)}
    (hg : ∀ cs, q (utf16 cs) = (g cs).flatMap writePiece) (v : JsonTree ℤ (List Char)) :
    write (v.map intToken g) = stringifyWith q (toJson v) := by
  have hquoted : ∀ cs, quoted (g cs) = quoteWith q (utf16 cs) := by
    intro cs
    rw [quoted, quoteWith, hg]
    rfl
  induction v using JsonTree.induction with
  | Null =>
      rw [map_null, write, fold_null, toJson, fold_null, stringifyWith]
      rfl
  | Boolean b =>
      rw [map_bool, write, fold_bool, toJson, fold_bool]
      cases b <;> rfl
  | Num n =>
      have hunits : (intToken n).map UInt16.ofNat = intText n := by
        rw [intToken, List.map_map]
        exact (List.map_congr_left fun u _ => UInt16.ofNat_toNat).trans (List.map_id _)
      rw [map_num, write, fold_num, toJson, fold_num, stringifyWith]
      exact hunits
  | Str cs =>
      rw [map_str, write, fold_str, toJson, fold_str, stringifyWith]
      exact hquoted cs
  | Arr items ih =>
      rw [map_arr, write_arr, toJson_arr, List.map_map]
      cases items with
      | nil => rfl
      | cons v rest =>
          have hrest : rest.map (write ∘ JsonTree.map intToken g)
              = (rest.map toJson).map (stringifyWith q) := by
            rw [List.map_map]
            exact List.map_congr_left fun w hw => ih w (List.mem_cons_of_mem v hw)
          rw [List.map_cons, List.map_cons, stringifyWith, itemsWith_eq, join, hrest, Function.comp,
            ih v List.mem_cons_self, List.append_assoc]
          rfl
  | Obj members ih =>
      rw [map_obj, write_obj, toJson_obj, List.map_map]
      cases members with
      | nil => rfl
      | cons m rest =>
          have hmember : ∀ w ∈ m :: rest, member (g w.1, write (w.2.map intToken g))
              = quoteWith q (utf16 w.1) ++ 0x3A :: stringifyWith q (toJson w.2) := by
            intro w hw
            rw [member, hquoted, ih w hw]
            rfl
          have hrest : rest.map (fun w => member (g w.1, write (w.2.map intToken g)))
              = (rest.map (Prod.map utf16 toJson)).map
                fun m => quoteWith q m.1 ++ 0x3A :: stringifyWith q m.2 := by
            rw [List.map_map]
            exact List.map_congr_left fun w hw => hmember w (List.mem_cons_of_mem m hw)
          show sym 0x7B :: (member (g m.1, write (m.2.map intToken g))
              ++ (rest.map fun w => member (g w.1, write (w.2.map intToken g))).flatMap (sym 0x2C :: ·)
              ++ [sym 0x7D]) = 0x7B :: (quoteWith q (utf16 m.1) ++ 0x3A :: (stringifyWith q (toJson m.2)
                ++ membersWith q (rest.map (Prod.map utf16 toJson))))
          rw [hmember m List.mem_cons_self, hrest, membersWith_eq]
          simp [sym]

end

/-! ## The two texts -/

/-- The text of one language in the strings of the other, as a driver converts it. -/
def goText (text : JsString) : Go.GoString := encode text

def jsText (text : Go.GoString) : JsString := utf16 (runes text)

/-- How a string is quoted by `Marshal`, in code units. -/
def marshalUnits (s : JsString) : JsString :=
  (expandPieces utf16Char ((scalars s).map (escapeChar htmlUnsafe))).flatMap writePiece

lemma no_escape : ∀ c : Char, (fun _ => false : Char → Bool) c = true → c.toNat < 0x10000 := nofun

/-- The texts of a tree: `JSON.stringify` escapes nothing beside what has to be. -/
lemma stringify_toJson (v : JsonTree ℤ (List Char)) :
    stringify (toJson v) = utf16 (write (charSource (fun _ => false) v)) := by
  have hquote : ∀ cs, quoteUnits (utf16 cs)
      = (expandPieces utf16Char (cs.map plainChar)).flatMap writePiece := by
    intro cs
    rw [quoteUnits_eq, Go.quotePieces_utf16]
  have hexpand := write_expand Go.encoding_utf16 (Go.charSource_valid no_escape v)
  rw [expand, charSource, map_map] at hexpand
  rw [stringify_eq, ← write_eq_stringifyWith hquote]
  exact hexpand

/-- The digits of an escape are read. -/
lemma hexUnit_some {a b c d : ℕ} (ha : isHex a = true) (hb : isHex b = true) (hc : isHex c = true)
    (hd : isHex d = true) :
    hexUnit (UInt16.ofNat a) (UInt16.ofNat b) (UInt16.ofNat c) (UInt16.ofNat d)
      = some (fourHexUnit a b c d) := by
  have hdigit : ∀ n, isHex n = true → ∃ x, hexValue (UInt16.ofNat n) = some x := by
    have hsmall : ∀ n < 0x80, isHex n = true → (hexValue (UInt16.ofNat n)).isSome = true := by decide
    intro n hn
    exact Option.isSome_iff_exists.mp (hsmall n (isHex_lt hn) hn)
  obtain ⟨x, hx⟩ := hdigit a ha
  obtain ⟨y, hy⟩ := hdigit b hb
  obtain ⟨z, hz⟩ := hdigit c hc
  obtain ⟨w, hw⟩ := hdigit d hd
  simp [fourHexUnit, hexUnit, hx, hy, hz, hw]

/-- The letter of an escape is read. -/
lemma unescape_some {e : ℕ} (he : isShort e = true) :
    unescape (UInt16.ofNat e) = some (shortUnit e) ∧ UInt16.ofNat e ≠ 0x75 := by
  have hsmall : ∀ n < 0x80, isShort n = true →
      unescape (UInt16.ofNat n) = some (shortUnit n) ∧ UInt16.ofNat n ≠ 0x75 := by decide
  exact hsmall e (isShort_lt he).1 he

/-- **A string is read from its pieces**, whatever is escaped in it. -/
lemma readString_pieces {ps : List (Piece UInt16)} (hps : ∀ p ∈ ps, p.Valid) (text : JsString) :
    readString (ps.flatMap writePiece ++ 0x22 :: text) = some (ps.map pieceUnit, text) := by
  induction ps with
  | nil =>
      rw [List.flatMap_nil, List.nil_append, readString.eq_def]
      simp
  | cons p ps ih =>
      rw [List.forall_mem_cons] at hps
      rw [List.flatMap_cons, List.append_assoc, List.map_cons]
      cases p with
      | Raw u =>
          obtain ⟨hquote, hslash, hctl⟩ := hps.1
          have hlow : ¬ u < 0x20 := by
            intro hlt
            exact absurd (UInt16.lt_iff_toNat_lt.mp hlt) (not_lt.mpr hctl)
          rw [writePiece, List.singleton_append, readString_plain (fun h => hquote (by rw [h]; rfl))
            (fun h => hslash (by rw [h]; rfl)) hlow, ih hps.2]
          rfl
      | Short e =>
          obtain ⟨hunit, hu⟩ := unescape_some hps.1
          show readString (0x5C :: UInt16.ofNat e :: (ps.flatMap writePiece ++ 0x22 :: text)) = _
          rw [readString.eq_def]
          simp only [if_neg slash_ne_quote, if_true, if_neg hu, hunit, ih hps.2, Option.bind_eq_bind,
            Option.bind_some]
          rfl
      | Hex a b c d =>
          obtain ⟨ha, hb, hc, hd⟩ := hps.1
          show readString (0x5C :: 0x75 :: UInt16.ofNat a :: UInt16.ofNat b :: UInt16.ofNat c
            :: UInt16.ofNat d :: (ps.flatMap writePiece ++ 0x22 :: text)) = _
          rw [readString.eq_def]
          simp only [if_neg slash_ne_quote, if_true, hexUnit_some ha hb hc hd, ih hps.2,
            Option.bind_eq_bind, Option.bind_some]
          rfl

/-- `JSON.parse` reads what `Marshal` wrote. -/
lemma parse_marshalled (v : JsonTree ℤ (List Char)) :
    Ecma.parse (utf16 (write (charSource htmlUnsafe v))) = some (toJson v) := by
  have hback : ReadBack marshalUnits fun s => ∃ cs, s = utf16 cs := by
    rintro s ⟨cs, rfl⟩ text
    have hvalid : ∀ p ∈ expandPieces utf16Char (cs.map (escapeChar htmlUnsafe)), p.Valid := by
      refine Go.expandPieces_valid Go.encoding_utf16 ?_
      intro p hp
      obtain ⟨c, -, rfl⟩ := List.mem_map.mp hp
      exact Go.escapeChar_valid Go.htmlUnsafe_lt
    rw [marshalUnits, scalars_utf16, readString_pieces hvalid, Go.pieceUnit_expand,
      Go.charUnits_escape fun _ => Go.htmlUnsafe_lt]
  have hquote : ∀ cs, marshalUnits (utf16 cs)
      = (expandPieces utf16Char (cs.map (escapeChar htmlUnsafe))).flatMap writePiece := by
    intro cs
    rw [marshalUnits, scalars_utf16]
  have hexpand := write_expand Go.encoding_utf16 (Go.charSource_valid (fun _ => Go.htmlUnsafe_lt) v)
  rw [expand, charSource, map_map] at hexpand
  rw [← parse_stringifyWith hback (toJson_strings v), ← write_eq_stringifyWith hquote]
  exact congrArg Ecma.parse hexpand.symm

/-! ## Results of both languages -/

/-- A result as either language can hold it: its strings are texts, and the omitted form has neither a
body nor what belongs to a message. -/
structure CommonResult where
  kind : ResultKind
  status : Option ℤ := none
  headers : Option (List (List Char × List Char)) := none
  body : Option (List UInt8) := none
  outcome : Option MessageOutcome := none
  error : Option (List Char × List Char) := none
  omitted : Bool := false
  form : omitted = true → body = none ∧ outcome = none ∧ error = none := by simp

namespace CommonResult

variable (r : CommonResult)

/-- The result without its body, in TypeScript. -/
def decodedTs : StoredResult where
  kind := r.kind
  status := r.status
  headers := r.headers.map fun hs => hs.map fun h => (utf16 h.1, utf16 h.2)
  outcome := r.outcome
  error := r.error.map fun e => ⟨utf16 e.1, utf16 e.2⟩

/-- What `complete` is given in TypeScript. -/
def toTs : Completion :=
  if r.omitted then .Omitted ⟨r.kind, r.status, r.decodedTs.headers⟩
  else .Stored { r.decodedTs with body := r.body }

/-- The result without its body, in Go, where an absent status is zero. -/
def decodedGo : Go.StoredResult where
  kind := r.kind.toGo
  status := r.status.getD 0
  headers := r.headers.map fun hs => hs.map fun h => (utf8 h.1, utf8 h.2)
  outcome := r.outcome
  error := r.error.map fun e => ⟨utf8 e.1, utf8 e.2⟩

/-- What `Complete` is given in Go. -/
def toGo : Go.StoredResult := { r.decodedGo with body := r.body, omitted := r.omitted }

/-- The tree of the metadata. -/
def tree : JsonTree ℤ (List Char) := (JsonTree.Obj (Go.metaMembers (Go.metaOf r.toGo))).map id runes

end CommonResult

/-- The integers a JavaScript number holds exactly, and all below them. -/
def IsSafe (n : ℤ) : Prop := -2 ^ 53 < n ∧ n < 2 ^ 53

section

variable {r : CommonResult}

lemma withoutBody_toTs : r.toTs.withoutBody = r.decodedTs := by
  rw [CommonResult.toTs]
  split_ifs with homitted
  · obtain ⟨-, houtcome, herror⟩ := r.form homitted
    simp [Completion.withoutBody, omittedToStored, CommonResult.decodedTs, houtcome, herror,
      Function.comp_def]
  · rfl

/-- An optional member is the same member in both languages. -/
lemma optionalField_json {α β γ : Type} {name : String} {goTree : α → JsonTree ℤ Go.GoString}
    {f : β → α} (json : γ → Json) (g : β → γ) (hname : utf16 (runes (Go.ascii name)) = js name)
    (h : ∀ b, toJson ((goTree (f b)).map id runes) = json (g b)) (o : Option β) :
    (Go.optionalField name goTree (o.map f)).map
        (Prod.map utf16 toJson ∘ Prod.map runes (JsonTree.map id runes))
      = optionalMember name json (o.map g) := by
  cases o with
  | none => rfl
  | some b => simp [Go.optionalField, optionalMember, hname, h]

/-- **The two languages write one tree.** -/
lemma toJson_tree (hstatus : ∀ n ∈ r.status, n ≠ 0) : toJson r.tree = resultMeta r.toTs := by
  have hname : ∀ name ∈ ["kind", "status", "headers", "outcome", "error", "name", "message"],
      utf16 (runes (Go.ascii name)) = js name := by decide +kernel
  simp only [List.forall_mem_cons] at hname
  obtain ⟨hkind, hstatusName, hheaders, houtcome, herror, hn, hm, -⟩ := hname
  have hkindText : toJson ((JsonTree.Str (Go.kindText r.toGo.kind)).map id runes) = r.kind.toJson := by
    have htext : ∀ kind : ResultKind, Json.Str (utf16 (runes (Go.kindText kind.toGo))) = kind.toJson := by
      intro kind
      cases kind
      · exact congrArg Json.Str (by decide +kernel)
      · exact congrArg Json.Str (by decide +kernel)
    rw [map_str, toJson, fold_str]
    exact htext r.kind
  have hgoStatus : (Go.metaOf r.toGo).status = r.status.map id := by
    show (if r.status.getD 0 ≠ 0 then some (r.status.getD 0) else none) = _
    cases hs : r.status with
    | none => rfl
    | some n => simp [hstatus n hs]
  have hgoHeaders : (Go.metaOf r.toGo).headers
      = r.headers.map fun hs => hs.map fun h => (utf8 h.1, utf8 h.2) := rfl
  have hgoOutcome : (Go.metaOf r.toGo).outcome = r.outcome.map id := (Option.map_id_fun' ▸ rfl)
  have hgoError : (Go.metaOf r.toGo).error = r.error.map fun e => ⟨utf8 e.1, utf8 e.2⟩ := by
    show (r.error.map _).map _ = _
    rw [Option.map_map]
    rfl
  have hmembers : (Go.metaMembers (Go.metaOf r.toGo)).map
        (Prod.map utf16 toJson ∘ Prod.map runes (JsonTree.map id runes))
      = (js "kind", r.kind.toJson) :: (optionalMember "status" Json.Num (r.status.map id)
        ++ optionalMember "headers" headersJson r.decodedTs.headers
        ++ optionalMember "outcome" MessageOutcome.toJson (r.outcome.map id)
        ++ optionalMember "error" MessageError.toJson r.decodedTs.error) := by
    have houtcomeText : ∀ o, Json.Str (utf16 (runes (Go.outcomeText o))) = o.toJson := by
      intro o
      cases o
      · exact congrArg Json.Str (by decide +kernel)
      · exact congrArg Json.Str (by decide +kernel)
    rw [Go.metaMembers, List.map_cons, List.map_append, List.map_append, List.map_append, hgoStatus,
      hgoHeaders, hgoOutcome, hgoError,
      optionalField_json Json.Num id hstatusName (fun n => by simp [toJson]),
      optionalField_json headersJson (fun hs => hs.map fun h => (utf16 h.1, utf16 h.2)) hheaders
        (fun hs => by
          simp [Go.headersTree, headersJson, toJson, Function.comp_def, runes_utf8]),
      optionalField_json MessageOutcome.toJson id houtcome
        (fun o => by simpa [toJson] using houtcomeText o),
      optionalField_json MessageError.toJson (fun e => ⟨utf16 e.1, utf16 e.2⟩) herror
        (fun e => by simp [Go.errorTree, MessageError.toJson, toJson, hn, hm, runes_utf8])]
    have hhead : (Prod.map utf16 toJson ∘ Prod.map runes (JsonTree.map id runes))
        (Go.ascii "kind", JsonTree.Str (Go.kindText (Go.metaOf r.toGo).kind))
        = (js "kind", r.kind.toJson) := Prod.ext hkind hkindText
    rw [hhead]
    rfl
  rw [CommonResult.tree, map_obj, toJson_obj, List.map_map, hmembers, CommonResult.toTs]
  split_ifs with homitted
  · obtain ⟨-, houtcome, herror⟩ := r.form homitted
    simp [resultMeta, houtcome, CommonResult.decodedTs, herror, optionalMember]
  · simp [resultMeta, CommonResult.decodedTs]

/-- The strings of such a result are UTF-8, so nothing in its metadata is repaired. -/
lemma metaOf_repaired : (Go.metaOf r.toGo).repaired = Go.metaOf r.toGo := by
  have hheaders : (Go.metaOf r.toGo).headers.map Go.repairHeaders = (Go.metaOf r.toGo).headers := by
    simp [Go.metaOf, CommonResult.toGo, CommonResult.decodedGo, Go.repairHeaders, Function.comp_def,
      Go.repair_utf8]
  have herror : (Go.metaOf r.toGo).error.map Go.repairError = (Go.metaOf r.toGo).error := by
    simp [Go.metaOf, CommonResult.toGo, CommonResult.decodedGo, Go.repairError, Function.comp_def,
      Go.repair_utf8]
  rw [Go.Meta.repaired, hheaders, herror]

/-- A safe status fits Go's `int`. -/
lemma metaOf_toGo_status (hstatus : ∀ n ∈ r.status, IsSafe n) :
    ∀ n ∈ (Go.metaOf r.toGo).status, Go.IsInt64 n := by
  refine Go.metaOf_status ?_
  show Go.IsInt64 (r.status.getD 0)
  rw [Go.IsInt64]
  cases hs : r.status with
  | none => simp
  | some n =>
      obtain ⟨hlow, hhigh⟩ := hstatus n hs
      simp only [Option.getD_some]
      omega

/-- The struct holds all of the result but its body. -/
lemma resultOf_metaOf : Go.resultOf (Go.metaOf r.toGo) = r.decodedGo := by
  have hstatus : (Go.metaOf r.toGo).status.getD 0 = r.status.getD 0 := by
    show (if r.status.getD 0 ≠ 0 then some (r.status.getD 0) else none).getD 0 = _
    split_ifs with hzero
    · rfl
    · exact (not_not.mp hzero).symm
  rw [Go.resultOf, hstatus]
  simp [Go.metaOf, CommonResult.toGo, CommonResult.decodedGo, Function.comp_def]

/-- Go reads the tree whatever is escaped in its text. -/
lemma decodeMeta_text {also : Char → Bool} (halso : ∀ c, also c = true → c.toNat < 0x10000)
    (hstatus : ∀ n ∈ r.status, IsSafe n) :
    Go.decodeMeta metaJson (utf8 (write (charSource also r.tree))) = .ok r.decodedGo := by
  have hread := Go.unmarshal_charSource (Go.metaOf r.toGo) halso (metaOf_toGo_status hstatus)
  rw [metaOf_repaired] at hread
  exact (Go.decodeMeta_eq hread).trans (congrArg Except.ok resultOf_metaOf)

/-- The text TypeScript writes, in Go's strings. -/
lemma goText_encodeResultMeta (hstatus : ∀ n ∈ r.status, n ≠ 0) :
    goText (encodeResultMeta r.toTs) = utf8 (write (charSource (fun _ => false) r.tree)) := by
  rw [encodeResultMeta, ← toJson_tree hstatus, stringify_toJson, goText, encode_utf16]

/-- The text Go writes. -/
lemma encodeMeta_toGo :
    Go.encodeMeta metaJson r.toGo = .ok (utf8 (write (charSource htmlUnsafe r.tree))) := by
  rw [Go.encodeMeta_eq, Go.marshalMeta_eq]
  rfl

/-- TypeScript reads the text Go writes. -/
lemma decodeResultMeta_text (hstatus : ∀ n ∈ r.status, n ≠ 0) :
    decodeResultMeta (jsText (utf8 (write (charSource htmlUnsafe r.tree)))) = some r.decodedTs := by
  rw [jsText, runes_utf8, decodeResultMeta, parse_marshalled, toJson_tree hstatus, Option.bind_some,
    resultOfMeta_resultMeta, withoutBody_toTs]

variable (r) in
/-- **A result comes back the same from each pair of a writer and a reader**, when its status is a
nonzero integer that both languages hold exactly. -/
theorem metadata_cross_language (hstatus : ∀ n ∈ r.status, n ≠ 0 ∧ IsSafe n) :
    decodeResultMeta (encodeResultMeta r.toTs) = some r.decodedTs
      ∧ Go.decodeMeta metaJson (goText (encodeResultMeta r.toTs)) = .ok r.decodedGo
      ∧ ∃ text, Go.encodeMeta metaJson r.toGo = .ok text
        ∧ decodeResultMeta (jsText text) = some r.decodedTs
        ∧ Go.decodeMeta metaJson text = .ok r.decodedGo := by
  have hne : ∀ n ∈ r.status, n ≠ 0 := fun n hn => (hstatus n hn).1
  have hsafe : ∀ n ∈ r.status, IsSafe n := fun n hn => (hstatus n hn).2
  refine ⟨?_, ?_, _, encodeMeta_toGo, decodeResultMeta_text hne,
    decodeMeta_text (fun _ => Go.htmlUnsafe_lt) hsafe⟩
  · rw [decodeResultMeta_encodeResultMeta, withoutBody_toTs]
  · rw [goText_encodeResultMeta hne]
    exact decodeMeta_text no_escape hsafe

end

/-- A message result with an error of empty strings, and a header named twice. -/
def sampleResult : CommonResult where
  kind := .Message
  status := some 200
  headers := some [(['a'], ['é', '<']), (['a'], [])]
  outcome := some .Error
  error := some ([], ['"'])

/-- A result with nothing but its kind. -/
def bareResult : CommonResult where
  kind := .Http

theorem metadata_cross_language_sample :
    Go.decodeMeta metaJson (goText (encodeResultMeta sampleResult.toTs)) = .ok sampleResult.decodedGo
      ∧ Go.decodeMeta metaJson (goText (encodeResultMeta bareResult.toTs)) = .ok bareResult.decodedGo :=
  ⟨(metadata_cross_language sampleResult (by simp [sampleResult, IsSafe])).2.1,
    (metadata_cross_language bareResult (by simp [bareResult])).2.1⟩

/-- A status that Go's `int` has no room for is not read back. -/
theorem metadata_status_overflow :
    ¬ ∀ r : CommonResult, (∀ n ∈ r.status, n ≠ 0) →
      Go.decodeMeta metaJson (goText (encodeResultMeta r.toTs)) = .ok r.decodedGo := by
  intro h
  have hread : Go.unmarshalMeta (goText (encodeResultMeta
      (CommonResult.toTs { kind := .Http, status := some (10 ^ 19) }))) = none := by
    decide +kernel
  have hok := h { kind := .Http, status := some (10 ^ 19) } (by simp)
  simp only [Go.decodeMeta, metaJson, hread] at hok
  cases hok

end Anyonce

/-! ## Strings that are not UTF-8 -/

namespace Anyonce.Go

open Unicode

/-- The row holds the result as every Go store writes it. -/
def HoldsResult (row : RecordRow GoString) (r : StoredResult) : Prop :=
  (∃ text, encodeMeta metaJson r = .ok text ∧ row.resultMeta = some text) ∧ row.resultBody = r.body

/-- Its names and values are texts in UTF-8. -/
def Utf8Headers (headers : List (GoString × GoString)) : Prop :=
  ∀ h ∈ headers, (∃ cs, h.1 = utf8 cs) ∧ ∃ cs, h.2 = utf8 cs

lemma repairHeaders_eq_iff (headers : List (GoString × GoString)) :
    repairHeaders headers = headers ↔ Utf8Headers headers := by
  induction headers with
  | nil => simp [repairHeaders, Utf8Headers]
  | cons h rest ih =>
      rw [Utf8Headers, List.forall_mem_cons, ← Utf8Headers, ← ih, repairHeaders, List.map_cons,
        List.cons.injEq, Prod.ext_iff, repair_eq_iff, repair_eq_iff]
      rfl

/-- What a row that holds a result is read as. -/
lemma toRecord_holds {row : RecordRow GoString} {r : StoredResult} (hstatus : IsInt64 r.status)
    (h : HoldsResult row r) : (toRecord metaJson row).result = some
      { r with
        headers := r.headers.map repairHeaders
        error := r.error.map repairError
        omitted := row.resultOmitted = 1 } := by
  obtain ⟨⟨text, hencode, hmeta⟩, hbody⟩ := h
  obtain ⟨text', hencode', hdecode⟩ := decodeMeta_encodeMeta hstatus
  have htext : text' = text := by
    rw [hencode] at hencode'
    exact (Except.ok.inj hencode').symm
  rw [htext] at hdecode
  simp only [toRecord, hmeta, hdecode, hbody]
  cases hb : r.body <;> simp

/-- **A stored result is given back exactly when its headers are UTF-8**: then its headers, its status
and its body are what was stored. -/
theorem go_headers_exact_iff {row : RecordRow GoString} {r : StoredResult} (hstatus : IsInt64 r.status)
    (h : HoldsResult row r) :
    (∃ res, (toRecord metaJson row).result = some res ∧ res.headers = r.headers
        ∧ res.status = r.status ∧ res.body = r.body)
      ↔ ∀ hs ∈ r.headers, Utf8Headers hs := by
  rw [toRecord_holds hstatus h]
  simp only [Option.some.injEq, exists_eq_left', and_self, and_true]
  cases r.headers with
  | none => simp
  | some hs => simp [repairHeaders_eq_iff]

/-- A header value in Latin-1, whose last byte is no UTF-8. -/
def latinResult : StoredResult :=
  { kind := .Http, status := 200, headers := some [(ascii "x-city", [0x63, 0x61, 0x66, 0xE9])],
    body := some [] }

/-- Texts in UTF-8, under names of which one is there twice. -/
def repeatedResult : StoredResult :=
  { kind := .Http, status := 200, body := some [],
    headers := some [(ascii "vary", ascii "accept"), (ascii "x-city", utf8 "café".toList), (ascii "vary", [])] }

/-- The row of a result. -/
def rowOf (r : StoredResult) : RecordRow GoString where
  scope := []
  key := []
  fingerprint := []
  state := .Completed
  fence := 1
  leaseUntil := 0
  createdAt := 0
  expiresAt := 0
  resultMeta := some (marshalMeta (metaOf r))
  resultBody := r.body
  resultOmitted := 0

lemma holds_rowOf (r : StoredResult) : HoldsResult (rowOf r) r := ⟨⟨_, encodeMeta_eq _, rfl⟩, rfl⟩

lemma utf8Headers_repeatedResult : ∀ hs ∈ repeatedResult.headers, Utf8Headers hs := by
  rintro hs ⟨⟩
  rw [← repairHeaders_eq_iff]
  decide +kernel

/-- A repeated name comes back, and so does the absence of the list; the Latin-1 value does not. -/
theorem go_headers_exact_latin :
    (∃ res, (toRecord metaJson (rowOf repeatedResult)).result = some res ∧ res.headers = repeatedResult.headers
        ∧ res.status = repeatedResult.status ∧ res.body = repeatedResult.body)
      ∧ (∃ res, (toRecord metaJson (rowOf {})).result = some res ∧ res.headers = none ∧ res.status = 0
        ∧ res.body = none)
      ∧ ¬ ∃ res, (toRecord metaJson (rowOf latinResult)).result = some res ∧ res.headers = latinResult.headers
        ∧ res.status = latinResult.status ∧ res.body = latinResult.body := by
  refine ⟨?_, ?_, ?_⟩
  · exact (go_headers_exact_iff (by simp [IsInt64, repeatedResult]) (holds_rowOf _)).mpr utf8Headers_repeatedResult
  · exact (go_headers_exact_iff (r := {}) (by simp [IsInt64]) (holds_rowOf _)).mpr (by simp)
  · rw [go_headers_exact_iff (by simp [IsInt64, latinResult]) (holds_rowOf _)]
    intro h
    obtain ⟨-, hvalue⟩ := h _ rfl _ List.mem_cons_self
    rw [← repair_eq_iff] at hvalue
    exact absurd hvalue (by decide +kernel)

/-- The byte comes back as the three of U+FFFD. -/
theorem go_headers_replaced :
    ∃ r row, IsInt64 r.status ∧ HoldsResult row r ∧ ∃ res, (toRecord metaJson row).result = some res
      ∧ res.headers = some [(ascii "x-city", [0x63, 0x61, 0x66, 0xEF, 0xBF, 0xBD])]
      ∧ res.headers ≠ r.headers := by
  have hrepair : repairHeaders [(ascii "x-city", [0x63, 0x61, 0x66, 0xE9])]
      = [(ascii "x-city", [0x63, 0x61, 0x66, 0xEF, 0xBF, 0xBD])] := by decide +kernel
  refine ⟨latinResult, rowOf latinResult, by simp [IsInt64, latinResult], holds_rowOf _, _,
    toRecord_holds (by simp [IsInt64, latinResult]) (holds_rowOf _), ?_, ?_⟩
  · exact congrArg some hrepair
  · intro h
    have hheaders : repairHeaders [(ascii "x-city", [0x63, 0x61, 0x66, 0xE9])] = _ := Option.some.inj h
    rw [hrepair] at hheaders
    exact absurd hheaders (by decide)

end Anyonce.Go
