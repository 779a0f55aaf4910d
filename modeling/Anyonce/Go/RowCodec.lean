import Mathlib.Algebra.Group.Int.Defs
import Anyonce.Go.Json
import Anyonce.Go.SqlStore

/-!
# Result metadata as JSON

`json.Marshal` and `json.Unmarshal` at the struct `meta` of `go/store/internal/rowcodec/rowcodec.go`.
The members stand in the order of the fields, and a nil pointer has none.  A name that is read is
matched to a field as it is, or else without regard to case; members of other names are skipped, a null
leaves a pointer nil and a string as it was, and a value of another type is an error.  A kind or an
outcome is one of the constants: any other string is an error here.

`unmarshal_marshal` says what comes back: the metadata with every header and error string repaired,
which is the string itself exactly when it is UTF-8.
-/

namespace Anyonce.Go

open JsonText JsonTree Unicode
open Ecma (intText)

/-! ## Marshal -/

/-- The wire text of a kind. -/
def kindText : Kind → GoString
  | .Unset => []
  | .Http => ascii "http"
  | .Message => ascii "message"

/-- The wire text of an outcome. -/
def outcomeText : MessageOutcome → GoString
  | .Ok => ascii "ok"
  | .Error => ascii "error"

/-- The digits of an integer, as a JSON token. -/
def intToken (n : ℤ) : List ℕ := (intText n).map UInt16.toNat

/-- The headers as an array of pairs. -/
def headersTree (headers : List (GoString × GoString)) : JsonTree ℤ GoString :=
  .Arr (headers.map fun h => .Arr [.Str h.1, .Str h.2])

/-- The error as an object of two members. -/
def errorTree (e : MessageError) : JsonTree ℤ GoString :=
  .Obj [(ascii "name", .Str e.name), (ascii "message", .Str e.message)]

/-- A field that is a pointer, with `omitempty`. -/
def optionalField {α : Type} (name : String) (tree : α → JsonTree ℤ GoString) :
    Option α → List (GoString × JsonTree ℤ GoString)
  | none => []
  | some a => [(ascii name, tree a)]

/-- The fields of the struct that are written. -/
def metaMembers (m : Meta) : List (GoString × JsonTree ℤ GoString) :=
  (ascii "kind", .Str (kindText m.kind)) :: (optionalField "status" .Num m.status
    ++ optionalField "headers" headersTree m.headers
    ++ optionalField "outcome" (fun o => .Str (outcomeText o)) m.outcome
    ++ optionalField "error" errorTree m.error)

/-- `json.Marshal`, which has no error for such a struct. -/
def marshalMeta (m : Meta) : GoString :=
  write ((JsonTree.Obj (metaMembers m)).map intToken marshalString)

/-! ## Unmarshal -/

/-- The rune for all that are the same without regard to case, as far as ASCII letters are among
them. -/
def foldRune (c : Char) : Char :=
  if c.toNat = 0x17F then 'S' else if c.toNat = 0x212A then 'K' else c.toUpper

def foldName (s : GoString) : List Char := (runes s).map foldRune

/-- The field a name is matched to. -/
def fieldOf (fields : List GoString) (name : GoString) : Option GoString :=
  if name ∈ fields then some name else fields.find? fun field => foldName field = foldName name

/-- `strconv.ParseInt` to 64 bits. -/
def parseInt64 (token : List ℕ) : Option ℤ :=
  (Ecma.parseInt (token.map UInt16.ofNat)).filter fun n => -2 ^ 63 ≤ n && n < 2 ^ 63

def kindOfText (text : GoString) : Option Kind :=
  if text = [] then some .Unset
  else if text = ascii "http" then some .Http
  else if text = ascii "message" then some .Message
  else none

/-- The outcome of a text; a pointer to an empty one counts as none. -/
def outcomeOfText (text : GoString) : Option (Option MessageOutcome) :=
  if text = [] then some none
  else if text = ascii "ok" then some (some .Ok)
  else if text = ascii "error" then some (some .Error)
  else none

/-- A value as Go decodes it, a number still its token. -/
abbrev Decoded : Type := JsonTree (List ℕ) GoString

/-- A string field that was `old`. -/
def decodeString (old : GoString) : Decoded → Option GoString
  | .Null => some old
  | .Str s => some s
  | _ => none

/-- A `[2]string`: missing items are empty, and more are skipped. -/
def decodePair : Decoded → Option (GoString × GoString)
  | .Null => some ([], [])
  | .Arr [] => some ([], [])
  | .Arr [a] => do
      let a ← decodeString [] a
      some (a, [])
  | .Arr (a :: b :: _) => do
      let a ← decodeString [] a
      let b ← decodeString [] b
      some (a, b)
  | _ => none

def errorFields : List GoString := [ascii "name", ascii "message"]

/-- One member of a `messageError`. -/
def setErrorMember (e : MessageError) (member : GoString × Decoded) : Option MessageError :=
  match fieldOf errorFields member.1 with
  | none => some e
  | some field =>
      if field = ascii "name" then do
        let name ← decodeString e.name member.2
        some { e with name }
      else do
        let message ← decodeString e.message member.2
        some { e with message }

def metaFields : List GoString :=
  [ascii "kind", ascii "status", ascii "headers", ascii "outcome", ascii "error"]

/-- A kind, from a string or from `null`, which leaves the old one. -/
def decodeKind (old : Kind) : Decoded → Option Kind
  | .Null => some old
  | .Str s => kindOfText s
  | _ => none

/-- A status, from a number in the range of `int` or from `null`. -/
def decodeStatus : Decoded → Option (Option ℤ)
  | .Null => some none
  | .Num token => (parseInt64 token).map some
  | _ => none

/-- Headers, from an array of pairs or from `null`. -/
def decodeHeaders : Decoded → Option (Option (List (GoString × GoString)))
  | .Null => some none
  | .Arr items => (items.mapM decodePair).map some
  | _ => none

/-- An outcome, from a string or from `null`. -/
def decodeOutcome : Decoded → Option (Option MessageOutcome)
  | .Null => some none
  | .Str s => outcomeOfText s
  | _ => none

/-- An error, from an object, whose unknown members are skipped, or from `null`. -/
def decodeError (old : Option MessageError) : Decoded → Option (Option MessageError)
  | .Null => some none
  | .Obj members => (members.foldlM setErrorMember (old.getD ⟨[], []⟩)).map some
  | _ => none

/-- One member of a `meta`. -/
def setMember (m : Meta) (member : GoString × Decoded) : Option Meta :=
  match fieldOf metaFields member.1 with
  | none => some m
  | some field =>
      if field = ascii "kind" then do
        let kind ← decodeKind m.kind member.2
        some { m with kind }
      else if field = ascii "status" then do
        let status ← decodeStatus member.2
        some { m with status }
      else if field = ascii "headers" then do
        let headers ← decodeHeaders member.2
        some { m with headers }
      else if field = ascii "outcome" then do
        let outcome ← decodeOutcome member.2
        some { m with outcome }
      else do
        let error ← decodeError m.error member.2
        some { m with error }

/-- The struct before anything is decoded into it. -/
def zeroMeta : Meta := ⟨.Unset, none, none, none, none⟩

def decodeMembers : Decoded → Option Meta
  | .Null => some zeroMeta
  | .Obj members => members.foldlM setMember zeroMeta
  | _ => none

/-- `json.Unmarshal`; `none` is an error. -/
def unmarshalMeta (text : GoString) : Option Meta := (decodeNumbers text).bind decodeMembers

/-- The package at the type of the metadata. -/
def metaJson : MetaJson where
  marshal m := .ok (marshalMeta m)
  unmarshal text :=
    match unmarshalMeta text with
    | none => .error (.Opaque (ascii "json: cannot unmarshal"))
    | some m => .ok m

/-! ## Texts of trees -/

/-- The code of a decimal digit. -/
lemma intToken_digits (n : ℕ) :
    NumberText.Digits ((Ecma.natText n).map UInt16.toNat) := by
  intro d hd
  obtain ⟨u, hu, rfl⟩ := List.mem_map.mp hd
  simpa only [Ecma.isDigit, Bool.and_eq_true, decide_eq_true_eq, UInt16.le_iff_toNat_le,
    UInt16.reduceToNat, NumberState.isDigit] using Ecma.isDigit_natText n u hu

/-- An integer is written as a token. -/
lemma isNumber_intToken (n : ℤ) : IsNumber (intToken n) := by
  have hnat : ∀ (m : ℕ) {s : NumberState}, s.step 0x30 = some .Zero →
      (∀ d, NumberState.isDigit d = true → d ≠ 0x30 → s.step d = some .Int) →
      (s.run ((Ecma.natText m).map UInt16.toNat)).any NumberState.accepting = true := by
    intro m s hzero hint
    rcases Nat.eq_zero_or_pos m with rfl | hm
    · have hdigits : (Ecma.natText 0).map UInt16.toNat = [0x30] := by decide
      rw [hdigits, NumberState.run, hzero]
      rfl
    · have hdigits := intToken_digits m
      obtain ⟨u, rest, htext, hu⟩ := Ecma.natText_head hm
      rw [htext, List.map_cons] at hdigits ⊢
      have hfirst := hint u.toNat (hdigits _ List.mem_cons_self) fun h => hu (UInt16.toNat_inj.mp h)
      rw [NumberState.run, hfirst, Option.bind_some, NumberText.run_digits
        (fun _ => NumberText.step_int) fun d hd => hdigits d (List.mem_cons_of_mem _ hd)]
      rfl
  have hsign : ∀ d, NumberState.isDigit d = true → d ≠ 0x2D := by
    rintro d hd rfl
    exact absurd hd (by decide)
  rw [IsNumber]
  cases n with
  | ofNat m =>
      refine hnat m rfl fun d hd hne => ?_
      simp [NumberState.step, NumberState.first, hd, hne, hsign d hd]
  | negSucc m =>
      refine hnat (m + 1) (s := .Minus) rfl fun d hd hne => ?_
      simp [NumberState.step, NumberState.first, hd, hne]

/-- A tree over characters as a text, with the escapes of `also` beside those that have to be. -/
def charSource (also : Char → Bool) (v : JsonTree ℤ (List Char)) : Source Char :=
  v.map intToken (List.map (escapeChar also))

section

variable {also : Char → Bool} (halso : ∀ c, also c = true → c.toNat < 0x10000)

include halso

lemma charSource_valid (v : JsonTree ℤ (List Char)) : Valid (charSource also v) := by
  rw [Valid, charSource, all_map]
  refine all_of_forall isNumber_intToken (fun cs p hp => ?_) v
  obtain ⟨c, -, rfl⟩ := List.mem_map.mp hp
  exact escapeChar_valid (halso c)

/-- The text in UTF-8. -/
lemma utf8_charSource (v : JsonTree ℤ (List Char)) : utf8 (write (charSource also v))
    = write (v.map intToken fun cs => expandPieces utf8Char (cs.map (escapeChar also))) := by
  have hexpand := write_expand encoding_utf8 (charSource_valid halso v)
  rw [expand, charSource, map_map] at hexpand
  exact hexpand.symm

/-- A string is denoted by the way it is written. -/
lemma charUnits_escape (cs : List Char) :
    (cs.map (escapeChar also)).flatMap charUnits = utf16 cs := by
  rw [List.flatMap_map, utf16]
  exact List.flatMap_congr fun c _ => charUnits_escapeChar (halso c)

/-- **Such a text is decoded to the tree.** -/
lemma decodeNumbers_charSource (v : JsonTree ℤ (List Char)) (hdepth : depth v ≤ maxNestingDepth) :
    decodeNumbers (utf8 (write (charSource also v))) = some (v.map intToken utf8) := by
  have hvalid : Valid
      (v.map intToken fun cs => expandPieces utf8Char (cs.map (escapeChar also))) := by
    rw [Valid, all_map]
    refine all_of_forall isNumber_intToken (fun cs => expandPieces_valid encoding_utf8 ?_) v
    intro p hp
    obtain ⟨c, -, rfl⟩ := List.mem_map.mp hp
    exact escapeChar_valid (halso c)
  have hunquote : (unquote ∘ fun cs => expandPieces utf8Char (cs.map (escapeChar also))) = utf8 := by
    funext cs
    rw [Function.comp, unquote, pieceRunes_expand, charUnits_escape halso, scalars_utf16]
  rw [utf8_charSource halso, decodeNumbers, parse_write hvalid]
  simp only [Option.bind_eq_bind, Option.bind_some, depth_map, if_pos hdepth, map_map, hunquote]
  rfl

end

/-! ## What comes back -/

/-- A string with what is no UTF-8 in it replaced. -/
def repair (s : GoString) : GoString := utf8 (runes s)

lemma repair_utf8 (cs : List Char) : repair (utf8 cs) = utf8 cs := by rw [repair, runes_utf8]

/-- **A string is its own repair exactly when it is UTF-8.** -/
lemma repair_eq_iff (s : GoString) : repair s = s ↔ ∃ cs, s = utf8 cs := by
  constructor
  · intro h
    exact ⟨runes s, h.symm⟩
  · rintro ⟨cs, rfl⟩
    exact repair_utf8 cs

def repairHeaders (headers : List (GoString × GoString)) : List (GoString × GoString) :=
  headers.map fun h => (repair h.1, repair h.2)

def repairError (e : MessageError) : MessageError := ⟨repair e.name, repair e.message⟩

/-- The metadata after a round trip: what is not UTF-8 has become U+FFFD. -/
def Meta.repaired (m : Meta) : Meta :=
  { m with headers := m.headers.map repairHeaders, error := m.error.map repairError }

/-- The repair of an optional member. -/
lemma optionalField_repaired {α : Type} {name : String} (hname : repair (ascii name) = ascii name)
    {tree : α → JsonTree ℤ GoString} {f : α → α} (h : ∀ a, (tree a).map id repair = tree (f a))
    (o : Option α) : (optionalField name tree o).map (Prod.map repair (JsonTree.map id repair))
      = optionalField name tree (o.map f) := by
  cases o with
  | none => rfl
  | some a => simp [optionalField, hname, h]

/-- The names and the constants are UTF-8, so the repair of the members is that of the metadata. -/
lemma metaMembers_repaired (m : Meta) :
    (JsonTree.Obj (metaMembers m)).map id repair = .Obj (metaMembers m.repaired) := by
  have hname : ∀ name ∈ ["kind", "status", "headers", "outcome", "error", "name", "message"],
      repair (ascii name) = ascii name := by decide +kernel
  simp only [List.forall_mem_cons] at hname
  obtain ⟨hkind, hstatus, hheaders, houtcome, herror, hn, hm, -⟩ := hname
  have hkindText : repair (kindText m.kind) = kindText m.kind := by
    cases m.kind <;> decide +kernel
  have houtcomeText : ∀ o, repair (outcomeText o) = outcomeText o := by
    intro o
    cases o <;> decide +kernel
  rw [map_obj, metaMembers, metaMembers, List.map_cons, List.map_append, List.map_append,
    List.map_append, optionalField_repaired hstatus (f := id) (fun n => by simp),
    optionalField_repaired hheaders (f := repairHeaders)
      (fun hs => by simp [headersTree, repairHeaders, Function.comp_def]),
    optionalField_repaired houtcome (f := id) (fun o => by simp [houtcomeText]),
    optionalField_repaired herror (f := repairError) (fun e => by simp [errorTree, repairError, hn, hm])]
  simp [hkind, hkindText, Meta.repaired]

/-- An optional member that is read. -/
lemma foldlM_optionalField {α : Type} {name : String} {tree : α → JsonTree ℤ GoString}
    {put : Meta → α → Meta} {o : Option α}
    (h : ∀ m, ∀ a ∈ o, setMember m (ascii name, (tree a).map intToken id) = some (put m a)) (m : Meta) :
    ((optionalField name tree o).map (Prod.map id (JsonTree.map intToken id))).foldlM setMember m
      = some (match o with
        | none => m
        | some a => put m a) := by
  cases o with
  | none => rfl
  | some a => simp [optionalField, h m a rfl]

/-- The integers of Go's `int`. -/
def IsInt64 (n : ℤ) : Prop := -2 ^ 63 ≤ n ∧ n < 2 ^ 63

lemma parseInt64_intToken {n : ℤ} (h : IsInt64 n) : parseInt64 (intToken n) = some n := by
  have hunits : (intToken n).map UInt16.ofNat = intText n := by
    rw [intToken, List.map_map]
    exact (List.map_congr_left fun u _ => UInt16.ofNat_toNat).trans (List.map_id _)
  rw [parseInt64, hunits, Ecma.parseInt_intText]
  simpa [Option.filter, IsInt64] using h

lemma mapM_decodePair (headers : List (GoString × GoString)) :
    (headers.map fun h => (JsonTree.Arr [.Str h.1, .Str h.2] : Decoded)).mapM decodePair
      = some headers := by
  induction headers with
  | nil => rfl
  | cons h rest ih =>
      rw [List.map_cons, List.mapM_cons, ih]
      rfl

section

variable (m : Meta)

lemma setMember_status {n : ℤ} (h : IsInt64 n) :
    setMember m (ascii "status", (JsonTree.Num n).map intToken id) = some { m with status := some n } := by
  show (decodeStatus (JsonTree.map intToken id (.Num n))).bind _ = _
  rw [map_num, decodeStatus, parseInt64_intToken h]
  rfl

lemma setMember_headers (headers : List (GoString × GoString)) :
    setMember m (ascii "headers", (headersTree headers).map intToken id)
      = some { m with headers := some headers } := by
  have hitems : (headersTree headers).map intToken id
      = .Arr (headers.map fun h => .Arr [.Str h.1, .Str h.2]) := by
    simp [headersTree, Function.comp_def]
  show (decodeHeaders ((headersTree headers).map intToken id)).bind _ = _
  rw [hitems, decodeHeaders, mapM_decodePair]
  rfl

lemma setMember_outcome (outcome : MessageOutcome) :
    setMember m (ascii "outcome", (JsonTree.Str (outcomeText outcome)).map intToken id)
      = some { m with outcome := some outcome } := by
  rw [map_str]
  cases outcome <;> rfl

lemma setMember_error (e : MessageError) :
    setMember m (ascii "error", (errorTree e).map intToken id) = some { m with error := some e } := by
  have hmembers : (errorTree e).map intToken id
      = .Obj [(ascii "name", .Str e.name), (ascii "message", .Str e.message)] := by
    simp [errorTree]
  rw [hmembers]
  rfl

/-- **The members that are written are read back.** -/
lemma decodeMembers_metaMembers (hstatus : ∀ n ∈ m.status, IsInt64 n) :
    decodeMembers ((JsonTree.Obj (metaMembers m)).map intToken id) = some m := by
  have hkind : setMember zeroMeta
      (Prod.map id (JsonTree.map intToken id) (ascii "kind", JsonTree.Str (kindText m.kind)))
        = some { zeroMeta with kind := m.kind } := by
    rw [Prod.map, map_str]
    cases m.kind <;> rfl
  rw [map_obj, metaMembers, List.map_cons, decodeMembers, List.foldlM_cons, hkind]
  simp only [List.map_append, List.foldlM_append, Option.bind_eq_bind, Option.bind_some,
    foldlM_optionalField fun m n hn => setMember_status m (hstatus n hn),
    foldlM_optionalField fun m hs _ => setMember_headers m hs,
    foldlM_optionalField fun m o _ => setMember_outcome m o,
    foldlM_optionalField fun m e _ => setMember_error m e]
  obtain ⟨kind, status, headers, outcome, error⟩ := m
  cases status <;> cases headers <;> cases outcome <;> cases error <;> rfl

/-- Nothing in metadata is nested deep. -/
lemma depth_metaMembers : depth (JsonTree.Obj (metaMembers m)) ≤ 3 := by
  have hopt : ∀ {α : Type} (name : String) (tree : α → JsonTree ℤ GoString),
      (∀ a, depth (tree a) ≤ 2) → ∀ o, ∀ e ∈ optionalField name tree o, depth e.2 ≤ 2 := by
    intro α name tree htree o e he
    cases o with
    | none => simp [optionalField] at he
    | some a =>
        rw [optionalField, List.mem_singleton] at he
        rw [he]
        exact htree a
  have hheaders : ∀ hs, depth (headersTree hs) ≤ 2 := by
    intro hs
    rw [headersTree, depth_arr, Nat.succ_le_succ_iff, foldr_max_le]
    intro x hx
    obtain ⟨v, hv, rfl⟩ := List.mem_map.mp hx
    obtain ⟨h, -, rfl⟩ := List.mem_map.mp hv
    simp [depth]
  rw [depth_obj, Nat.succ_le_succ_iff, foldr_max_le]
  intro x hx
  obtain ⟨e, he, rfl⟩ := List.mem_map.mp hx
  simp only [metaMembers, List.mem_cons, List.mem_append] at he
  rcases he with rfl | ((he | he) | he) | he
  · simp [depth]
  · exact hopt _ _ (fun n => by simp [depth]) _ e he
  · exact hopt _ _ hheaders _ e he
  · exact hopt _ _ (fun o => by simp [depth]) _ e he
  · exact hopt _ _ (fun e => by simp [errorTree, depth]) _ e he

/-- The metadata as a tree over characters. -/
lemma marshalMeta_eq : marshalMeta m
    = utf8 (write (charSource htmlUnsafe ((JsonTree.Obj (metaMembers m)).map id runes))) := by
  rw [utf8_charSource (fun _ => htmlUnsafe_lt), map_map]
  rfl

/-- The text is read whatever is escaped in it, with every string repaired. -/
lemma unmarshal_charSource {also : Char → Bool} (halso : ∀ c, also c = true → c.toNat < 0x10000)
    (hstatus : ∀ n ∈ m.status, IsInt64 n) :
    unmarshalMeta (utf8 (write (charSource also ((JsonTree.Obj (metaMembers m)).map id runes))))
      = some m.repaired := by
  have hdepth : depth ((JsonTree.Obj (metaMembers m)).map id runes) ≤ maxNestingDepth := by
    rw [depth_map]
    exact le_trans (depth_metaMembers m) (by decide)
  have htree : ((JsonTree.Obj (metaMembers m)).map id runes).map intToken utf8
      = (JsonTree.Obj (metaMembers m.repaired)).map intToken id := by
    rw [← metaMembers_repaired, map_map, map_map]
    rfl
  rw [unmarshalMeta, decodeNumbers_charSource halso _ hdepth, Option.bind_some, htree,
    decodeMembers_metaMembers]
  exact hstatus

/-- **What Go writes, Go reads**, with every string repaired. -/
theorem unmarshal_marshal (hstatus : ∀ n ∈ m.status, IsInt64 n) :
    unmarshalMeta (marshalMeta m) = some m.repaired := by
  rw [marshalMeta_eq]
  exact unmarshal_charSource m (fun _ => htmlUnsafe_lt) hstatus

end

/-! ## The codec -/

/-- The struct `EncodeMeta` fills in. -/
def metaOf (r : StoredResult) : Meta where
  kind := r.kind
  status := if r.status ≠ 0 then some r.status else none
  headers := r.headers
  outcome := r.outcome
  error := r.error.map fun e => ⟨e.name, e.message⟩

/-- The result `DecodeMeta` makes of a struct. -/
def resultOf (m : Meta) : StoredResult :=
  { kind := m.kind
    status := m.status.getD 0
    headers := m.headers
    outcome := m.outcome
    error := m.error.map fun e => ⟨e.name, e.message⟩ }

lemma encodeMeta_eq (r : StoredResult) : encodeMeta metaJson r = .ok (marshalMeta (metaOf r)) := rfl

lemma decodeMeta_eq {text : GoString} {m : Meta} (h : unmarshalMeta text = some m) :
    decodeMeta metaJson text = .ok (resultOf m) := by
  simp only [decodeMeta, metaJson, h]
  rfl

lemma metaOf_status {r : StoredResult} (h : IsInt64 r.status) : ∀ n ∈ (metaOf r).status, IsInt64 n := by
  intro n hn
  simp only [metaOf, Option.mem_def, Option.ite_none_right_eq_some, Option.some.injEq] at hn
  exact hn.2 ▸ h

/-- **What `EncodeMeta` writes, `DecodeMeta` reads**, with every string repaired and without the body. -/
theorem decodeMeta_encodeMeta {r : StoredResult} (h : IsInt64 r.status) :
    ∃ text, encodeMeta metaJson r = .ok text
      ∧ decodeMeta metaJson text = .ok
        { r with
          headers := r.headers.map repairHeaders
          error := r.error.map repairError
          body := none
          omitted := false } := by
  refine ⟨_, encodeMeta_eq r, ?_⟩
  rw [decodeMeta_eq (unmarshal_marshal (metaOf r) (metaOf_status h))]
  obtain ⟨kind, status, headers, body, outcome, error, omitted⟩ := r
  have hstatus : (if status ≠ 0 then some status else none).getD 0 = status := by
    split_ifs with hzero
    · rfl
    · exact (not_not.mp hzero).symm
  simp only [resultOf, metaOf, Meta.repaired, hstatus]
  cases error <;> rfl

end Anyonce.Go
