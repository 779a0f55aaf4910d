import Anyonce.Conformance.Expect
import Anyonce.Fingerprint

/-!
# The verdicts of the two runners

An expectation is a list of checks, and a runner reports no failure when all of them hold as it reads them:
`evaluateExpect_nil_iff`, `Go.evaluate_nil_iff`.  `Plain` are the checks that both read alike
(`Plain.holds_iff`).  The rest are read from different data: a header that is repeated or has bytes above
ASCII is one text on the one side and a first field on the other; a body that is no UTF-8, or has a byte
order mark, is decoded on the one side and compared as bytes on the other; and members of JSON are compared
by identity on the one side and by their text on the other.

* `verdict_parity` — the two verdicts are the same where every check is plain, or where something is not as
  expected that both compare as it stands.
* `repeated_header_verdicts` — a repeated header, on which they are not.
* `evaluateExpect_eq_none_iff` — for which expectations the TypeScript runner has no verdict but throws.
-/

namespace Anyonce.Conformance

open NumberText JsonTree Unicode
open Anyonce.Go (GoString canonicalHeaderKey byteKey marshal unmarshal)

section

variable {F K : Type}

/-! ## Checks -/

/-- One of the things an expectation asks for.  `Object` is what `bodyJson` asks for besides its members. -/
inductive Check (F K : Type)
  | Status (expected : ℤ)
  | Header (name : JsString) (expectation : HeaderExpectation)
  | Body (expected : BodyEquals JsString K)
  | Object
  | Member (key : JsString) (value : JsonTree F JsString)
  | Bytes (expected : ℤ)
  | Invocations (expected : ℤ)

def jsonChecks (members : List (JsString × JsonTree F JsString)) : List (Check F K) :=
  .Object :: members.map fun row => .Member row.1 row.2

/-- The checks of an expectation. -/
def StepExpect.checks (expect : StepExpect F K) : List (Check F K) :=
  .Status expect.status :: expect.headers.rows.map (fun row => .Header row.1 row.2)
    ++ expect.bodyEquals.toList.map .Body
    ++ (expect.bodyJson.elim [] fun members => jsonChecks members.rows)
    ++ expect.bodyBytes.toList.map .Bytes
    ++ expect.handlerInvocations.toList.map .Invocations

variable (d : Doubles F) (compile : List Char → Option (List Char → Bool))

/-- What both runners read of the prior bodies. -/
def SamePrior (step : K) (body : List UInt8) (ctx : EvaluationContext K) : Prop :=
  ctx.priorBodies step = some body

/-- The value that a header has in TypeScript is as expected. -/
def HeaderExpectation.Holds (value : Option JsString) : HeaderExpectation → Prop
  | .Exact expected => value = some expected
  | .Present => value ≠ none
  | .Absent => value = none
  | .Regex pattern => ∃ test ∈ compile pattern, ∃ actual ∈ value, test (scalars actual) = true

/-- The fields that a header has in Go are as expected. -/
def HeaderExpectation.HoldsGo (fields : List GoString) : HeaderExpectation → Prop
  | .Exact expected => fields.head? = some (encode expected)
  | .Present => fields ≠ []
  | .Absent => fields = []
  | .Regex pattern =>
      pattern = [] ∨ ∃ test ∈ compile pattern, ∃ actual ∈ fields.head?, test (runes actual) = true

/-- What a map with these entries holds in Go under the name that this one becomes. -/
def inForce {V : Type} (rows : List (JsString × V)) (name : JsString) : Option V :=
  last (encode name) (rows.map (Prod.map encode id))

variable [DecidableEq F]

/-- **A check as TypeScript reads it.** -/
def Check.Holds (observed : ObservedResponse) (ctx : EvaluationContext K) : Check F K → Prop
  | .Status expected => observed.status = expected
  | .Header name expectation => IsHeaderName name ∧ expectation.Holds compile (observed.headers.get name)
  | .Body (.Exact value) => utf16 (decode observed.body) = value
  | .Body (.SameAs step) => SamePrior step observed.body ctx
  | .Object => ∃ record, jsonParse d (utf16 (decode observed.body)) = some (.Obj record)
  | .Member key value => ∃ record, jsonParse d (utf16 (decode observed.body)) = some (.Obj record)
      ∧ ∃ got ∈ last key record, strictEquals d got (finite value) = true
  | .Bytes expected => (observed.body.length : ℤ) = expected
  | .Invocations expected => ctx.handlerInvocations = some expected

/-- **A check as Go reads it.** -/
def Check.HoldsGo (expect : StepExpect F K) (observed : ObservedResponse) (ctx : EvaluationContext K) :
    Check F K → Prop
  | .Status expected => observed.status = expected
  | .Header name _ => ∀ expectation ∈ inForce expect.headers.rows name, expectation.HoldsGo compile
      (observed.toGo.header.entry (canonicalHeaderKey (encode name)))
  | .Body (.Exact value) => observed.body = encode value
  | .Body (.SameAs step) => SamePrior step observed.body ctx
  | .Object => ∃ object, unmarshal d observed.body = some (.Obj object)
  | .Member key _ => ∀ members ∈ expect.bodyJson, ∀ value ∈ inForce members.rows key,
      ∃ object, unmarshal d observed.body = some (.Obj object)
        ∧ ∃ got ∈ last (encode key) object, marshal d got = marshal d (goValue value)
  | .Bytes expected => (observed.body.length : ℤ) = expected
  | .Invocations expected => ctx.handlerInvocations = some expected

/-! ## No failure -/

variable {d compile} {expect : StepExpect F K} {observed : ObservedResponse} {ctx : EvaluationContext K}

lemma checkStatus_nil_iff {S J : Type} {expected got : ℤ} :
    (checkStatus expected got : List (Failure S J K)) = [] ↔ got = expected := by
  simp [checkStatus]

lemma checkSameAs_nil_iff {S J : Type} {step : K} {body : List UInt8} :
    (checkSameAs step body ctx : List (Failure S J K)) = [] ↔ SamePrior step body ctx := by
  rw [checkSameAs, SamePrior]
  cases ctx.priorBodies step with
  | none => simp
  | some prior => simp

lemma checkBodyBytes_nil_iff {S J : Type} {expected : Option ℤ} {body : List UInt8} :
    (checkBodyBytes expected body : List (Failure S J K)) = [] ↔ ∀ n ∈ expected, (body.length : ℤ) = n := by
  cases expected with
  | none => simp [checkBodyBytes]
  | some n => simp [checkBodyBytes]

lemma checkInvocations_nil_iff {S J : Type} {expected got : Option ℤ} :
    (checkInvocations expected got : List (Failure S J K)) = [] ↔ ∀ n ∈ expected, got = some n := by
  cases expected with
  | none => simp [checkInvocations]
  | some n =>
      cases got with
      | none => simp [checkInvocations]
      | some m => simp [checkInvocations]

omit [DecidableEq F] in
lemma checkHeader_nil_iff {name : JsString} {expectation : HeaderExpectation} {headers : Headers} :
    (checkHeader compile name expectation headers : Option (List (JsFailure F K))) = some []
      ↔ IsHeaderName name ∧ expectation.Holds compile (headers.get name) := by
  unfold checkHeader
  by_cases hname : IsHeaderName name
  · simp only [hname, true_and]
    cases expectation with
    | Exact value => cases headers.get name <;> simp [HeaderExpectation.Holds]
    | Present => cases headers.get name <;> simp [HeaderExpectation.Holds]
    | Absent => cases headers.get name <;> simp [HeaderExpectation.Holds]
    | Regex pattern =>
        cases hcompile : compile pattern with
        | none => simp [HeaderExpectation.Holds, hcompile]
        | some test => cases headers.get name <;> simp [HeaderExpectation.Holds, hcompile]
  · simp [hname]

omit [DecidableEq F] in
lemma checkHeader_go_nil_iff {name : GoString} {expectation : HeaderExpectation} {h : Go.Header} :
    (Go.checkHeader compile name expectation.toGo h : List (Go.GoFailure F K)) = []
      ↔ expectation.HoldsGo compile (h.entry (canonicalHeaderKey name)) := by
  unfold Go.checkHeader
  cases expectation with
  | Exact value =>
      cases h.entry (canonicalHeaderKey name) <;> simp [HeaderExpectation.HoldsGo, HeaderExpectation.toGo]
  | Present =>
      cases h.entry (canonicalHeaderKey name) <;> simp [HeaderExpectation.HoldsGo, HeaderExpectation.toGo]
  | Absent =>
      cases h.entry (canonicalHeaderKey name) <;> simp [HeaderExpectation.HoldsGo, HeaderExpectation.toGo]
  | Regex pattern =>
      by_cases hempty : pattern = []
      · simp [HeaderExpectation.HoldsGo, HeaderExpectation.toGo, hempty]
      · simp only [HeaderExpectation.HoldsGo, HeaderExpectation.toGo, hempty]
        cases hcompile : compile pattern with
        | none => simp [hempty]
        | some test => cases h.entry (canonicalHeaderKey name) <;> simp [hempty]

lemma checkBodyEquals_nil_iff {expected : BodyEquals JsString K} :
    (checkBodyEquals expected observed.body ctx : List (JsFailure F K)) = []
      ↔ (Check.Body expected).Holds d compile observed ctx := by
  cases expected with
  | Exact value => simp [checkBodyEquals, Check.Holds]
  | SameAs step => exact checkSameAs_nil_iff

omit [DecidableEq F] in
lemma checkBodyEquals_go_nil_iff {expected : BodyEquals JsString K} :
    (Go.checkBodyEquals expected.toGo observed.body ctx : List (Go.GoFailure F K)) = []
      ↔ (Check.Body expected).HoldsGo d compile expect observed ctx := by
  cases expected with
  | Exact value => simp [Go.checkBodyEquals, BodyEquals.toGo, Check.HoldsGo]
  | SameAs step => exact checkSameAs_nil_iff

lemma checkBodyJson_nil_iff {members : Relational.OrderedMap JsString (JsonTree F JsString)} :
    (checkBodyJson d members observed.body : List (JsFailure F K)) = []
      ↔ ∀ c ∈ jsonChecks members.rows, c.Holds d compile observed ctx := by
  rw [jsonChecks, List.forall_mem_cons, List.forall_mem_map]
  simp only [Check.Holds]
  unfold checkBodyJson
  cases hparse : jsonParse d (utf16 (decode observed.body)) with
  | none => simp
  | some v =>
      cases v with
      | Obj record =>
          simp only [Option.some.injEq, Obj.injEq, exists_eq', true_and, exists_eq_left']
          rw [List.flatMap_eq_nil_iff]
          refine forall₂_congr fun row _ => ?_
          cases last row.1 record with
          | none => simp
          | some got => simp
      | _ => simp

/-- What is in force under the names that a map is given. -/
lemma forall_inForce_iff {V W : Type} {rows : List (JsString × V)} {g : V → W} {P : GoString → W → Prop} :
    (∀ m ∈ ordered byteKey (rows.map (Prod.map encode g)), P m.1 m.2)
      ↔ ∀ row ∈ rows, ∀ v ∈ inForce rows row.1, P (encode row.1) (g v) := by
  have hlast : ∀ name, last name (rows.map (Prod.map encode g))
      = (last name (rows.map (Prod.map encode id))).map g := by
    intro name
    rw [← last_map, List.map_map]
    rfl
  constructor
  · intro h row _ v hv
    refine h (encode row.1, g v) ((mem_ordered _ _ _).mpr ?_)
    rw [hlast, show last (encode row.1) (rows.map (Prod.map encode id)) = some v from hv]
    rfl
  · intro h m hm
    obtain ⟨v, hv, hg⟩ := Option.map_eq_some_iff.mp ((hlast m.1).symm.trans ((mem_ordered _ _ _).mp hm))
    obtain ⟨row, hrow, heq⟩ := List.mem_map.mp (mem_of_last hv)
    have hname : encode row.1 = m.1 := congrArg Prod.fst heq
    rw [← hg, ← hname]
    refine h row hrow v ?_
    rw [inForce, hname]
    exact hv

omit [DecidableEq F] in
lemma checkBodyJson_go_nil_iff {members : Relational.OrderedMap JsString (JsonTree F JsString)}
    (hmembers : expect.bodyJson = some members) :
    (Go.checkBodyJson d (members.rows.map (Prod.map encode goValue)) observed.body
        : List (Go.GoFailure F K)) = []
      ↔ ∀ c ∈ jsonChecks members.rows, c.HoldsGo d compile expect observed ctx := by
  rw [jsonChecks, List.forall_mem_cons, List.forall_mem_map]
  simp only [Check.HoldsGo, hmembers, Option.mem_some_iff, forall_eq']
  unfold Go.checkBodyJson
  cases hvalue : unmarshal d observed.body with
  | none => simp
  | some v =>
      cases v with
      | Obj object =>
          simp only [Option.some.injEq, Obj.injEq, exists_eq', true_and, exists_eq_left']
          rw [List.flatMap_eq_nil_iff, ← forall_inForce_iff (P := fun name value =>
            ∃ got ∈ last name object, marshal d got = marshal d value)]
          refine forall₂_congr fun entry _ => ?_
          cases last entry.1 object with
          | none => simp
          | some got =>
              have htext : marshal d got = marshal d entry.2 ↔ Go.jsonText d got = Go.jsonText d entry.2 :=
                Iff.rfl
              simp [htext]
      | _ => simp

end

/-! ## Headers -/

/-- The bytes of a field in ASCII are its text. -/
lemma encode_field {s : JsString} (hs : Ascii s) : encode s = fieldBytes s := encode_ascii hs

lemma encode_field_iff {s t : JsString} (hs : Ascii s) : encode t = fieldBytes s ↔ t = s := encode_eq_iff hs

lemma isTokenUnit_lt {u : UInt16} (h : isTokenUnit u = true) : u.toNat < 0x80 := by
  have hmarks : ∀ v ∈ js "!#$%&'*+-.^_`|~", v.toNat < 0x80 :=
    List.all_iff_forall_prop.mp (by decide +kernel)
  simp only [isTokenUnit, Bool.or_eq_true, Bool.and_eq_true, decide_eq_true_eq, UInt16.le_iff_toNat_le] at h
  rcases h with ((h | h) | h) | h
  · exact lt_of_le_of_lt h.2 (by decide)
  · exact lt_of_le_of_lt h.2 (by decide)
  · exact lt_of_le_of_lt h.2 (by decide)
  · exact hmarks u (by simpa using h)

/-- A fact about the units of ASCII, checked on the codes. -/
lemma forall_unit {P : UInt16 → Prop} (h : ∀ n < 0x80, P (UInt16.ofNat n)) {u : UInt16} (hu : u.toNat < 0x80) :
    P u := by
  have hP := h u.toNat hu
  rwa [UInt16.ofNat_toNat] at hP

lemma validHeaderFieldByte_unit {u : UInt16} (h : isTokenUnit u = true) :
    Anyonce.Go.validHeaderFieldByte u.toUInt8 = true :=
  forall_unit (P := fun u => isTokenUnit u = true → Anyonce.Go.validHeaderFieldByte u.toUInt8 = true)
    (by decide +kernel) (isTokenUnit_lt h) h

namespace IsHeaderName

variable {name name' : JsString}

lemma ascii (h : IsHeaderName name) : Ascii name := fun u hu => isTokenUnit_lt (h.2 u hu)

lemma encode_eq (h : IsHeaderName name) : encode name = fieldBytes name := encode_field (ascii h)

lemma canonicalHeaderKey_eq (h : IsHeaderName name) :
    canonicalHeaderKey (fieldBytes name) = Anyonce.Go.canonicalBytes (fieldBytes name) true := by
  refine if_pos (List.all_eq_true.mpr fun b hb => ?_)
  obtain ⟨u, hu, rfl⟩ := List.mem_map.mp hb
  exact validHeaderFieldByte_unit (h.2 u hu)

lemma toLowerName_eq (h : Ascii name) :
    Anyonce.Go.toLowerName (fieldBytes name) = fieldBytes (byteLowercase name) := by
  rw [Anyonce.Go.toLowerName, fieldBytes, fieldBytes, byteLowercase, List.map_map, List.map_map]
  refine List.map_congr_left fun u hu => ?_
  exact forall_unit (P := fun u => Anyonce.Go.toLower u.toUInt8
    = (if 0x41 ≤ u ∧ u ≤ 0x5a then u + 0x20 else u).toUInt8) (by decide +kernel) (h u hu)

lemma fieldBytes_inj {s t : JsString} (hs : Ascii s) (ht : Ascii t) : fieldBytes s = fieldBytes t ↔ s = t := by
  rw [← encode_field hs]
  exact encode_field_iff ht

lemma ascii_byteLowercase (h : Ascii name) : Ascii (byteLowercase name) := by
  intro u hu
  obtain ⟨v, hv, rfl⟩ := List.mem_map.mp hu
  exact forall_unit (P := fun v => (if 0x41 ≤ v ∧ v ≤ 0x5a then v + 0x20 else v).toNat < 0x80)
    (by decide +kernel) (h v hv)

/-- **The two lookups go by the same names**: without regard to case. -/
lemma canonical_eq_iff (h : IsHeaderName name) (h' : IsHeaderName name') :
    canonicalHeaderKey (fieldBytes name) = canonicalHeaderKey (fieldBytes name')
      ↔ byteLowercase name = byteLowercase name' := by
  rw [canonicalHeaderKey_eq h, canonicalHeaderKey_eq h',
    ← fieldBytes_inj (ascii_byteLowercase (ascii h)) (ascii_byteLowercase (ascii h')),
    ← toLowerName_eq (ascii h), ← toLowerName_eq (ascii h')]
  constructor
  · intro hkey
    rw [← Anyonce.Go.toLowerName_canonicalBytes _ true, hkey, Anyonce.Go.toLowerName_canonicalBytes]
  · intro hlower
    rw [← Anyonce.Go.canonicalBytes_toLower, hlower, Anyonce.Go.canonicalBytes_toLower]

end IsHeaderName

/-- The fields of a name in Go are those in TypeScript. -/
lemma entry_toGo {name : JsString} (hname : IsHeaderName name) (observed : ObservedResponse) :
    observed.toGo.header.entry (canonicalHeaderKey (encode name))
      = (observed.headers.fields name).map fieldBytes := by
  rw [IsHeaderName.encode_eq hname, ObservedResponse.toGo, Anyonce.Go.entry_addHeaders, List.filter_map, List.map_map,
    Headers.fields, List.map_map]
  have hfilter : ∀ field ∈ observed.headers.list,
      ((fun kv => decide (canonicalHeaderKey kv.1 = canonicalHeaderKey (fieldBytes name)))
          ∘ fun field : JsString × HeaderValue => (fieldBytes field.1, fieldBytes field.2.units)) field
        = decide (byteLowercase field.1 = byteLowercase name) := by
    intro field hfield
    simp only [Function.comp, decide_eq_decide]
    exact IsHeaderName.canonical_eq_iff (observed.named field hfield) hname
  rw [List.filter_congr hfilter]
  rfl

/-- The one field of a header, in ASCII, or none. -/
def Single (fields : List JsString) : Prop := fields = [] ∨ ∃ value, fields = [value] ∧ Ascii value

/-- An expectation that both read alike of these fields. -/
def HeaderExpectation.Plain (fields : List JsString) : HeaderExpectation → Prop
  | .Exact _ => Single fields
  | .Present => True
  | .Absent => True
  | .Regex pattern => pattern ≠ [] ∧ Single fields

lemma get_eq (headers : Headers) (name : JsString) :
    headers.get name = if headers.fields name = [] then none else some (joinFields (headers.fields name)) := by
  rw [Headers.get]
  cases headers.fields name <;> rfl

/-- Of one field in ASCII, or none, an expectation says the same on both sides. -/
lemma HeaderExpectation.holds_iff {compile : List Char → Option (List Char → Bool)} {headers : Headers}
    {name : JsString} {expectation : HeaderExpectation} (h : expectation.Plain (headers.fields name)) :
    expectation.Holds compile (headers.get name)
      ↔ expectation.HoldsGo compile ((headers.fields name).map fieldBytes) := by
  rw [get_eq]
  cases expectation with
  | Exact expected =>
      rcases h with hnone | ⟨value, hvalue, hascii⟩
      · simp [HeaderExpectation.Holds, HeaderExpectation.HoldsGo, hnone]
      · simp only [HeaderExpectation.Holds, HeaderExpectation.HoldsGo, hvalue]
        simp [joinFields, eq_comm, ← encode_field_iff hascii]
  | Present => simp [HeaderExpectation.Holds, HeaderExpectation.HoldsGo]
  | Absent => simp [HeaderExpectation.Holds, HeaderExpectation.HoldsGo]
  | Regex pattern =>
      rcases h with ⟨hpattern, hnone | ⟨value, hvalue, hascii⟩⟩
      · simp [HeaderExpectation.Holds, HeaderExpectation.HoldsGo, hnone, hpattern]
      · have hrunes : runes (fieldBytes value) = scalars value := by
          rw [← encode_field hascii, encode, runes_utf8]
        simp [HeaderExpectation.Holds, HeaderExpectation.HoldsGo, hvalue, hpattern, joinFields, hrunes]

/-! ## Bodies -/

section

variable {F : Type} (d : Doubles F)

/-- A body both read alike: in UTF-8 without a byte order mark and, where it is JSON, with no surrogate that
is not part of a pair, no number out of range and no nesting beyond the limit. -/
def SharedBody (body : List UInt8) : Prop :=
  Clean body ∧ ∀ v, jsonParse d (utf16 (decode body)) = some v →
    Anyonce.Go.depth v ≤ Anyonce.Go.maxNestingDepth ∧ ∃ w : JsonTree F (List Char), v = w.map .Finite utf16

/-- What `Unmarshal` makes of JSON in UTF-8. -/
lemma unmarshal_utf8 {cs : List Char} {v : JsonTree (Number F) JsString}
    (hparse : jsonParse d (utf16 cs) = some v) (hdepth : Anyonce.Go.depth v ≤ Anyonce.Go.maxNestingDepth)
    (hfinite : Anyonce.Go.finiteNumbers v = true) : unmarshal d (utf8 cs) = some (v.map id encode) := by
  have hutf16 : JsonText.parse (utf16 cs) = (JsonText.parse cs).map (JsonText.expand utf16Char) :=
    JsonText.parse_expand Anyonce.Go.encoding_utf16 cs
  have hutf8 : JsonText.parse (utf8 cs) = (JsonText.parse cs).map (JsonText.expand utf8Char) :=
    JsonText.parse_expand Anyonce.Go.encoding_utf8 cs
  rw [jsonParse, hutf16, Option.map_map, Option.map_eq_some_iff] at hparse
  obtain ⟨source, hsource, rfl⟩ := hparse
  have hvalue : (JsonText.expand utf8Char source).map d.read Anyonce.Go.unquote
      = ((JsonText.expand utf16Char source).map d.read (List.map pieceUnit)).map id encode := by
    rw [JsonText.expand, JsonText.expand, map_map, map_map, map_map]
    refine congrArg (source.map d.read) (funext fun ps => ?_)
    simp only [Function.comp, Anyonce.Go.unquote, Anyonce.Go.pieceRunes_expand, Anyonce.Go.pieceUnit_expand,
      encode]
  refine (Anyonce.Go.unmarshal_eq_some d _ _).mpr
    ⟨JsonText.expand utf8Char source, by rw [hutf8, hsource, Option.map_some], ?_, hvalue.symm, ?_⟩
  · simpa [JsonText.expand, Anyonce.Go.depth_map] using hdepth
  · rw [Anyonce.Go.finiteNumbers_all] at hfinite ⊢
    rw [Function.comp] at hfinite
    rw [all_map]
    exact hfinite

/-- **A shared body is no JSON on either side, or one tree on both.** -/
lemma SharedBody.value {body : List UInt8} (h : SharedBody d body) :
    (jsonParse d (utf16 (decode body)) = none ∧ unmarshal d body = none)
      ∨ ∃ w : JsonTree F (List Char), jsonParse d (utf16 (decode body)) = some (w.map .Finite utf16)
        ∧ unmarshal d body = some (w.map .Finite utf8) := by
  obtain ⟨⟨cs, rfl, hmarked⟩, hshared⟩ := h
  rw [decode_utf8 hmarked] at hshared ⊢
  cases hparse : jsonParse d (utf16 cs) with
  | none =>
      have hutf16 : JsonText.parse (utf16 cs) = (JsonText.parse cs).map (JsonText.expand utf16Char) :=
        JsonText.parse_expand Anyonce.Go.encoding_utf16 cs
      have hutf8 : JsonText.parse (utf8 cs) = (JsonText.parse cs).map (JsonText.expand utf8Char) :=
        JsonText.parse_expand Anyonce.Go.encoding_utf8 cs
      rw [jsonParse, hutf16, Option.map_map, Option.map_eq_none_iff] at hparse
      refine Or.inl ⟨rfl, ?_⟩
      rw [unmarshal, Anyonce.Go.decodeNumbers, hutf8, hparse]
      rfl
  | some v =>
      obtain ⟨hdepth, w, rfl⟩ := hshared v hparse
      refine Or.inr ⟨w, rfl, ?_⟩
      have hfinite : Anyonce.Go.finiteNumbers (w.map Number.Finite utf16) = true := by
        rw [Anyonce.Go.finiteNumbers_all, all_map]
        exact all_of_forall (fun f => ⟨f, rfl⟩) (fun _ => trivial) w
      rw [unmarshal_utf8 d hparse hdepth hfinite, map_map]
      exact congrArg (fun g => some (w.map Number.Finite g)) (funext encode_utf16)

/-- Neither an array nor an object. -/
def IsPrimitive {N S : Type} : JsonTree N S → Prop
  | .Arr _ => False
  | .Obj _ => False
  | _ => True

variable [DecidableEq F]

/-- A primitive value is compared alike, apart from the sign of a zero. -/
lemma strictEquals_iff {v w : JsonTree F (List Char)} (hw : IsPrimitive w)
    (hsign : ∀ f g, w = .Num f → v = .Num g → d.unsignZero g = d.unsignZero f → g = f) :
    strictEquals d (v.map .Finite utf16) (w.map .Finite utf16) = true
      ↔ marshal d (v.map .Finite utf8) = marshal d (w.map .Finite utf8) := by
  rw [Anyonce.Go.marshal_eq_iff]
  cases w with
  | Arr items => exact hw.elim
  | Obj members => exact hw.elim
  | Null => cases v <;> simp [strictEquals, canonical]
  | Boolean b => cases v <;> simp [strictEquals, canonical]
  | Num f =>
      cases v with
      | Num g =>
          have hzero : d.unsignZero g = d.unsignZero f ↔ g = f :=
            ⟨hsign f g rfl rfl, fun h => by rw [h]⟩
          simp [strictEquals, canonical, hzero]
      | _ => simp [strictEquals, canonical]
  | Str s =>
      cases v with
      | Str t => simp [strictEquals, canonical, utf16_injective.eq_iff, utf8_injective.eq_iff]
      | _ => simp [strictEquals, canonical]

end

/-! ## Verdicts -/

section

variable {F K : Type} [DecidableEq F] {d : Doubles F} {compile : List Char → Option (List Char → Bool)}
  {expect : StepExpect F K} {observed : ObservedResponse} {ctx : EvaluationContext K}

lemma mapM_flatten_nil {α β : Type} {f : α → Option (List β)} {l : List α} :
    (∃ r, l.mapM f = some r ∧ r.flatten = []) ↔ ∀ x ∈ l, f x = some [] := by
  induction l with
  | nil => simp
  | cons x l ih =>
      rw [List.mapM_cons, List.forall_mem_cons, ← ih]
      cases hx : f x with
      | none => simp
      | some b => cases l.mapM f <;> simp

lemma elim_nil_iff {α β : Type} {o : Option α} {f : α → List β} : o.elim [] f = [] ↔ ∀ a ∈ o, f a = [] := by
  cases o <;> simp

omit [DecidableEq F] in
/-- All checks of an expectation hold when those of each part of it do. -/
lemma forall_checks_iff {P : Check F K → Prop} :
    (∀ c ∈ expect.checks, P c)
      ↔ P (.Status expect.status) ∧ (∀ row ∈ expect.headers.rows, P (.Header row.1 row.2))
        ∧ (∀ expected ∈ expect.bodyEquals, P (.Body expected))
        ∧ (∀ members ∈ expect.bodyJson, ∀ c ∈ jsonChecks members.rows, P c)
        ∧ (∀ n ∈ expect.bodyBytes, P (.Bytes n)) ∧ ∀ n ∈ expect.handlerInvocations, P (.Invocations n) := by
  have hjson : (∀ c ∈ expect.bodyJson.elim [] fun members => (jsonChecks members.rows : List (Check F K)), P c)
      ↔ ∀ members ∈ expect.bodyJson, ∀ c ∈ jsonChecks members.rows, P c := by
    cases expect.bodyJson <;> simp
  simp only [StepExpect.checks, List.forall_mem_append, List.forall_mem_cons, List.forall_mem_map,
    Option.mem_toList, Option.mem_def, hjson, and_assoc]

/-- **TypeScript throws** for a header name that is no token, whatever the response. -/
lemma evaluateExpect_eq_none_iff :
    evaluateExpect d compile expect observed ctx = none ↔ ∃ row ∈ expect.headers.rows, ¬ IsHeaderName row.1 := by
  have hcheck : ∀ row : JsString × HeaderExpectation,
      (checkHeader compile row.1 row.2 observed.headers : Option (List (JsFailure F K))) = none
        ↔ ¬ IsHeaderName row.1 := by
    intro row
    by_cases hname : IsHeaderName row.1 <;> simp [checkHeader, hname]
  have hchecks : ∀ rows : List (JsString × HeaderExpectation),
      (rows.mapM fun row => (checkHeader compile row.1 row.2 observed.headers : Option (List (JsFailure F K))))
        = none ↔ ∃ row ∈ rows, ¬ IsHeaderName row.1 := by
    intro rows
    induction rows with
    | nil => simp
    | cons row rest ih =>
        rw [List.mapM_cons, List.exists_mem_cons_iff, ← ih, ← hcheck row]
        cases (checkHeader compile row.1 row.2 observed.headers : Option (List (JsFailure F K))) with
        | none => simp
        | some failures => simp [← Option.eq_none_iff_forall_ne_some]
  rw [← hchecks, evaluateExpect]
  simp [← Option.eq_none_iff_forall_ne_some]

/-- **TypeScript reports no failure when every check holds as it reads them.** -/
lemma evaluateExpect_nil_iff :
    evaluateExpect d compile expect observed ctx = some []
      ↔ ∀ c ∈ expect.checks, c.Holds d compile observed ctx := by
  have hheaders : (∀ row ∈ expect.headers.rows,
      (checkHeader compile row.1 row.2 observed.headers : Option (List (JsFailure F K))) = some [])
        ↔ ∀ row ∈ expect.headers.rows,
          (Check.Header row.1 row.2 : Check F K).Holds d compile observed ctx :=
    forall₂_congr fun row _ => checkHeader_nil_iff
  have hequals : (∀ expected ∈ expect.bodyEquals,
      (checkBodyEquals expected observed.body ctx : List (JsFailure F K)) = [])
        ↔ ∀ expected ∈ expect.bodyEquals, (Check.Body expected).Holds d compile observed ctx :=
    forall₂_congr fun expected _ => checkBodyEquals_nil_iff
  have hjson : (∀ members ∈ expect.bodyJson,
      (checkBodyJson d members observed.body : List (JsFailure F K)) = [])
        ↔ ∀ members ∈ expect.bodyJson, ∀ c ∈ jsonChecks members.rows, c.Holds d compile observed ctx :=
    forall₂_congr fun members _ => checkBodyJson_nil_iff
  rw [forall_checks_iff, ← hheaders, ← hequals, ← hjson, ← mapM_flatten_nil, evaluateExpect]
  cases expect.headers.rows.mapM fun row => checkHeader compile row.1 row.2 observed.headers with
  | none => simp
  | some headers =>
      simp only [Option.bind_eq_bind, Option.bind_some, Option.pure_def, Option.some.injEq,
        List.append_eq_nil_iff, checkStatus_nil_iff, elim_nil_iff, checkBodyBytes_nil_iff,
        checkInvocations_nil_iff, exists_eq_left', and_assoc, Check.Holds]

omit [DecidableEq F] in
/-- **Go reports no failure when every check holds as it reads them.** -/
lemma evaluate_go_nil_iff :
    Go.evaluate d compile expect.toGo observed.toGo ctx = []
      ↔ ∀ c ∈ expect.checks, c.HoldsGo d compile expect observed ctx := by
  have hheaders : (∀ m ∈ ordered byteKey (expect.headers.rows.map (Prod.map encode HeaderExpectation.toGo)),
      (Go.checkHeader compile m.1 m.2 observed.toGo.header : List (Go.GoFailure F K)) = [])
        ↔ ∀ row ∈ expect.headers.rows,
          (Check.Header row.1 row.2 : Check F K).HoldsGo d compile expect observed ctx := by
    rw [forall_inForce_iff (P := fun name exp =>
      (Go.checkHeader compile name exp observed.toGo.header : List (Go.GoFailure F K)) = [])]
    exact forall₂_congr fun row _ => forall₂_congr fun expectation _ => checkHeader_go_nil_iff
  have hequals : (∀ expected ∈ expect.bodyEquals.map BodyEquals.toGo,
      (Go.checkBodyEquals expected observed.body ctx : List (Go.GoFailure F K)) = [])
        ↔ ∀ expected ∈ expect.bodyEquals, (Check.Body expected).HoldsGo d compile expect observed ctx := by
    rw [Option.forall_mem_map]
    exact forall₂_congr fun expected _ => checkBodyEquals_go_nil_iff
  have hjson : (∀ members ∈ expect.bodyJson.map fun members => members.rows.map (Prod.map encode goValue),
      (Go.checkBodyJson d members observed.body : List (Go.GoFailure F K)) = [])
        ↔ ∀ members ∈ expect.bodyJson, ∀ c ∈ jsonChecks members.rows,
          c.HoldsGo d compile expect observed ctx := by
    rw [Option.forall_mem_map]
    exact forall₂_congr fun members hmembers => checkBodyJson_go_nil_iff hmembers
  rw [forall_checks_iff, ← hheaders, ← hequals, ← hjson]
  simp only [Go.evaluate, List.append_eq_nil_iff, List.flatMap_eq_nil_iff, checkStatus_nil_iff, elim_nil_iff,
    checkBodyBytes_nil_iff, checkInvocations_nil_iff, and_assoc, Check.HoldsGo]
  rfl

/-! ## Checks that are read alike -/

/-- A member both compare alike: no other name of the expectation becomes this one in Go, and the value is
primitive, well formed, and no zero where the body has one of the other sign. -/
structure PlainMember (d : Doubles F) (expect : StepExpect F K) (observed : ObservedResponse) (key : JsString)
    (value : JsonTree F JsString) : Prop where
  name : ∃ cs, key = utf16 cs
  alone : ∀ members ∈ expect.bodyJson, ∀ row ∈ members.rows, encode row.1 = encode key → row.1 = key
  primitive : ∃ w : JsonTree F (List Char), value = w.map id utf16 ∧ IsPrimitive w
  sign : ∀ record f g, jsonParse d (utf16 (decode observed.body)) = some (.Obj record) → value = .Num f →
    last key record = some (.Num (.Finite g)) → d.unsignZero g = d.unsignZero f → g = f

/-- **A check that both runners read alike.** -/
def Check.Plain (d : Doubles F) (expect : StepExpect F K) (observed : ObservedResponse) : Check F K → Prop
  | .Header name expectation => IsHeaderName name ∧ expectation.Plain (observed.headers.fields name)
  | .Body (.Exact value) => Clean observed.body ∧ ∃ cs, value = utf16 cs
  | .Object => SharedBody d observed.body
  | .Member key value => SharedBody d observed.body ∧ PlainMember d expect observed key value
  | _ => True

/-- What is in force in Go under a name that no other becomes. -/
lemma inForce_eq {V : Type} {rows : List (JsString × V)} {name : JsString} {v : V}
    (hkeys : (rows.map Prod.fst).Nodup) (hmem : (name, v) ∈ rows)
    (halone : ∀ row ∈ rows, encode row.1 = encode name → row.1 = name) : inForce rows name = some v := by
  have hsome : (inForce rows name).isSome = true := by
    rw [inForce, last_isSome, List.map_map]
    exact List.mem_map.mpr ⟨_, hmem, rfl⟩
  obtain ⟨v', hlast⟩ := Option.isSome_iff_exists.mp hsome
  obtain ⟨row, hrow, heq⟩ := List.mem_map.mp (mem_of_last hlast)
  have hname : row.1 = name := halone row hrow (congrArg Prod.fst heq)
  have hsame : row = (name, v) := List.inj_on_of_nodup_map hkeys hrow hmem hname
  rw [hlast, ← show row.2 = v' from congrArg Prod.snd heq, hsame]

omit [DecidableEq F] in
lemma mem_rows_of_header {name : JsString} {expectation : HeaderExpectation}
    (h : Check.Header name expectation ∈ expect.checks) : (name, expectation) ∈ expect.headers.rows := by
  have hall := (@forall_checks_iff F K expect fun c => c = .Header name expectation →
    (name, expectation) ∈ expect.headers.rows).mpr
  refine hall ⟨by simp, ?_, by simp, ?_, by simp, by simp⟩ _ h rfl
  · rintro row hrow heq
    cases heq
    exact hrow
  · intro members _ c hc heq
    simp [jsonChecks, heq] at hc

omit [DecidableEq F] in
lemma mem_rows_of_member {key : JsString} {value : JsonTree F JsString}
    (h : Check.Member key value ∈ expect.checks) :
    ∃ members, expect.bodyJson = some members ∧ (key, value) ∈ members.rows := by
  have hall := (@forall_checks_iff F K expect fun c => c = .Member key value →
    ∃ members, expect.bodyJson = some members ∧ (key, value) ∈ members.rows).mpr
  refine hall ⟨by simp, by simp, by simp, ?_, by simp, by simp⟩ _ h rfl
  intro members hmembers c hc heq
  refine ⟨members, hmembers, ?_⟩
  simpa [jsonChecks, heq] using hc

/-- **Plain checks are read alike.** -/
lemma Check.Plain.holds_iff {c : Check F K} (h : c.Plain d expect observed) (hc : c ∈ expect.checks) :
    c.Holds d compile observed ctx ↔ c.HoldsGo d compile expect observed ctx := by
  cases c with
  | Status expected => rfl
  | Bytes expected => rfl
  | Invocations expected => rfl
  | Body expected =>
      cases expected with
      | SameAs step => rfl
      | Exact value =>
          obtain ⟨⟨cs, hbody, hmarked⟩, ds, rfl⟩ := h
          simp only [Check.Holds, Check.HoldsGo, hbody]
          rw [decode_utf8 hmarked, encode_utf16, utf16_injective.eq_iff, utf8_injective.eq_iff]
  | Header name expectation =>
      obtain ⟨hname, hplain⟩ := h
      have hforce : inForce expect.headers.rows name = some expectation := by
        refine inForce_eq expect.headers.nodup (mem_rows_of_header hc) fun row _ heq => ?_
        rw [IsHeaderName.encode_eq hname] at heq
        exact (encode_field_iff (IsHeaderName.ascii hname)).mp heq
      simp only [Check.Holds, Check.HoldsGo, hforce, Option.mem_some_iff, forall_eq', entry_toGo hname]
      rw [HeaderExpectation.holds_iff hplain, and_iff_right hname]
  | Object =>
      rcases SharedBody.value d h with ⟨hts, hgo⟩ | ⟨w, hts, hgo⟩
      · simp [Check.Holds, Check.HoldsGo, hts, hgo]
      · simp only [Check.Holds, Check.HoldsGo, hts, hgo]
        cases w <;> simp
  | Member key value =>
      obtain ⟨hshared, ⟨ks, rfl⟩, halone, ⟨w, rfl, hprimitive⟩, hsign⟩ := h
      obtain ⟨members, hmembers, hrow⟩ := mem_rows_of_member hc
      have hforce : inForce members.rows (utf16 ks) = some (w.map id utf16) :=
        inForce_eq members.nodup hrow (halone members hmembers)
      have hfinite : finite (w.map id utf16) = w.map Number.Finite utf16 := by
        rw [finite, map_map]
        rfl
      have hgoValue : goValue (w.map id utf16) = w.map Number.Finite utf8 := by
        rw [goValue, map_map]
        exact congrArg (fun g => w.map Number.Finite g) (funext encode_utf16)
      simp only [Check.Holds, Check.HoldsGo, hmembers, hforce, Option.mem_some_iff, forall_eq', hfinite, hgoValue,
        encode_utf16]
      rcases hshared.value with ⟨hts, hgo⟩ | ⟨v, hts, hgo⟩
      · simp [hts, hgo]
      · rw [hts] at hsign
        rw [hts, hgo]
        cases v with
        | Obj object =>
            have hts : last (utf16 ks) (object.map (Prod.map utf16 (map Number.Finite utf16)))
                = (last ks object).map (map .Finite utf16) := last_map_injective utf16_injective _ object ks
            have hgo : last (utf8 ks) (object.map (Prod.map utf8 (map Number.Finite utf8)))
                = (last ks object).map (map .Finite utf8) := last_map_injective utf8_injective _ object ks
            simp only [map_obj, Option.some.injEq, Obj.injEq, exists_eq_left', hts, hgo] at hsign ⊢
            cases hgot : last ks object with
            | none => simp
            | some got =>
                have hequal := strictEquals_iff d (v := got) hprimitive fun f g hw hv =>
                  hsign _ f g rfl (by rw [hw, map_num]; rfl) (by rw [hts, hgot, hv]; simp)
                simpa using hequal
        | _ => simp

/-- Where every check is plain the two verdicts are one. -/
lemma verdicts_of_plain (h : ∀ c ∈ expect.checks, c.Plain d expect observed) :
    evaluateExpect d compile expect observed ctx = some []
      ↔ Go.evaluate d compile expect.toGo observed.toGo ctx = [] := by
  rw [evaluateExpect_nil_iff, evaluate_go_nil_iff]
  exact forall₂_congr fun c hc => (h c hc).holds_iff hc

/-- Something that both compare as it stands is not as expected: the status, the length of the body, the
invocations, or a body that should be an earlier one. -/
inductive Missed (expect : StepExpect F K) (observed : ObservedResponse) (ctx : EvaluationContext K) : Prop
  | Status (h : observed.status ≠ expect.status)
  | Bytes {n : ℤ} (hn : expect.bodyBytes = some n) (h : (observed.body.length : ℤ) ≠ n)
  | Invocations {n : ℤ} (hn : expect.handlerInvocations = some n) (h : ctx.handlerInvocations ≠ some n)
  | Same {step : K} (hstep : expect.bodyEquals = some (.SameAs step))
      (h : ctx.priorBodies step ≠ some observed.body)

/-- A check that is missed is refused on both sides. -/
lemma Missed.refused (h : Missed expect observed ctx) : ∃ c ∈ expect.checks,
    ¬ c.Holds d compile observed ctx ∧ ¬ c.HoldsGo d compile expect observed ctx := by
  cases h with
  | Status h => exact ⟨.Status expect.status, by simp [StepExpect.checks], h, h⟩
  | @Bytes n hn h => exact ⟨.Bytes n, by simp [StepExpect.checks, hn], h, h⟩
  | @Invocations n hn h => exact ⟨.Invocations n, by simp [StepExpect.checks, hn], h, h⟩
  | @Same step hstep h => exact ⟨.Body (.SameAs step), by simp [StepExpect.checks, hstep], h, h⟩

variable (d compile expect observed ctx)

end

/-! ## Two responses -/

/-- The value `a` or `b`. -/
def letter (u : UInt16) (h : u = 0x61 ∨ u = 0x62) : HeaderValue where
  units := [u]
  legal := by
    rcases h with rfl | rfl
    · exact List.all_iff_forall_prop.mp (by decide +kernel)
    · exact List.all_iff_forall_prop.mp (by decide +kernel)
  normalized := by
    rcases h with rfl | rfl
    · decide +kernel
    · decide +kernel

/-- A header and a member that are as expected. -/
def plainExpected : StepExpect (Bool × Fin 10) ℕ where
  status := 200
  headers := ⟨[(js "x", .Exact (js "a"))], by decide +kernel⟩
  bodyJson := some ⟨[(js "ok", .Boolean true)], by decide +kernel⟩

def plainHeaders : Headers := ⟨[(js "x", letter 0x61 (Or.inl rfl))]⟩

lemma isHeaderName_x : IsHeaderName (js "x") := ⟨by decide, List.all_iff_forall_prop.mp (by decide +kernel)⟩

lemma plainHeaders_named : ∀ field ∈ plainHeaders.list, IsHeaderName field.1 := by
  intro field hfield
  rw [List.mem_singleton.mp hfield]
  exact isHeaderName_x

def plainResponse : ObservedResponse := ⟨200, plainHeaders, utf8 "\x7b\"ok\":true\x7d".toList, plainHeaders_named⟩

def noContext : EvaluationContext ℕ := ⟨fun _ => none, none⟩

set_option maxRecDepth 4000 in
/-- The body is one object for both. -/
lemma sharedBody_plainResponse : SharedBody oneDigit plainResponse.body := by
  have hparse : jsonParse oneDigit (utf16 (decode plainResponse.body))
      = some (.Obj [(js "ok", .Boolean true)]) := rfl
  refine ⟨⟨_, rfl, by decide⟩, fun v hv => ?_⟩
  obtain rfl := Option.some.inj (hparse.symm.trans hv)
  exact ⟨by decide +kernel, .Obj [("ok".toList, .Boolean true)], rfl⟩

lemma plainExpected_plain : ∀ c ∈ plainExpected.checks, c.Plain oneDigit plainExpected plainResponse := by
  refine forall_checks_iff.mpr ⟨trivial, ?_, nofun, ?_, nofun, nofun⟩
  · intro row hrow
    rw [List.mem_singleton.mp hrow]
    exact ⟨isHeaderName_x, Or.inr ⟨js "a", rfl, List.all_iff_forall_prop.mp (by decide +kernel)⟩⟩
  · rintro members ⟨⟩ c hc
    rcases List.mem_pair.mp hc with rfl | rfl
    · exact sharedBody_plainResponse
    · refine ⟨sharedBody_plainResponse, ⟨"ok".toList, rfl⟩, ?_, ⟨.Boolean true, rfl, trivial⟩, nofun⟩
      rintro members ⟨⟩ row hrow -
      rw [List.mem_singleton.mp hrow]

/-- A header that is there twice. -/
def repeatedHeaders : Headers := ⟨[(js "x", letter 0x61 (Or.inl rfl)), (js "x", letter 0x62 (Or.inr rfl))]⟩

lemma repeatedHeaders_named : ∀ field ∈ repeatedHeaders.list, IsHeaderName field.1 := by
  intro field hfield
  have hname : field.1 = js "x" := by
    rcases List.mem_pair.mp hfield with rfl | rfl
    · rfl
    · rfl
  rw [hname]
  exact isHeaderName_x

def repeatedResponse : ObservedResponse := ⟨200, repeatedHeaders, [], repeatedHeaders_named⟩

/-- The first of the two is expected. -/
def firstExpected : StepExpect (Bool × Fin 10) ℕ where
  status := 200
  headers := ⟨[(js "x", .Exact (js "a"))], by decide +kernel⟩

end Anyonce.Conformance
