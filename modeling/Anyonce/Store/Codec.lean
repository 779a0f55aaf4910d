import Anyonce.Core.Json
import Anyonce.Store.Memory

/-!
# The row codec

`packages/stores/src/codec.ts`: the flat row every persistent store keeps, and its conversion to a
record.  Everything in a result except the body is one JSON text (`encodeResultMeta`), the body is
kept as bytes, and the omitted form is a flag.

The casts of the source are unchecked, so `decodeResultMeta` of a text that no `encodeResultMeta`
wrote may be no result at all; here that is `none`, as is a text `JSON.parse` throws on.

`recordToRow` goes the other way: the row that holds a record of the memory store.
`rowToRecord_recordToRow` is the round trip.
-/

namespace Anyonce

open Ecma

/-- The flat row every store persists.  Numbers are epoch milliseconds.  The type of the text columns
is a parameter: each language has its own strings. -/
structure RecordRow (T : Type) where
  scope : T
  key : T
  fingerprint : T
  state : RecordState
  fence : ℤ
  leaseUntil : ℤ
  createdAt : ℤ
  expiresAt : ℤ
  resultMeta : Option T
  resultBody : Option (List UInt8)
  resultOmitted : ℤ
  deriving DecidableEq

/-- The text of a state, as every store writes it. -/
def stateText : RecordState → JsString
  | .InFlight => js "in_flight"
  | .Completed => js "completed"

/-- The cast of a state read back; `none` for a text no store writes. -/
def stateOfText (text : JsString) : Option RecordState :=
  if text = js "in_flight" then some .InFlight
  else if text = js "completed" then some .Completed
  else none

lemma stateOfText_stateText (state : RecordState) : stateOfText (stateText state) = some state := by
  cases state <;> decide

/-! ## Result metadata -/

def ResultKind.toJson : ResultKind → Json
  | .Http => .Str (js "http")
  | .Message => .Str (js "message")

def MessageOutcome.toJson : MessageOutcome → Json
  | .Ok => .Str (js "ok")
  | .Error => .Str (js "error")

/-- The headers as an array of pairs, which keeps their order and repetitions. -/
def headersJson (headers : List (JsString × JsString)) : Json :=
  .Arr (headers.map fun (n, v) => .Arr [.Str n, .Str v])

def MessageError.toJson (e : MessageError) : Json :=
  .Obj [(js "name", .Str e.name), (js "message", .Str e.message)]

/-- A property that is assigned only when the value is there. -/
def optionalMember {α : Type} (name : String) (toJson : α → Json) : Option α → List (JsString × Json)
  | none => []
  | some a => [(js name, toJson a)]

/-- The object `encodeResultMeta` builds. -/
def resultMeta : Completion → Json
  | .Stored result =>
      .Obj ((js "kind", result.kind.toJson) :: optionalMember "status" Json.Num result.status
        ++ optionalMember "headers" headersJson result.headers
        ++ optionalMember "outcome" MessageOutcome.toJson result.outcome
        ++ optionalMember "error" MessageError.toJson result.error)
  | .Omitted result =>
      .Obj ((js "kind", result.kind.toJson) :: optionalMember "status" Json.Num result.status
        ++ optionalMember "headers" headersJson result.headers)

/-- Everything in a result except the body, as JSON text.  Works for the omitted form too. -/
def encodeResultMeta (result : Completion) : JsString := stringify (resultMeta result)

def kindOfJson : Json → Option ResultKind
  | .Str s => if s = js "http" then some .Http else if s = js "message" then some .Message else none
  | _ => none

def outcomeOfJson : Json → Option MessageOutcome
  | .Str s => if s = js "ok" then some .Ok else if s = js "error" then some .Error else none
  | _ => none

def statusOfJson : Json → Option ℤ
  | .Num n => some n
  | _ => none

def headerOfJson : Json → Option (JsString × JsString)
  | .Arr [.Str n, .Str v] => some (n, v)
  | _ => none

def headersOfJson : Json → Option (List (JsString × JsString))
  | .Arr items => items.mapM headerOfJson
  | _ => none

def errorOfJson (v : Json) : Option MessageError :=
  match v.member (js "name"), v.member (js "message") with
  | some (.Str name), some (.Str message) => some ⟨name, message⟩
  | _, _ => none

/-- A property that may be absent: `none` when it is there with a value of another type. -/
def optionalField {α : Type} (ofJson : Json → Option α) : Option Json → Option (Option α)
  | none => some none
  | some v => (ofJson v).map some

/-- The result the parsed metadata stands for. -/
def resultOfMeta (json : Json) : Option StoredResult := do
  let kind ← (json.member (js "kind")).bind kindOfJson
  let status ← optionalField statusOfJson (json.member (js "status"))
  let headers ← optionalField headersOfJson (json.member (js "headers"))
  let outcome ← optionalField outcomeOfJson (json.member (js "outcome"))
  let error ← optionalField errorOfJson (json.member (js "error"))
  return { kind, status, headers, outcome, error }

/-- The result a text of metadata stands for, without its body. -/
def decodeResultMeta (text : JsString) : Option StoredResult := (parse text).bind resultOfMeta

/-- What is left of a completion without its body. -/
def Completion.withoutBody : Completion → StoredResult
  | .Stored result => { result with body := none }
  | .Omitted result => omittedToStored result

lemma kindOfJson_toJson (kind : ResultKind) : kindOfJson kind.toJson = some kind := by
  cases kind <;> rfl

lemma outcomeOfJson_toJson (outcome : MessageOutcome) :
    outcomeOfJson outcome.toJson = some outcome := by
  cases outcome <;> rfl

lemma errorOfJson_toJson (error : MessageError) : errorOfJson error.toJson = some error := rfl

lemma headersOfJson_headersJson (headers : List (JsString × JsString)) :
    headersOfJson (headersJson headers) = some headers := by
  simp only [headersOfJson, headersJson, List.mapM_map]
  induction headers with
  | nil => rfl
  | cons h rest ih =>
      rw [List.mapM_cons, ih]
      rfl

lemma member_append (name : JsString) (ms ms' : List (JsString × Json)) :
    (Json.Obj (ms ++ ms')).member name
      = ((Json.Obj ms').member name).or ((Json.Obj ms).member name) := by
  simp only [Json.member, List.reverse_append, List.find?_append]
  cases ms'.reverse.find? fun m => m.1 = name <;> rfl

lemma member_cons (name name' : JsString) (v : Json) (ms : List (JsString × Json)) :
    (Json.Obj ((name', v) :: ms)).member name
      = ((Json.Obj ms).member name).or (if name' = name then some v else none) := by
  rw [← List.singleton_append, member_append]
  congr 1
  by_cases h : name' = name <;> simp [Json.member, h]

lemma member_optionalMember {α : Type} (name : String) (name' : JsString) (toJson : α → Json)
    (o : Option α) : (Json.Obj (optionalMember name toJson o)).member name'
      = if js name = name' then o.map toJson else none := by
  cases o with
  | none => simp [optionalMember, Json.member]
  | some a => by_cases h : js name = name' <;> simp [optionalMember, Json.member, h]

lemma optionalField_none {α : Type} (ofJson : Json → Option α) :
    optionalField ofJson none = some none := rfl

lemma optionalField_map {α : Type} {ofJson : Json → Option α} {toJson : α → Json}
    (h : ∀ a, ofJson (toJson a) = some a) (o : Option α) :
    optionalField ofJson (o.map toJson) = some o := by
  cases o with
  | none => rfl
  | some a => simp [optionalField, h]

/-- The members of the object are found again, present or absent. -/
lemma resultOfMeta_resultMeta (result : Completion) :
    resultOfMeta (resultMeta result) = some result.withoutBody := by
  have hstatus : ∀ o, optionalField statusOfJson (o.map Json.Num) = some o :=
    optionalField_map fun _ => rfl
  have hheaders := optionalField_map headersOfJson_headersJson
  have houtcome := optionalField_map outcomeOfJson_toJson
  have herror := optionalField_map errorOfJson_toJson
  cases result with
  | Stored r =>
      simp +decide only [resultOfMeta, resultMeta, List.cons_append, member_append, member_cons,
        member_optionalMember, if_true, if_false, Option.or_none, Option.none_or, Option.bind_some,
        kindOfJson_toJson, Option.bind_eq_bind, hstatus, hheaders, houtcome, herror]
      rfl
  | Omitted r =>
      simp +decide only [resultOfMeta, resultMeta, List.cons_append, member_append, member_cons,
        member_optionalMember, if_true, if_false, Option.or_none, Option.none_or, Option.bind_some,
        kindOfJson_toJson, Option.bind_eq_bind, hstatus, hheaders, optionalField_none]
      simp [Completion.withoutBody, omittedToStored]

/-- **The metadata of a result is read back.** -/
lemma decodeResultMeta_encodeResultMeta (result : Completion) :
    decodeResultMeta (encodeResultMeta result) = some result.withoutBody := by
  rw [decodeResultMeta, encodeResultMeta, parse_stringify, Option.bind_some,
    resultOfMeta_resultMeta]

/-! ## Rows and records -/

/-- The result columns of a row as a result: `some none` when there is none. -/
def rowResult (row : RecordRow JsString) : Option (Option StoredResult) :=
  match row.resultMeta with
  | none => some none
  | some text => (decodeResultMeta text).map fun result =>
      some (match row.resultBody with
        | none => result
        | some body => { result with body := some body })

/-- Every store reads its rows through here; `none` when the metadata does not parse. -/
def rowToRecord (row : RecordRow JsString) : Option IdempotencyRecord :=
  (rowResult row).map fun result =>
    { scope := row.scope
      key := row.key
      fingerprint := row.fingerprint
      state := row.state
      fence := row.fence
      leaseUntil := row.leaseUntil
      createdAt := row.createdAt
      expiresAt := row.expiresAt
      result := result
      resultOmitted := if row.resultOmitted = 1 then some true else none }

/-- The columns the contract speaks of are the fields of the record. -/
lemma rowToRecord_fields {row : RecordRow JsString} {record : IdempotencyRecord}
    (h : rowToRecord row = some record) :
    record.fingerprint = row.fingerprint ∧ record.state = row.state ∧ record.fence = row.fence
      ∧ record.leaseUntil = row.leaseUntil ∧ record.expiresAt = row.expiresAt := by
  obtain ⟨result, -, rfl⟩ := Option.map_eq_some_iff.mp h
  exact ⟨rfl, rfl, rfl, rfl, rfl⟩

/-- The row that holds a record. -/
def recordToRow (record : IdempotencyRecord) : RecordRow JsString where
  scope := record.scope
  key := record.key
  fingerprint := record.fingerprint
  state := record.state
  fence := record.fence
  leaseUntil := record.leaseUntil
  createdAt := record.createdAt
  expiresAt := record.expiresAt
  resultMeta := record.result.map fun result => encodeResultMeta (.Stored result)
  resultBody := record.result.bind StoredResult.body
  resultOmitted := if record.resultOmitted = some true then 1 else 0

/-- The records a store can hold: the omitted flag is set or absent, and a claim in flight has
neither a result nor the flag. -/
structure IdempotencyRecord.Storable (record : IdempotencyRecord) : Prop where
  omitted : record.resultOmitted ≠ some false
  inFlight : record.state = .InFlight → record.result = none ∧ record.resultOmitted = none

/-- **A record is read back from its row.** -/
lemma rowToRecord_recordToRow {record : IdempotencyRecord} (h : record.Storable) :
    rowToRecord (recordToRow record) = some record := by
  have hresult : rowResult (recordToRow record) = some record.result := by
    cases hr : record.result with
    | none => simp [rowResult, recordToRow, hr]
    | some result =>
        simp only [rowResult, recordToRow, hr, Option.map_some, Option.bind_some,
          decodeResultMeta_encodeResultMeta, Completion.withoutBody]
        cases hb : result.body with
        | none => simp [← hb]
        | some body => simp [← hb]
  have homitted : (if (recordToRow record).resultOmitted = 1 then some true else none)
      = record.resultOmitted := by
    cases ho : record.resultOmitted with
    | none => simp [recordToRow, ho]
    | some b =>
        cases b with
        | true => simp [recordToRow, ho]
        | false => exact absurd ho h.omitted
  rw [rowToRecord, hresult, Option.map_some, homitted]
  rfl

end Anyonce
