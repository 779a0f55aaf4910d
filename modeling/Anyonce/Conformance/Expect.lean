import Anyonce.Go.Json
import Anyonce.Go.Replay
import Anyonce.Http.Scope

/-!
# What a conformance step expects

`evaluateExpect` of `packages/conformance/src/expect.ts` and `evaluate` of `go/conformance/expect.go`, on one
expectation and one response.  The strings of an expectation are those of a JavaScript program; the Go
program has what its decoder makes of them, in UTF-8 (`StepExpect.toGo`).  The header fields of a response
are bytes: a `Headers` shows each as a code unit, an `http.Header` as it is.

A failure says what it is about; its text is left out.  `compile` compiles a regular expression, which is
one that both engines read alike.
-/

namespace Anyonce.Conformance

open NumberText JsonTree Unicode
open Anyonce.Go (GoString Header canonicalHeaderKey byteKey marshal unmarshal addHeaders)

/-! ## Expectations and responses -/

/-- `string | { present: true } | { absent: true } | { regex: string }`. -/
inductive HeaderExpectation
  | Exact (value : JsString)
  | Present
  | Absent
  | Regex (pattern : List Char)

/-- `string | { sameAs: string }`, with strings in `S`. -/
inductive BodyEquals (S K : Type)
  | Exact (value : S)
  | SameAs (step : K)

/-- The values of `bodyJson` are values of JSON, whatever the declared type says. -/
structure StepExpect (F K : Type) where
  status : ℤ
  headers : Relational.OrderedMap JsString HeaderExpectation := Relational.Table.empty
  bodyEquals : Option (BodyEquals JsString K) := none
  bodyJson : Option (Relational.OrderedMap JsString (JsonTree F JsString)) := none
  bodyBytes : Option ℤ := none
  handlerInvocations : Option ℤ := none

/-- What the runner observed of one response. -/
structure ObservedResponse where
  status : ℤ
  headers : Headers
  body : List UInt8
  named : ∀ field ∈ headers.list, IsHeaderName field.1

/-- What an evaluation may look up: earlier bodies, and the count of handler runs. -/
structure EvaluationContext (K : Type) where
  priorBodies : K → Option (List UInt8)
  handlerInvocations : Option ℤ

/-- A failure, over strings in `S` and JSON values in `J`.  `none` is "absent" or "undefined". -/
inductive Failure (S J K : Type)
  | Status (expected got : ℤ)
  | HeaderExact (name expected : S) (got : Option S)
  | HeaderPresent (name : S)
  | HeaderAbsent (name got : S)
  | InvalidRegex (name : S) (pattern : List Char)
  | HeaderRegex (name : S) (pattern : List Char) (got : Option S)
  | BodyExact (expected got : S)
  | UnknownStep (step : K)
  | BodySame (step : K) (expected got : ℕ)
  | Unparseable
  | NonObject
  | Member (key : S) (expected : J) (got : Option J)
  | BodyBytes (expected : ℤ) (got : ℕ)
  | CounterUnavailable
  | HandlerInvocations (expected got : ℤ)

/-- The failure of a status. -/
def checkStatus {S J K : Type} (expected got : ℤ) : List (Failure S J K) :=
  if got ≠ expected then [.Status expected got] else []

/-- The check of the body's length. -/
def checkBodyBytes {S J K : Type} (expected : Option ℤ) (body : List UInt8) : List (Failure S J K) :=
  match expected with
  | none => []
  | some n => if (body.length : ℤ) ≠ n then [.BodyBytes n body.length] else []

/-- The check of the handler's invocations; it is the last one. -/
def checkInvocations {S J K : Type} (expected got : Option ℤ) : List (Failure S J K) :=
  match expected with
  | none => []
  | some n =>
      match got with
      | none => [.CounterUnavailable]
      | some m => if m ≠ n then [.HandlerInvocations n m] else []

/-- What `sameAs` fails with. -/
def checkSameAs {S J K : Type} (step : K) (body : List UInt8) (ctx : EvaluationContext K) :
    List (Failure S J K) :=
  match ctx.priorBodies step with
  | none => [.UnknownStep step]
  | some prior => if prior = body then [] else [.BodySame step prior.length body.length]

section

variable {F K : Type} [DecidableEq F] (d : Doubles F) (compile : List Char → Option (List Char → Bool))

/-! ## TypeScript -/

abbrev JsFailure (F K : Type) : Type := Failure JsString (JsonTree (Number F) JsString) K

/-- `===` between values of JSON: no two arrays and no two objects are one. -/
def strictEquals : JsonTree (Number F) JsString → JsonTree (Number F) JsString → Bool
  | .Null, .Null => true
  | .Boolean a, .Boolean b => a = b
  | .Num (.Finite f), .Num (.Finite g) => d.unsignZero f = d.unsignZero g
  | .Num (.Infinite s), .Num (.Infinite t) => s = t
  | .Str a, .Str b => a = b
  | _, _ => false

/-- The failure of a header, if it fails; `none` is the `TypeError` of `get` for a name that no header has. -/
def checkHeader (name : JsString) (expectation : HeaderExpectation) (headers : Headers) :
    Option (List (JsFailure F K)) :=
  if IsHeaderName name then
    some <|
      match expectation with
      | .Exact value =>
          match headers.get name with
          | none => [.HeaderExact name value none]
          | some actual => if actual ≠ value then [.HeaderExact name value (some actual)] else []
      | .Present => if headers.get name = none then [.HeaderPresent name] else []
      | .Absent =>
          match headers.get name with
          | none => []
          | some actual => [.HeaderAbsent name actual]
      | .Regex pattern =>
          match compile pattern with
          | none => [.InvalidRegex name pattern]
          | some test =>
              match headers.get name with
              | none => [.HeaderRegex name pattern none]
              | some actual =>
                  if test (scalars actual) then [] else [.HeaderRegex name pattern (some actual)]
  else none

def checkBodyEquals (expected : BodyEquals JsString K) (body : List UInt8) (ctx : EvaluationContext K) :
    List (JsFailure F K) :=
  match expected with
  | .Exact value =>
      let actual := utf16 (decode body)
      if actual = value then [] else [.BodyExact value actual]
  | .SameAs step => checkSameAs step body ctx

/-- A member that is not there is `undefined`, or what every object inherits, which is no value of JSON. -/
def checkBodyJson (expected : Relational.OrderedMap JsString (JsonTree F JsString)) (body : List UInt8) :
    List (JsFailure F K) :=
  match jsonParse d (utf16 (decode body)) with
  | none => [.Unparseable]
  | some (.Obj record) =>
      expected.rows.flatMap fun row =>
        match last row.1 record with
        | none => [.Member row.1 (finite row.2) none]
        | some got =>
            if strictEquals d got (finite row.2) then [] else [.Member row.1 (finite row.2) (some got)]
  | some _ => [.NonObject]

/-- **`evaluateExpect`.**  `none` is an error that is thrown. -/
def evaluateExpect (expect : StepExpect F K) (observed : ObservedResponse) (ctx : EvaluationContext K) :
    Option (List (JsFailure F K)) := do
  let headers ← expect.headers.rows.mapM fun row => checkHeader compile row.1 row.2 observed.headers
  return checkStatus expect.status observed.status ++ headers.flatten
    ++ (expect.bodyEquals.elim [] fun expected => checkBodyEquals expected observed.body ctx)
    ++ (expect.bodyJson.elim [] fun expected => checkBodyJson d expected observed.body)
    ++ checkBodyBytes expect.bodyBytes observed.body
    ++ checkInvocations expect.handlerInvocations ctx.handlerInvocations

/-! ## Go -/

namespace Go

abbrev GoFailure (F K : Type) : Type := Failure GoString (JsonTree (Number F) GoString) K

/-- An expectation about one header. -/
structure HeaderExpectation where
  exact : Option GoString := none
  present : Bool := false
  absent : Bool := false
  regex : List Char := []

/-- The strings a vector has in Go; a map is the list of the entries it was given. -/
structure StepExpect (F K : Type) where
  status : ℤ
  headers : List (GoString × HeaderExpectation)
  bodyEquals : Option (BodyEquals GoString K)
  bodyJson : Option (List (GoString × JsonTree (Number F) GoString))
  bodyBytes : Option ℤ
  handlerInvocations : Option ℤ

/-- The failure of a header, or nothing.  An entry has at least one value. -/
def checkHeader (name : GoString) (exp : HeaderExpectation) (h : Header) : List (GoFailure F K) :=
  let actual := h.entry (canonicalHeaderKey name)
  match exp.exact with
  | some expected =>
      match actual with
      | [] => [.HeaderExact name expected none]
      | value :: _ => if value ≠ expected then [.HeaderExact name expected (some value)] else []
  | none =>
      if exp.present then if actual = [] then [.HeaderPresent name] else []
      else if exp.absent then
        match actual with
        | [] => []
        | value :: _ => [.HeaderAbsent name value]
      else if exp.regex ≠ [] then
        match compile exp.regex with
        | none => [.InvalidRegex name exp.regex]
        | some matchString =>
            match actual with
            | [] => [.HeaderRegex name exp.regex none]
            | value :: _ =>
                if matchString (runes value) then [] else [.HeaderRegex name exp.regex (some value)]
      else []

/-- The text of a value.  `Marshal` fails on no value that `Unmarshal` made. -/
def jsonText (v : JsonTree (Number F) GoString) : Option GoString := marshal d v

def checkBodyJson (expected : List (GoString × JsonTree (Number F) GoString)) (body : List UInt8) :
    List (GoFailure F K) :=
  match unmarshal d body with
  | none => [.Unparseable]
  | some (.Obj object) =>
      -- the keys in order
      (ordered byteKey expected).flatMap fun entry =>
        match last entry.1 object with
        | none => [.Member entry.1 entry.2 none]
        | some value =>
            if jsonText d value ≠ jsonText d entry.2 then [.Member entry.1 entry.2 (some value)] else []
  | some _ => [.NonObject]

def checkBodyEquals (expected : BodyEquals GoString K) (body : List UInt8) (ctx : EvaluationContext K) :
    List (GoFailure F K) :=
  match expected with
  | .Exact value => if body ≠ value then [.BodyExact value body] else []
  | .SameAs step => checkSameAs step body ctx

/-- What the Go runner observed of one response. -/
structure Observed where
  status : ℤ
  header : Header
  body : List UInt8

/-- **`evaluate`.** -/
def evaluate (exp : StepExpect F K) (obs : Observed) (ctx : EvaluationContext K) : List (GoFailure F K) :=
  checkStatus exp.status obs.status
    -- the names in order
    ++ (ordered byteKey exp.headers).flatMap (fun entry => checkHeader compile entry.1 entry.2 obs.header)
    ++ (exp.bodyEquals.elim [] fun expected => checkBodyEquals expected obs.body ctx)
    ++ (exp.bodyJson.elim [] fun expected => checkBodyJson d expected obs.body)
    ++ checkBodyBytes exp.bodyBytes obs.body
    ++ checkInvocations exp.handlerInvocations ctx.handlerInvocations

end Go

/-! ## One vector and one response in Go -/

/-- What `UnmarshalJSON` makes of it. -/
def HeaderExpectation.toGo : HeaderExpectation → Go.HeaderExpectation
  | .Exact value => { exact := some (encode value) }
  | .Present => { present := true }
  | .Absent => { absent := true }
  | .Regex pattern => { regex := pattern }

def BodyEquals.toGo : BodyEquals JsString K → BodyEquals GoString K
  | .Exact value => .Exact (encode value)
  | .SameAs step => .SameAs step

def goValue (v : JsonTree F JsString) : JsonTree (Number F) GoString := v.map .Finite encode

/-- The expectation as the Go program decodes it. -/
def StepExpect.toGo (expect : StepExpect F K) : Go.StepExpect F K where
  status := expect.status
  headers := expect.headers.rows.map (Prod.map encode HeaderExpectation.toGo)
  bodyEquals := expect.bodyEquals.map BodyEquals.toGo
  bodyJson := expect.bodyJson.map fun members => members.rows.map (Prod.map encode goValue)
  bodyBytes := expect.bodyBytes
  handlerInvocations := expect.handlerInvocations

/-- The bytes of a header field. -/
def fieldBytes (s : JsString) : GoString := s.map UInt16.toUInt8

def ObservedResponse.toGo (observed : ObservedResponse) : Go.Observed where
  status := observed.status
  header := addHeaders Relational.Table.empty
    (observed.headers.list.map fun field => (fieldBytes field.1, fieldBytes field.2.units))
  body := observed.body

end

end Anyonce.Conformance
