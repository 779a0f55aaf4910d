import Anyonce.Go.Engine
import Anyonce.Go.Memory
import Anyonce.Sql.Programs

/-!
# The Go SQL store

`sqlstore.Store` of `go/store/internal/sqlstore/sqlstore.go` and the row codec
`go/store/internal/rowcodec/rowcodec.go`.  The statements and the methods are those of the
TypeScript stores, except that Go times are nanoseconds and the columns whole milliseconds, that
errors are wrapped with their context, and that metadata which does not decode gives a record
without a result.

`json.Marshal` and `json.Unmarshal` of the metadata are the parameter `MetaJson`.
-/

namespace Anyonce.Go

open Interaction

/-! ## The row codec -/

/-- The wire shape of result metadata; a nil pointer is a member that is not written. -/
structure Meta where
  kind : Kind
  status : Option ℤ
  headers : Option (List (GoString × GoString))
  outcome : Option MessageOutcome
  error : Option MessageError
  deriving DecidableEq

/-- `json.Marshal` and `json.Unmarshal` at the type of the metadata. -/
structure MetaJson where
  marshal : Meta → Except GoError GoString
  unmarshal : GoString → Except GoError Meta

/-- An error with the context `fmt.Errorf` puts in front of it, or the error of a `Begin` that did
not settle. -/
inductive SqlError
  | Bare (err : GoError)
  | Wrapped (context : GoString) (err : SqlError)
  | Unsettled
  deriving DecidableEq

section

variable (json : MetaJson)

/-- Serializes everything but the body; the omitted form encodes the same way. -/
def encodeMeta (r : StoredResult) : Except SqlError GoString :=
  let m : Meta :=
    { kind := r.kind
      status := if r.status ≠ 0 then some r.status else none
      headers := r.headers
      outcome := r.outcome
      error := r.error.map fun e => ⟨e.name, e.message⟩ }
  match json.marshal m with
  | .error err => .error (.Wrapped (ascii "rowcodec: encode meta") (.Bare err))
  | .ok text => .ok text

/-- Parses what `encodeMeta` wrote; the body stays nil. -/
def decodeMeta (text : GoString) : Except SqlError StoredResult :=
  match json.unmarshal text with
  | .error err => .error (.Wrapped (ascii "rowcodec: decode meta") (.Bare err))
  | .ok m => .ok
      { kind := m.kind
        status := m.status.getD 0
        headers := m.headers
        outcome := m.outcome
        error := m.error.map fun e => ⟨e.name, e.message⟩ }

/-- Epoch milliseconds of a time. -/
def ms (t : ℤ) : ℤ := t / 1000000

/-- The time of epoch milliseconds. -/
def unixMilli (n : ℤ) : ℤ := n * 1000000

/-- Decodes a row; a malformed meta yields a record without a result rather than an error, because a
store must still report the claim state. -/
def toRecord (row : RecordRow GoString) : Record where
  scope := row.scope
  key := row.key
  fingerprint := row.fingerprint
  state := row.state
  fence := row.fence
  leaseUntil := unixMilli row.leaseUntil
  createdAt := unixMilli row.createdAt
  expiresAt := unixMilli row.expiresAt
  result :=
    match row.resultMeta with
    | none => none
    | some text =>
        match decodeMeta json text with
        | .error _ => none
        | .ok res => some
            { res with
              body := if row.resultBody = none then res.body else row.resultBody
              omitted := row.resultOmitted = 1 }
  resultOmitted := row.resultOmitted = 1

@[simp] lemma toRecord_fingerprint (row : RecordRow GoString) :
    (toRecord json row).fingerprint = row.fingerprint := rfl

@[simp] lemma toRecord_state (row : RecordRow GoString) :
    (toRecord json row).state = row.state := rfl

/-! ## The store -/

/-- Where a statement failed on the caller: when it was sent, when its rows were read, or when a row
was scanned. -/
inductive DriverFailure
  | Query (err : GoError)
  | Rows (err : GoError)
  | Scan (err : GoError)
  deriving DecidableEq

/-- The context `Begin` wraps a driver error in. -/
def beginFailed : DriverFailure → SqlError
  | .Query err => .Wrapped (ascii "sqlstore: begin") (.Bare err)
  | .Rows err => .Wrapped (ascii "sqlstore: begin") (.Bare err)
  | .Scan err => .Wrapped (ascii "sqlstore: begin scan") (.Bare err)

/-- `selectRow`. -/
def selectFailed : DriverFailure → SqlError
  | .Query err => .Wrapped (ascii "sqlstore: select") (.Bare err)
  | .Rows err => .Bare err
  | .Scan err => .Wrapped (ascii "sqlstore: scan") (.Bare err)

/-- `execReturning`, under the context of the method that calls it.  It scans nothing. -/
def execFailed (context : String) : DriverFailure → SqlError
  | .Query err => .Wrapped (ascii context) (.Wrapped (ascii "sqlstore: exec") (.Bare err))
  | .Rows err => .Wrapped (ascii context) (.Bare err)
  | .Scan err => .Wrapped (ascii context) (.Bare err)

/-- The context `Get` wraps a driver error in; an error while the rows are read is passed on bare. -/
def getFailed : DriverFailure → SqlError
  | .Query err => .Wrapped (ascii "sqlstore: get") (.Bare err)
  | .Rows err => .Bare err
  | .Scan err => .Wrapped (ascii "sqlstore: scan") (.Bare err)

/-- The context `Purge` wraps a driver error in. -/
def purgeFailed : DriverFailure → SqlError
  | .Query err => .Wrapped (ascii "sqlstore: purge") (.Bare err)
  | .Rows err => .Wrapped (ascii "sqlstore: purge rows affected") (.Bare err)
  | .Scan err => .Wrapped (ascii "sqlstore: purge rows affected") (.Bare err)

/-- `ExecContext` has no rows to read. -/
def removeFailed : DriverFailure → SqlError
  | .Query err => .Wrapped (ascii "sqlstore: physically remove") (.Bare err)
  | .Rows err => .Wrapped (ascii "sqlstore: physically remove") (.Bare err)
  | .Scan err => .Wrapped (ascii "sqlstore: physically remove") (.Bare err)

/-- What the statements say of an operation. -/
def Operation.columns (op : Operation) : ClaimColumns GoString where
  scope := op.scope
  key := op.key
  fingerprint := op.fingerprint

/-- What the statements say of the terms, cut to milliseconds. -/
def BeginOptions.columns (opts : BeginOptions) : TermColumns where
  now := ms opts.now
  leaseUntil := ms (opts.now + opts.lease)
  expiresAt := ms (opts.now + opts.ttl)

/-- The turn of the loop after the `SELECT`. -/
def classify (op : Operation) (opts : BeginOptions) :
    Option (RecordRow GoString) → Option (Except SqlError (BeginOutcome Record))
  | none => none
  | some existing =>
      let now := ms opts.now
      if existing.expiresAt ≤ now then none
      else
        let record := toRecord json existing
        if existing.fingerprint ≠ op.fingerprint then some (.ok (.Mismatch record))
        else if existing.state = .Completed then some (.ok (.Completed record))
        else if existing.leaseUntil > now then some (.ok (.InFlight record.leaseUntil))
        else none

/-- `Complete`: the metadata is encoded before the first statement. -/
def complete (op : Operation) (fence : ℤ) (result : StoredResult) (now : ℤ) :
    SqlProg GoString DriverFailure (Except SqlError CompleteStatus) :=
  match encodeMeta json result with
  | .error err => Prog.Ret (.error (.Wrapped (ascii "sqlstore: complete") err))
  | .ok text =>
      completeProgram op.scope op.key fence (ms now)
        { resultMeta := text
          resultBody := if result.omitted then none else result.body
          resultOmitted := if result.omitted then 1 else 0 }
        (execFailed "sqlstore: complete") selectFailed

/-- One call of the Go store, as the statements it issues. -/
def program : (c : StoreCall Operation BeginOptions StoredResult) →
    SqlProg GoString DriverFailure (Except SqlError (StoreReply Record c))
  | .Begin op opts =>
      beginProgram op.columns opts.columns beginFailed selectFailed (classify json op opts) .Unsettled
  | .Complete op fence result now => complete json op fence result now
  | .Abandon op fence =>
      abandonProgram op.scope op.key fence (execFailed "sqlstore: abandon") selectFailed
  | .Get op now => getProgram op.scope op.key (ms now) getFailed fun row => .ok (toRecord json row)
  | .Purge now => purgeProgram (ms now) purgeFailed
  | .PhysicallyRemove op => removeProgram op.scope op.key removeFailed

end

end Anyonce.Go
