import Anyonce.Claim.Store
import Anyonce.Sql.Statements

/-!
# The store methods over statements

`PostgresStore`, `D1Store` and the Go `sqlstore` write the same methods in the words of their
drivers: one conditional statement, and one `SELECT` that classifies a refused write.  The methods
are programs over statements here, with what differs as parameters: how a driver's error is
reported, how a refused claim is classified, and the error after the last attempt.

`beginProgram` is the loop of three attempts.  `completeStatus` and `abandonStatus` are the
classifications all three share.
-/

namespace Anyonce

open Interaction

section

variable {T X Err Rec : Type}

/-- A program over statements. -/
abbrev SqlProg (T X α : Type) : Type := Prog (Statement T) (SqlReply X) α

/-- Send one statement and wait for its reply. -/
def query (c : Statement T) : SqlProg T X (SqlReply X c) := Prog.call c

section Begin

variable (claim : ClaimColumns T) (terms : TermColumns)
variable (beginFailed selectFailed : X → Err)
variable (classify : Option (RecordRow T) → Option (Except Err (BeginOutcome Rec)))

/-- One turn of the loop: `none` is `continue`. -/
def beginAttempt : SqlProg T X (Option (Except Err (BeginOutcome Rec))) := do
  match ← query (Statement.Begin claim terms) with
  | .error err => return some (.error (beginFailed err))
  | .ok (some fence) => return some (.ok (.Acquired fence))
  | .ok none =>
      match ← query (Statement.Select claim.scope claim.key) with
      | .error err => return some (.error (selectFailed err))
      | .ok existing => return classify existing

/-- `for (let attempt = 0; attempt < 3; attempt++)`, and the error after the loop. -/
def beginProgram (unsettled : Err) : SqlProg T X (Except Err (BeginOutcome Rec)) :=
  Prog.retry (beginAttempt claim terms beginFailed selectFailed classify) (.error unsettled) 3

end Begin

/-- Why `COMPLETE_SQL` changed nothing, as the row read afterwards tells it. -/
def completeStatus (fence now : ℤ) : Option (RecordRow T) → CompleteStatus
  | none => .NotFound
  | some row =>
      if row.expiresAt ≤ now then .NotFound
      else if row.fence ≠ fence then .StaleFence
      else .Ok

/-- Why `ABANDON_SQL` deleted nothing, as the row read afterwards tells it. -/
def abandonStatus (fence : ℤ) : Option (RecordRow T) → CompleteStatus
  | none => .NotFound
  | some row =>
      if row.state ≠ .InFlight then .NotFound
      else if row.fence = fence then .NotFound
      else .StaleFence

/-- `COMPLETE_SQL`, and where it changed nothing the `SELECT` that tells why.  Between the two the row may change. -/
def completeProgram (scope key : T) (fence now : ℤ) (result : ResultColumns T)
    (writeFailed selectFailed : X → Err) : SqlProg T X (Except Err CompleteStatus) := do
  match ← query (Statement.Complete scope key fence now result) with
  | .error err => return .error (writeFailed err)
  | .ok (some _) => return .ok .Ok
  | .ok none =>
      match ← query (Statement.Select scope key) with
      | .error err => return .error (selectFailed err)
      | .ok existing => return .ok (completeStatus fence now existing)

/-- `ABANDON_SQL`, and where it deleted nothing the `SELECT` that tells why. -/
def abandonProgram (scope key : T) (fence : ℤ) (writeFailed selectFailed : X → Err) :
    SqlProg T X (Except Err CompleteStatus) := do
  match ← query (Statement.Abandon scope key fence) with
  | .error err => return .error (writeFailed err)
  | .ok (some _) => return .ok .Ok
  | .ok none =>
      match ← query (Statement.Select scope key) with
      | .error err => return .error (selectFailed err)
      | .ok existing => return .ok (abandonStatus fence existing)

/-- `GET_SQL`, and the row decoded. -/
def getProgram (scope key : T) (now : ℤ) (failed : X → Err)
    (read : RecordRow T → Except Err Rec) : SqlProg T X (Except Err (Option Rec)) := do
  match ← query (Statement.Get scope key now) with
  | .error err => return .error (failed err)
  | .ok none => return .ok none
  | .ok (some row) => return (read row).map some

/-- `PURGE_SQL`, and the number of rows it deleted. -/
def purgeProgram (now : ℤ) (failed : X → Err) : SqlProg T X (Except Err ℕ) := do
  match ← query (Statement.Purge now) with
  | .error err => return .error (failed err)
  | .ok removed => return .ok removed

/-- The test-only deletion of one row. -/
def removeProgram (scope key : T) (failed : X → Err) : SqlProg T X (Except Err Unit) := do
  match ← query (Statement.Remove scope key) with
  | .error err => return .error (failed err)
  | .ok _ => return .ok ()

end

/-! ## PostgresStore and D1Store -/

/-- What a method of a TypeScript store throws: the error of the driver, the error after three
attempts, or the error of parsing a row's metadata. -/
inductive SqlFailure (X : Type)
  | Driver (err : X)
  | Unsettled (message : JsString)
  | BadMetadata

/-- The two TypeScript stores over a database: `PostgresStore` and `D1Store`. -/
inductive SqlDialect
  | Postgres
  | D1
  deriving DecidableEq

section

variable {X : Type}

/-- `rowToRecord(asRow(row))`. -/
def readRow (row : RecordRow JsString) : Except (SqlFailure X) IdempotencyRecord :=
  match rowToRecord row with
  | none => .error .BadMetadata
  | some record => .ok record

namespace PostgresStore

/-- The turn of the loop after the `SELECT`. -/
def classify (op : Operation) (opts : BeginOptions) :
    Option (RecordRow JsString) → Option (Except (SqlFailure X) (BeginOutcome IdempotencyRecord))
  | none => none
  | some row =>
      if row.expiresAt ≤ opts.now then none
      else
        match readRow row with
        | .error err => some (.error err)
        | .ok record =>
            if row.fingerprint ≠ op.fingerprint then some (.ok (.Mismatch record))
            else if row.state = .Completed then some (.ok (.Completed record))
            -- the lease lapsed between the refused claim and this read
            else if row.leaseUntil ≤ opts.now then none
            else some (.ok (.InFlight row.leaseUntil))

end PostgresStore

namespace D1Store

/-- The turn of the loop after the `SELECT`; a lapsed lease falls out of the body. -/
def classify (op : Operation) (opts : BeginOptions) :
    Option (RecordRow JsString) → Option (Except (SqlFailure X) (BeginOutcome IdempotencyRecord))
  | none => none
  | some row =>
      if row.expiresAt ≤ opts.now then none
      else
        match readRow row with
        | .error err => some (.error err)
        | .ok record =>
            if row.fingerprint ≠ op.fingerprint then some (.ok (.Mismatch record))
            else if row.state = .Completed then some (.ok (.Completed record))
            else if row.leaseUntil > opts.now then some (.ok (.InFlight row.leaseUntil))
            else none

lemma classify_eq (op : Operation) (opts : BeginOptions) (existing : Option (RecordRow JsString)) :
    classify (X := X) op opts existing = PostgresStore.classify op opts existing := by
  cases existing with
  | none => rfl
  | some row =>
      simp only [classify, PostgresStore.classify, gt_iff_lt]
      by_cases hlease : row.leaseUntil ≤ opts.now
      · simp only [if_neg (not_lt.mpr hlease), if_pos hlease]
      · simp only [if_pos (not_le.mp hlease), if_neg hlease]

end D1Store

namespace SqlDialect

/-- The turn of the loop after a refused claim, in either dialect; `none` is another turn. -/
def classify : SqlDialect → Operation → BeginOptions → Option (RecordRow JsString) →
    Option (Except (SqlFailure X) (BeginOutcome IdempotencyRecord))
  | .Postgres => PostgresStore.classify
  | .D1 => D1Store.classify

/-- The message of a `begin` that gave up. -/
def unsettled : SqlDialect → JsString
  | .Postgres => js "anyonce: postgres begin could not settle after three attempts"
  | .D1 => js "anyonce: d1 begin could not settle after three attempts"

end SqlDialect

/-- What the statements say of an operation. -/
def Operation.columns (op : Operation) : ClaimColumns JsString where
  scope := op.scope
  key := op.key
  fingerprint := op.fingerprint

/-- What the statements say of the terms: the ends of the lease and of the record. -/
def BeginOptions.columns (opts : BeginOptions) : TermColumns where
  now := opts.now
  leaseUntil := opts.now + opts.leaseMs
  expiresAt := opts.now + opts.ttlMs

/-- The result a statement binds: the metadata, the body, and whether the body was omitted. -/
def Completion.columns (result : Completion) : ResultColumns JsString where
  resultMeta := encodeResultMeta result
  resultBody :=
    match result with
    | .Stored r => r.body
    | .Omitted _ => none
  resultOmitted := if result.isOmitted then 1 else 0

/-- One call of a TypeScript store, as the statements it issues. -/
def SqlDialect.program (d : SqlDialect) :
    (c : StoreCall Operation BeginOptions Completion) →
      SqlProg JsString X (Except (SqlFailure X) (StoreReply IdempotencyRecord c))
  | .Begin op opts =>
      beginProgram op.columns opts.columns .Driver .Driver (d.classify op opts)
        (.Unsettled d.unsettled)
  | .Complete op fence result now =>
      completeProgram op.scope op.key fence now result.columns .Driver .Driver
  | .Abandon op fence => abandonProgram op.scope op.key fence .Driver .Driver
  | .Get op now => getProgram op.scope op.key now .Driver readRow
  | .Purge now => purgeProgram now .Driver
  | .PhysicallyRemove op => removeProgram op.scope op.key .Driver

lemma SqlDialect.classify_eq (d : SqlDialect) (op : Operation) (opts : BeginOptions) :
    d.classify (X := X) op opts = PostgresStore.classify op opts := by
  cases d with
  | Postgres => rfl
  | D1 => exact funext (D1Store.classify_eq op opts)

end

end Anyonce
