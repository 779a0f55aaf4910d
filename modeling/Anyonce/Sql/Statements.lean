import Anyonce.Claim.Model
import Anyonce.Core.Interleaving
import Anyonce.Core.Table
import Anyonce.Store.Codec

/-!
# The shared SQL statements

`packages/stores/src/sql.ts` and `go/store/internal/sqlstore/sqlstore.go` have the same statements
over one table, `anyonce_records` with primary key `(scope, key)`.  Each is one atomic step on the
table.  A text column holds the strings of either language, so `T` is a parameter; a row already is
its columns, and what a driver makes of them on the way (`asRow`, `scanRow`) is the identity here.

* `Statement.run` — the meaning of each statement: what it returns, and the table after it.
* `rowModel` — the row of the table as a row of claims, for the contract of `Claim/Model.lean`.
* `beginSql_eq`, `completeSql_eq`, `abandonSql_eq` — the statements in the words of that contract.
* `sqlObj` — the table as an object shared by callers whose statements may also fail.
-/

namespace Anyonce

open Interaction Relational

section

variable {T : Type}

/-- The primary key of `anyonce_records`. -/
def RecordRow.primaryKey (row : RecordRow T) : T × T := (row.scope, row.key)

/-- The table `anyonce_records`. -/
abbrev Records (T : Type) : Type := Table (RecordRow.primaryKey : RecordRow T → T × T)

/-- What `BEGIN_SQL` binds as `?1`, `?2` and `?3`. -/
structure ClaimColumns (T : Type) where
  scope : T
  key : T
  fingerprint : T
  deriving DecidableEq

/-- What `BEGIN_SQL` binds as `?4`, `?5` and `?6`. -/
structure TermColumns where
  now : ℤ
  leaseUntil : ℤ
  expiresAt : ℤ
  deriving DecidableEq

/-- What `COMPLETE_SQL` binds as `?5`, `?6` and `?7`. -/
structure ResultColumns (T : Type) where
  resultMeta : T
  resultBody : Option (List UInt8)
  resultOmitted : ℤ
  deriving DecidableEq

/-- The row `BEGIN_SQL` inserts, or writes over the one there. -/
def claimRow (claim : ClaimColumns T) (terms : TermColumns) (fence : ℤ) : RecordRow T where
  scope := claim.scope
  key := claim.key
  fingerprint := claim.fingerprint
  state := .InFlight
  fence := fence
  leaseUntil := terms.leaseUntil
  createdAt := terms.now
  expiresAt := terms.expiresAt
  resultMeta := none
  resultBody := none
  resultOmitted := 0

/-- The row `COMPLETE_SQL` writes. -/
def completedRow (result : ResultColumns T) (row : RecordRow T) : RecordRow T :=
  { row with
    state := .Completed
    resultMeta := some result.resultMeta
    resultBody := result.resultBody
    resultOmitted := result.resultOmitted }

@[simp] lemma claimRow_primaryKey (claim : ClaimColumns T) (terms : TermColumns) (fence : ℤ) :
    (claimRow claim terms fence).primaryKey = (claim.scope, claim.key) := rfl

@[simp] lemma completedRow_primaryKey (result : ResultColumns T) (row : RecordRow T) :
    (completedRow result row).primaryKey = row.primaryKey := rfl

/-- The statements of the stores, with their parameters. -/
inductive Statement (T : Type)
  | Begin (claim : ClaimColumns T) (terms : TermColumns)
  | Complete (scope key : T) (fence now : ℤ) (result : ResultColumns T)
  | Abandon (scope key : T) (fence : ℤ)
  | Get (scope key : T) (now : ℤ)
  | Select (scope key : T)
  | Purge (now : ℤ)
  | Remove (scope key : T)

/-- What a statement returns: the first row of `RETURNING fence`, the first row selected, or the
number of rows deleted. -/
abbrev Returned : Statement T → Type
  | .Begin _ _ => Option ℤ
  | .Complete _ _ _ _ _ => Option ℤ
  | .Abandon _ _ _ => Option ℤ
  | .Get _ _ _ => Option (RecordRow T)
  | .Select _ _ => Option (RecordRow T)
  | .Purge _ => ℕ
  | .Remove _ _ => ℕ

variable [DecidableEq T]

/-- The claim is this one statement: an insert, or on conflict an update under a condition. -/
def beginSql (t : Records T) (claim : ClaimColumns T) (terms : TermColumns) :
    Option ℤ × Records T :=
  match t.lookup (claim.scope, claim.key) with
  | none => (some 1, t.put (claimRow claim terms 1))
  | some row =>
      if row.expiresAt ≤ terms.now
          ∨ (row.fingerprint = claim.fingerprint ∧ row.state = .InFlight
            ∧ row.leaseUntil ≤ terms.now) then
        let excluded := claimRow claim terms 1
        let updated : RecordRow T :=
          { row with
            fingerprint := excluded.fingerprint
            state := .InFlight
            fence := row.fence + 1
            leaseUntil := excluded.leaseUntil
            createdAt := excluded.createdAt
            expiresAt := excluded.expiresAt
            resultMeta := none
            resultBody := none
            resultOmitted := 0 }
        (some updated.fence, t.put updated)
      else (none, t)

/-- The condition of `COMPLETE_SQL`, besides the key. -/
def RecordRow.completable (fence now : ℤ) (row : RecordRow T) : Bool :=
  row.fence = fence && row.expiresAt > now && row.state = .InFlight

/-- The condition of `ABANDON_SQL`, besides the key. -/
def RecordRow.abandonable (fence : ℤ) (row : RecordRow T) : Bool :=
  row.fence = fence && row.state = .InFlight

/-- `COMPLETE_SQL`: an update of a live row in flight under the fence. -/
def completeSql (t : Records T) (scope key : T) (fence now : ℤ) (result : ResultColumns T) :
    Option ℤ × Records T :=
  let selected : RecordRow T → Bool := fun row =>
    row.primaryKey = (scope, key) && row.completable fence now
  ((t.rows.find? selected).map RecordRow.fence,
    t.modify selected (completedRow result) fun _ => rfl)

/-- `ABANDON_SQL`: a deletion of a row in flight under the fence, expired or not. -/
def abandonSql (t : Records T) (scope key : T) (fence : ℤ) : Option ℤ × Records T :=
  let selected : RecordRow T → Bool := fun row =>
    row.primaryKey = (scope, key) && row.abandonable fence
  ((t.rows.find? selected).map RecordRow.fence, t.remove selected)

/-- `GET_SQL`: the live row. -/
def getSql (t : Records T) (scope key : T) (now : ℤ) : Option (RecordRow T) :=
  t.rows.find? fun row => row.primaryKey = (scope, key) && row.expiresAt > now

/-- The raw row, expired or not, used to classify a refused write. -/
def selectSql (t : Records T) (scope key : T) : Option (RecordRow T) := t.lookup (scope, key)

/-- `PURGE_SQL`: a deletion of every expired row. -/
def purgeSql (t : Records T) (now : ℤ) : ℕ × Records T :=
  (t.rows.countP fun row => row.expiresAt ≤ now, t.remove fun row => row.expiresAt ≤ now)

/-- Test-only physical removal. -/
def removeSql (t : Records T) (scope key : T) : ℕ × Records T :=
  (t.rows.countP fun row => row.primaryKey = (scope, key),
    t.remove fun row => row.primaryKey = (scope, key))

/-- One statement, whichever it is. -/
def Statement.run (t : Records T) : (c : Statement T) → Returned c × Records T
  | .Begin claim terms => beginSql t claim terms
  | .Complete scope key fence now result => completeSql t scope key fence now result
  | .Abandon scope key fence => abandonSql t scope key fence
  | .Get scope key now => (getSql t scope key now, t)
  | .Select scope key => (selectSql t scope key, t)
  | .Purge now => purgeSql t now
  | .Remove scope key => removeSql t scope key

/-! ## The statements in the words of the contract -/

/-- The row of the table as a row of claims. -/
@[simps]
def rowModel (T : Type) :
    ClaimModel T (ClaimColumns T) TermColumns (RecordRow T) (ResultColumns T) where
  opFingerprint := ClaimColumns.fingerprint
  now := TermColumns.now
  leaseEnd := TermColumns.leaseUntil
  expiry := TermColumns.expiresAt
  fingerprint := RecordRow.fingerprint
  state := RecordRow.state
  fence := RecordRow.fence
  leaseUntil := RecordRow.leaseUntil
  expiresAt := RecordRow.expiresAt
  fresh := claimRow
  finish := completedRow
  fingerprint_fresh _ _ _ := rfl
  state_fresh _ _ _ := rfl
  fence_fresh _ _ _ := rfl
  leaseUntil_fresh _ _ _ := rfl
  expiresAt_fresh _ _ _ := rfl
  fingerprint_finish _ _ := rfl
  state_finish _ _ := rfl
  fence_finish _ _ := rfl
  leaseUntil_finish _ _ := rfl
  expiresAt_finish _ _ := rfl

variable (t : Records T)

/-- **The claiming statement** takes a claimable row with the next fence, and refuses any other. -/
lemma beginSql_eq (claim : ClaimColumns T) (terms : TermColumns) : beginSql t claim terms
    = if (rowModel T).claimable claim terms (t.lookup (claim.scope, claim.key)) then
        (some ((rowModel T).nextFence (t.lookup (claim.scope, claim.key))),
          t.put (claimRow claim terms ((rowModel T).nextFence (t.lookup (claim.scope, claim.key)))))
      else (none, t) := by
  cases hl : t.lookup (claim.scope, claim.key) with
  | none => simp [beginSql, hl, ClaimModel.claimable, ClaimModel.nextFence]
  | some row =>
      have hkey : row.scope = claim.scope ∧ row.key = claim.key := by
        simpa [RecordRow.primaryKey] using Table.key_of_lookup hl
      simp only [beginSql, hl, ClaimModel.claimable, ClaimModel.nextFence, rowModel_expiresAt,
        rowModel_now, rowModel_fingerprint, rowModel_opFingerprint, rowModel_state,
        rowModel_leaseUntil, rowModel_fence, decide_eq_true_eq]
      split_ifs
      · simp only [claimRow, ← hkey.1, ← hkey.2]
      · rfl

/-- **The completing statement** stores the result in a live row in flight under its fence. -/
lemma completeSql_eq (scope key : T) (fence now : ℤ) (result : ResultColumns T) :
    completeSql t scope key fence now result
      = match (t.lookup (scope, key)).filter (RecordRow.completable fence now) with
        | none => (none, t)
        | some row => (some row.fence, t.put (completedRow result row)) := by
  have hfind := t.find?_at (scope, key) (RecordRow.completable fence now)
  have hmod := t.modify_at (scope, key) (RecordRow.completable fence now) (completedRow result)
    fun _ => rfl
  simp only [completeSql, hfind, hmod]
  cases (t.lookup (scope, key)).filter (RecordRow.completable fence now) <;> rfl

/-- **The abandoning statement** deletes a row in flight under its fence. -/
lemma abandonSql_eq (scope key : T) (fence : ℤ) : abandonSql t scope key fence
    = match (t.lookup (scope, key)).filter (RecordRow.abandonable fence) with
      | none => (none, t)
      | some row => (some row.fence, t.remove fun row => row.primaryKey = (scope, key)) := by
  have hfind := t.find?_at (scope, key) (RecordRow.abandonable fence)
  have hrem := t.remove_at (scope, key) (RecordRow.abandonable fence)
  simp only [abandonSql, hfind, hrem]
  cases (t.lookup (scope, key)).filter (RecordRow.abandonable fence) <;> rfl

lemma getSql_eq (scope key : T) (now : ℤ) :
    getSql t scope key now = (rowModel T).live now (t.lookup (scope, key)) :=
  Table.find?_at t (scope, key) fun row => row.expiresAt > now

/-! ## The table as a shared object -/

section

variable (X : Type)

/-- What a caller gets for a statement: what it returned, or the driver's error. -/
abbrev SqlReply (c : Statement T) : Type := Except X (Returned c)

variable {X} {ι : Type}

/-- The table shared by callers `ι`.  A statement is one atomic step; one that fails on the caller
may have been executed or not. -/
def sqlObj (t : Records T) (p : ι × Statement T) (r : Tagged ι (SqlReply X) p) (t' : Records T) :
    Prop :=
  match r with
  | .ok returned => p.2.run t = (returned, t')
  | .error _ => t' = t ∨ t' = (p.2.run t).2

/-- The table that answers every statement. -/
def sqlMachine (c : Statement T) (t : Records T) : SqlReply X c × Records T :=
  (.ok (c.run t).1, (c.run t).2)

lemma sqlObj_sqlMachine (t : Records T) (i : ι) (c : Statement T) :
    sqlObj (X := X) t (i, c) (sqlMachine c t).1 (sqlMachine (X := X) c t).2 := rfl

end

end

end Anyonce
