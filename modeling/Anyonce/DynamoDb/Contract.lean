import Anyonce.DynamoDb.Table
import Anyonce.Sql.Programs

/-!
# Conditional writes in the words of the contract

The stores of the two languages send byte for byte the same expressions, over texts of different code units.  Here an
expression is over the texts of any of them (`ItemText`), and is read against the row that an item holds.

**Conditions** decide as the contract does: `beginCondition_holds`, `completeCondition_holds` and
`abandonCondition_holds`.  **Updates** leave the rows of the contract: `beginUpdate_apply`, `completeUpdate_apply`.

* `ItemText.Holds` — the attributes of an item that holds a row.
* `rowModel_complete_refused`, `rowModel_abandon_refused` — why the contract leaves a row alone.
* `begin_request`, `complete_request`, `abandon_request` — **what one conditional write comes to**.
-/

namespace Anyonce

open Relational

/-! ## The contract on a row -/

section

variable {T : Type} {fence now : ℤ} {row : RecordRow T} {found : Option (RecordRow T)}

lemma rowModel_complete_written (h : row.completable fence now = true) (result : ResultColumns T) :
    (rowModel T).complete fence result now (some row) = (.Ok, some (completedRow result row)) := by
  simp only [RecordRow.completable, Bool.and_eq_true, decide_eq_true_eq] at h
  obtain ⟨⟨hfence, hlive⟩, hstate⟩ := h
  simp [ClaimModel.complete, not_le.mpr hlive, hfence, hstate]

/-- A `complete` that is refused leaves the row, and the row tells why. -/
lemma rowModel_complete_refused (h : found.any (RecordRow.completable fence now) = false) (result : ResultColumns T) :
    (rowModel T).complete fence result now found = (completeStatus fence now found, found) := by
  cases found with
  | none => rfl
  | some row =>
      simp only [ClaimModel.complete, completeStatus, rowModel_expiresAt, rowModel_fence, rowModel_state]
      by_cases hexp : row.expiresAt ≤ now
      · simp [hexp]
      · by_cases hfence : row.fence = fence
        · have hstate : row.state = .Completed := by
            cases hs : row.state with
            | Completed => rfl
            | InFlight => simp [RecordRow.completable, hfence, hs, not_le.mp hexp] at h
          simp [hexp, hfence, hstate]
        · simp [hexp, hfence]

lemma rowModel_abandon_written (h : row.abandonable fence = true) :
    (rowModel T).abandon fence (some row) = (.Ok, none) := by
  simp only [RecordRow.abandonable, Bool.and_eq_true, decide_eq_true_eq] at h
  simp [ClaimModel.abandon, h.1, h.2]

/-- An `abandon` that is refused leaves the row, and the row tells why. -/
lemma rowModel_abandon_refused (h : found.any (RecordRow.abandonable fence) = false) :
    (rowModel T).abandon fence found = (abandonStatus fence found, found) := by
  cases found with
  | none => rfl
  | some row =>
      simp only [ClaimModel.abandon, abandonStatus, rowModel_fence, rowModel_state]
      by_cases hstate : row.state = .InFlight
      · have hfence : row.fence ≠ fence := by
          rintro rfl
          simp [RecordRow.abandonable, hstate] at h
        simp [hstate, hfence]
      · simp [hstate]

end

/-- How a store writes its texts: the separator of an item key, and the two states. -/
structure ItemText (U : Type) where
  separator : U
  state : RecordState → List U
  state_ne : state .Completed ≠ state .InFlight

namespace ItemText

variable {U : Type} (text : ItemText U)

/-- The partition key of a scope and a key. -/
def itemKey (scope key : List U) : List U := scope ++ text.separator :: key

/-- The attributes of an item that holds a row; those of a result only where the row has one. -/
structure Holds (item : Item (List U)) (row : RecordRow (List U)) : Prop where
  pk : item .Pk = some (.S (row.scope ++ text.separator :: row.key))
  fingerprint : item .Fingerprint = some (.S row.fingerprint)
  state : item .State = some (.S (text.state row.state))
  fence : item .Fence = some (.N row.fence)
  leaseUntil : item .LeaseUntil = some (.N row.leaseUntil)
  createdAt : item .CreatedAt = some (.N row.createdAt)
  expiresAt : item .ExpiresAt = some (.N row.expiresAt)
  resultMeta : item .ResultMeta = row.resultMeta.map .S
  resultBody : item .ResultBody = row.resultBody.map .B
  resultOmitted : item .ResultOmitted = some (.N row.resultOmitted)

/-! ## The expressions -/

/-- The condition of a claim: no item, an expired one, or a lapsed claim of the same payload. -/
def beginCondition (fp : List U) (now : ℤ) : Condition (List U) :=
  .Or (.NotExists .Pk) (.Or (.Compare .ExpiresAt .Le (.N now))
    (.And (.Compare .Fingerprint .Eq (.S fp))
      (.And (.Compare .State .Eq (.S (text.state .InFlight))) (.Compare .LeaseUntil .Le (.N now)))))

/-- The update of a claim: the next fence, the new terms, and nothing left of an earlier result. -/
def beginUpdate (fp : List U) (now lease exp ttl : ℤ) : Update (List U) where
  set :=
    [(.Fingerprint, .Value (.S fp)), (.State, .Value (.S (text.state .InFlight))),
      (.Fence, .Plus (.IfNotExists .Fence (.N 0)) (.Value (.N 1))),
      (.LeaseUntil, .Value (.N lease)), (.CreatedAt, .Value (.N now)),
      (.ExpiresAt, .Value (.N exp)), (.Ttl, .Value (.N ttl)), (.ResultOmitted, .Value (.N 0))]
  remove := [.ResultMeta, .ResultBody]

/-- The condition of `complete`: a live item in flight under the fence. -/
def completeCondition (fence now : ℤ) : Condition (List U) :=
  .And (.Compare .Fence .Eq (.N fence)) (.And (.Compare .ExpiresAt .Gt (.N now))
    (.Compare .State .Eq (.S (text.state .InFlight))))

/-- The body is set where there is one, and removed otherwise. -/
def completeUpdate (result : ResultColumns (List U)) : Update (List U) :=
  let set : List (Attribute × Operand (List U)) :=
    [(.State, .Value (.S (text.state .Completed))), (.ResultMeta, .Value (.S result.resultMeta)),
      (.ResultOmitted, .Value (.N result.resultOmitted))]
  match result.resultBody with
  | some bytes => ⟨set ++ [(.ResultBody, .Value (.B bytes))], []⟩
  | none => ⟨set, [.ResultBody]⟩

/-- The condition of `abandon`: an item in flight under the fence, expired or not. -/
def abandonCondition (fence : ℤ) : Condition (List U) :=
  .And (.Compare .Fence .Eq (.N fence)) (.Compare .State .Eq (.S (text.state .InFlight)))

/-! ## The conditions decide as the contract does -/

variable {text} [DecidableEq U] {old : Option (Item (List U))} {found : Option (RecordRow (List U))}

/-- The comparison of an attribute that is there. -/
lemma holds_compare {item : Item (List U)} {a : Attribute} {x : AttributeValue (List U)} (hx : item a = some x)
    (c : Comparator) (v : AttributeValue (List U)) : (Condition.Compare a c v).holds item = c.holds x v := by
  simp only [Condition.holds, hx]

lemma holds_inFlight {item : Item (List U)} {row : RecordRow (List U)} (h : text.Holds item row) :
    (Condition.Compare .State .Eq (.S (text.state .InFlight))).holds item = decide (row.state = .InFlight) := by
  rw [holds_compare h.state]
  cases row.state with
  | InFlight => simp [Comparator.holds]
  | Completed => simp [Comparator.holds, text.state_ne]

/-- **The condition of `begin`** holds of the claimable rows. -/
lemma beginCondition_holds (h : Option.Rel text.Holds old found) (claim : ClaimColumns (List U)) (terms : TermColumns) :
    (text.beginCondition claim.fingerprint terms.now).holds (old.getD Item.absent)
      = (rowModel (List U)).claimable claim terms found := by
  cases h with
  | none => rfl
  | @some item row h =>
      have hpk : (Condition.NotExists .Pk).holds item = false := by simp [Condition.holds, h.pk]
      have hexp := holds_compare h.expiresAt .Le (.N terms.now)
      have hfp := holds_compare h.fingerprint .Eq (.S claim.fingerprint)
      have hlease := holds_compare h.leaseUntil .Le (.N terms.now)
      rw [beginCondition, Option.getD_some, Condition.holds_or, Condition.holds_or, Condition.holds_and,
        Condition.holds_and, hpk, hexp, hfp, holds_inFlight h, hlease, Bool.eq_iff_iff, ClaimModel.claimable_some]
      simp [Comparator.holds]

/-- **The condition of `complete`** holds of the live rows in flight under the fence. -/
lemma completeCondition_holds (h : Option.Rel text.Holds old found) (fence now : ℤ) :
    (text.completeCondition fence now).holds (old.getD Item.absent) = found.any (RecordRow.completable fence now) := by
  cases h with
  | none => rfl
  | @some item row h =>
      have hfence := holds_compare h.fence .Eq (.N fence)
      have hexp := holds_compare h.expiresAt .Gt (.N now)
      rw [completeCondition, Option.getD_some, Condition.holds_and, Condition.holds_and, hfence, hexp, holds_inFlight h]
      simp [Comparator.holds, RecordRow.completable, Bool.and_assoc]

/-- **The condition of `abandon`** holds of the rows in flight under the fence. -/
lemma abandonCondition_holds (h : Option.Rel text.Holds old found) (fence : ℤ) :
    (text.abandonCondition fence).holds (old.getD Item.absent) = found.any (RecordRow.abandonable fence) := by
  cases h with
  | none => rfl
  | @some item row h =>
      have hfence := holds_compare h.fence .Eq (.N fence)
      rw [abandonCondition, Option.getD_some, Condition.holds_and, hfence, holds_inFlight h]
      simp [Comparator.holds, RecordRow.abandonable]

/-! ## The updates leave the rows of the contract -/

omit [DecidableEq U] in
/-- **The update of `begin`** leaves the row of a new claim with the next fence, and nothing of an earlier result. -/
lemma beginUpdate_apply (h : Option.Rel text.Holds old found) (claim : ClaimColumns (List U)) (terms : TermColumns)
    (hkeyed : ∀ row, found = some row → row.scope = claim.scope ∧ row.key = claim.key) (ttl : ℤ) :
    ∃ item, (text.beginUpdate claim.fingerprint terms.now terms.leaseUntil terms.expiresAt ttl).apply
        (text.itemKey claim.scope claim.key) old = some item
      ∧ text.Holds item (claimRow claim terms ((rowModel (List U)).nextFence found)) := by
  cases h with
  | none =>
      refine ⟨_, rfl, ?_⟩
      constructor <;> rfl
  | @some item row h =>
      have hfence : (Operand.Plus (.IfNotExists .Fence (.N 0)) (.Value (.N 1))).eval item
          = some (.N (row.fence + 1)) := by simp [Operand.eval, h.fence]
      have hpk : item .Pk = some (.S (text.itemKey claim.scope claim.key)) := by
        rw [h.pk, (hkeyed row rfl).1, (hkeyed row rfl).2]
        rfl
      simp only [Update.apply, beginUpdate, Update.assign, Option.getD_some, hfence, Operand.eval_value,
        Option.bind_some, Option.map_some]
      refine ⟨_, rfl, ?_⟩
      constructor
      · exact hpk
      all_goals rfl

omit [DecidableEq U] in
/-- **The update of `complete`** leaves the completed row. -/
lemma completeUpdate_apply {item : Item (List U)} {row : RecordRow (List U)} (h : text.Holds item row) (pk : List U)
    (result : ResultColumns (List U)) :
    ∃ item', (text.completeUpdate result).apply pk (some item) = some item'
      ∧ text.Holds item' (completedRow result row) := by
  obtain ⟨resultMeta, body, omitted⟩ := result
  cases body with
  | none =>
      refine ⟨_, rfl, ?_⟩
      exact ⟨h.pk, h.fingerprint, rfl, h.fence, h.leaseUntil, h.createdAt, h.expiresAt, rfl, rfl, rfl⟩
  | some bytes =>
      refine ⟨_, rfl, ?_⟩
      exact ⟨h.pk, h.fingerprint, rfl, h.fence, h.leaseUntil, h.createdAt, h.expiresAt, rfl, rfl, rfl⟩

/-! ## What a conditional write comes to -/

section

variable {items : Items (List U)} {pk : List U}

omit [DecidableEq U] in
/-- A row that was found is held by an item. -/
lemma held_item (h : Option.Rel text.Holds old found) {row : RecordRow (List U)} (hrow : found = some row) :
    ∃ item, old = some item ∧ text.Holds item row := by
  subst hrow
  cases h with
  | some hitem => exact ⟨_, rfl, hitem⟩

/-- **The write of `begin`** takes a claimable cell, or is refused with the item that stands in the way. -/
lemma begin_request (claim : ClaimColumns (List U)) (terms : TermColumns)
    (h : Option.Rel text.Holds (items.get (text.itemKey claim.scope claim.key)) found)
    (hkeyed : ∀ row, found = some row → row.scope = claim.scope ∧ row.key = claim.key) (ttl : ℤ) :
    let out := updateItem items (text.itemKey claim.scope claim.key) (text.beginCondition claim.fingerprint terms.now)
      (text.beginUpdate claim.fingerprint terms.now terms.leaseUntil terms.expiresAt ttl)
    ((rowModel (List U)).claimable claim terms found = true ∧ ∃ item,
        out = (.ok item, items.set (text.itemKey claim.scope claim.key) item)
        ∧ text.Holds item (claimRow claim terms ((rowModel (List U)).nextFence found)))
      ∨ ((rowModel (List U)).claimable claim terms found = false ∧ ∃ item row, found = some row ∧ text.Holds item row
        ∧ out = (.error (.ConditionalCheckFailed (some item)), items)) := by
  have hcond := beginCondition_holds h claim terms
  obtain ⟨item, happly, hitem⟩ := beginUpdate_apply h claim terms hkeyed ttl
  cases hclaim : (rowModel (List U)).claimable claim terms found with
  | true =>
      rw [hclaim] at hcond
      exact Or.inl ⟨rfl, item, by simp only [updateItem, hcond, if_true, happly], hitem⟩
  | false =>
      rw [hclaim] at hcond
      obtain ⟨row, hrow, -⟩ := ClaimModel.not_claimable hclaim
      obtain ⟨item, hold, hitem⟩ := held_item h hrow
      rw [hold] at hcond
      exact Or.inr ⟨rfl, item, row, hrow, hitem, by simp only [updateItem, hold, hcond, Bool.false_eq_true, if_false]⟩

/-- **The write of `complete`** stores the result in a live row in flight under the fence, or is refused. -/
lemma complete_request (h : Option.Rel text.Holds (items.get pk) found) (fence now : ℤ)
    (result : ResultColumns (List U)) :
    let out := updateItem items pk (text.completeCondition fence now) (text.completeUpdate result)
    (∃ row item, found = some row ∧ row.completable fence now = true ∧ out = (.ok item, items.set pk item)
        ∧ text.Holds item (completedRow result row))
      ∨ (found.any (RecordRow.completable fence now) = false
        ∧ out = (.error (.ConditionalCheckFailed (items.get pk)), items)) := by
  have hcond := completeCondition_holds h fence now
  cases hsel : found.any (RecordRow.completable fence now) with
  | true =>
      rw [hsel] at hcond
      obtain ⟨row, hrow, hcompletable⟩ := (Option.any_eq_true _ _).mp hsel
      obtain ⟨old, hold, hitem⟩ := held_item h hrow
      rw [hold] at hcond
      obtain ⟨item, happly, hnew⟩ := completeUpdate_apply hitem pk result
      exact Or.inl ⟨row, item, hrow, hcompletable, by simp only [updateItem, hcond, if_true, hold, happly], hnew⟩
  | false =>
      rw [hsel] at hcond
      exact Or.inr ⟨rfl, by simp only [updateItem, hcond, Bool.false_eq_true, if_false]⟩

/-- **The write of `abandon`** empties a cell in flight under the fence, or is refused. -/
lemma abandon_request (h : Option.Rel text.Holds (items.get pk) found) (fence : ℤ) :
    let out := deleteItem items pk (some (text.abandonCondition fence))
    (∃ row, found = some row ∧ row.abandonable fence = true ∧ out = (.ok (), items.delete pk))
      ∨ (found.any (RecordRow.abandonable fence) = false
        ∧ out = (.error (.ConditionalCheckFailed (items.get pk)), items)) := by
  have hcond := abandonCondition_holds h fence
  cases hsel : found.any (RecordRow.abandonable fence) with
  | true =>
      rw [hsel] at hcond
      obtain ⟨row, hrow, habandonable⟩ := (Option.any_eq_true _ _).mp hsel
      exact Or.inl ⟨row, hrow, habandonable, by simp only [deleteItem, Option.all_some, hcond, if_true]⟩
  | false =>
      rw [hsel] at hcond
      exact Or.inr ⟨rfl, by simp only [deleteItem, Option.all_some, hcond, Bool.false_eq_true, if_false]⟩

end

end ItemText

end Anyonce
