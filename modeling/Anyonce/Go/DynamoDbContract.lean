import Anyonce.Core.Served
import Anyonce.DynamoDb.Contract
import Anyonce.DynamoDb.ItemKeys
import Anyonce.Go.RowCodec

/-!
# The Go DynamoDB store keeps the contract

The Go store sends the expressions of the TypeScript store over texts of bytes, and cuts its times to
milliseconds.  What it is compared with is the contract itself, on one row or none for each scope and
key (`Cells`): the Go memory store keeps nanoseconds and would not answer alike.

* `CellsHeld` — each item holds the row of its cell.
* `awaits_program` — every call is served by one request.
* `dynamodb_store_keeps_contract` — **the theorem about every interleaving**.
-/

namespace Anyonce.Go

open Interaction Relational

/-! ## The contract on cells -/

/-- One row, or none, for each scope and key. -/
abbrev Cells : Type := GoString × GoString → Option (RecordRow GoString)

/-- The columns `Complete` writes for a result whose metadata encodes to a text. -/
def StoredResult.columns (result : StoredResult) (text : GoString) : ResultColumns GoString where
  resultMeta := text
  resultBody := if result.omitted then none else result.body
  resultOmitted := if result.omitted then 1 else 0

section

variable (json : MetaJson)

/-- What a caller sees of an outcome about a row. -/
def shown : BeginOutcome (RecordRow GoString) → BeginOutcome Record
  | .Acquired fence => .Acquired fence
  | .InFlight leaseUntil => .InFlight (unixMilli leaseUntil)
  | .Completed row => .Completed (toRecord json row)
  | .Mismatch row => .Mismatch (toRecord json row)

/-- The contract, one call after another.  A purge is left to the native TTL. -/
def contractMachine (c : StoreCall Operation BeginOptions StoredResult) (cells : Cells) :
    Except DynamoError (StoreReply Record c) × Cells :=
  match c with
  | .Begin op opts =>
      let out := (rowModel GoString).begin op.columns opts.columns (cells (op.scope, op.key))
      (.ok (shown json out.1), Function.update cells (op.scope, op.key) out.2)
  | .Complete op fence result now =>
      match encodeMeta json result with
      | .error err => (.error (.Encode err), cells)
      | .ok text =>
          let out := (rowModel GoString).complete fence (result.columns text) (ms now) (cells (op.scope, op.key))
          (.ok out.1, Function.update cells (op.scope, op.key) out.2)
  | .Abandon op fence =>
      let out := (rowModel GoString).abandon fence (cells (op.scope, op.key))
      (.ok out.1, Function.update cells (op.scope, op.key) out.2)
  | .Get op now =>
      (.ok (((rowModel GoString).live (ms now) (cells (op.scope, op.key))).map (toRecord json)), cells)
  | .Purge _ => (.ok 0, cells)
  | .PhysicallyRemove op => (.ok (), Function.update cells (op.scope, op.key) none)

end

/-! ## Items and rows -/

/-- The texts of the items. -/
def goItemText : ItemText UInt8 where
  separator := 0x1f
  state
    | .InFlight => ascii "in_flight"
    | .Completed => ascii "completed"
  state_ne := by decide

/-- The update of `Complete` writes the columns of the result. -/
lemma completeUpdate_eq (text : GoString) (omitted : Bool) (body : Option (List UInt8)) :
    completeUpdate text omitted body = goItemText.completeUpdate
      ⟨text, if omitted then none else body, if omitted then 1 else 0⟩ := by
  cases omitted <;> cases body <;> rfl

/-- **`itemToRow` reads the row back.** -/
lemma itemToRow_of_holds {item : Item GoString} {row : RecordRow GoString} (h : goItemText.Holds item row)
    (hscope : 0x1f ∉ row.scope) : itemToRow item = some row := by
  have hsplit : splitKey (row.scope ++ goItemText.separator :: row.key) = (row.scope, row.key) :=
    Separator.splitFirst_append hscope row.key
  have hstate : stateOf (goItemText.state row.state) = some row.state := by
    cases row.state <;> decide
  simp only [itemToRow, readStr, readNum, h.pk, h.fingerprint, h.state, h.fence, h.leaseUntil, h.createdAt,
    h.expiresAt, h.resultMeta, h.resultBody, h.resultOmitted, hsplit, hstate]
  obtain ⟨_, _, _, _, _, _, _, _, resultMeta, resultBody, _⟩ := row
  cases resultMeta <;> cases resultBody <;> rfl

/-- Each item whose scope has no separator holds the row of its cell, and the row is that of the cell. -/
structure CellsHeld (cells : Cells) (items : Items GoString) : Prop where
  held : ∀ scope key, 0x1f ∉ scope →
    Option.Rel goItemText.Holds (items.get (goItemText.itemKey scope key)) (cells (scope, key))
  keyed : ∀ scope key row, cells (scope, key) = some row → row.scope = scope ∧ row.key = key

lemma cellsHeld_empty : CellsHeld (fun _ => none) Table.empty where
  held _ _ _ := Option.Rel.none
  keyed _ _ _ h := nomatch h

namespace CellsHeld

variable {cells : Cells} {items : Items GoString} (h : CellsHeld cells items)
variable {op : Operation} (hscope : 0x1f ∉ op.scope)

include h

/-- A cell left as it was. -/
lemma same {cell : Option (RecordRow GoString)} (hcell : cells (op.scope, op.key) = cell) :
    CellsHeld (Function.update cells (op.scope, op.key) cell) items := by
  rw [← hcell, Function.update_eq_self]
  exact h

include hscope

/-- **A cell and its item written**, to a row and an item that holds it, or to nothing. -/
lemma write {cell : Option (RecordRow GoString)} {item : Option (Item GoString)}
    (hholds : Option.Rel goItemText.Holds item cell)
    (hcell : ∀ row, cell = some row → row.scope = op.scope ∧ row.key = op.key) {items' : Items GoString}
    (hitems : ∀ pk, items'.get pk = if pk = itemKey op then item else items.get pk) :
    CellsHeld (Function.update cells (op.scope, op.key) cell) items' := by
  constructor
  · intro scope key hs
    by_cases hsame : (scope, key) = (op.scope, op.key)
    · obtain ⟨rfl, rfl⟩ := Prod.mk.inj hsame
      have hpk : goItemText.itemKey op.scope op.key = itemKey op := rfl
      rw [Function.update_self, hitems, if_pos hpk]
      exact hholds
    · have hne : goItemText.itemKey scope key ≠ itemKey op := by
        intro heq
        obtain ⟨rfl, rfl⟩ := Separator.append_inj hs hscope heq
        exact hsame rfl
      rw [Function.update_of_ne hsame, hitems, if_neg hne]
      exact h.held scope key hs
  · intro scope key row hrow
    by_cases hsame : (scope, key) = (op.scope, op.key)
    · rw [hsame, Function.update_self] at hrow
      obtain ⟨rfl, rfl⟩ := Prod.mk.inj hsame
      exact hcell row hrow
    · rw [Function.update_of_ne hsame] at hrow
      exact h.keyed scope key row hrow

/-- The item that holds the row of a cell reads as the row. -/
lemma read {item : Item GoString} {row : RecordRow GoString} (hrow : cells (op.scope, op.key) = some row)
    (hitem : goItemText.Holds item row) : itemToRow item = some row := by
  refine itemToRow_of_holds hitem ?_
  rw [(h.keyed _ _ row hrow).1]
  exact hscope

/-- What an operation finds: nothing, or an item that reads as the row of the cell. -/
lemma found : (cells (op.scope, op.key) = none ∧ items.get (itemKey op) = none)
    ∨ ∃ row item, cells (op.scope, op.key) = some row ∧ items.get (itemKey op) = some item
      ∧ itemToRow item = some row := by
  have hheld : Option.Rel goItemText.Holds (items.get (itemKey op)) (cells (op.scope, op.key)) :=
    h.held op.scope op.key hscope
  cases hcell : cells (op.scope, op.key) with
  | none =>
      rw [hcell] at hheld
      generalize items.get (itemKey op) = old at hheld
      cases hheld
      exact Or.inl ⟨rfl, rfl⟩
  | some row =>
      obtain ⟨item, hget, hitem⟩ := ItemText.held_item hheld hcell
      exact Or.inr ⟨row, item, rfl, hget, h.read hscope hcell hitem⟩

end CellsHeld

/-! ## One request against the table -/

section

variable (json : MetaJson) {cells : Cells} {items : Items GoString} (h : CellsHeld cells items)

include h

/-- **The conditional write of `Begin`** settles it as the contract does, at the first attempt. -/
lemma CellsHeld.begin {op : Operation} (hscope : 0x1f ∉ op.scope) (opts : BeginOptions) (ttl : ℤ) :
    let out := updateItem items (itemKey op) (beginCondition op.fingerprint (ms opts.now))
      (beginUpdate op.fingerprint (ms opts.now) (ms (opts.now + opts.lease)) (ms (opts.now + opts.ttl)) ttl)
    let next := contractMachine json (.Begin op opts) cells
    DynamoDbStore.afterBegin json op opts (out.1.mapError .Service) = some next.1 ∧ CellsHeld next.2 out.2 := by
  intro out next
  have hcases := (rowModel GoString).begin_cases op.columns opts.columns (cells (op.scope, op.key))
  rcases ItemText.begin_request op.columns opts.columns (h.held op.scope op.key hscope) (h.keyed op.scope op.key) ttl with
    ⟨hclaim, item, hout, hitem⟩ | ⟨hclaim, item, row, hrow, hitem, hout⟩
  · have hout : out = (.ok item, items.set (itemKey op) item) := hout
    obtain ⟨-, hbegin⟩ := hcases.resolve_right (by
      rintro ⟨hrefused, -⟩
      rw [hclaim] at hrefused
      cases hrefused)
    have hnext : next = (.ok (.Acquired ((rowModel GoString).nextFence (cells (op.scope, op.key)))),
        Function.update cells (op.scope, op.key)
          (some (claimRow op.columns opts.columns ((rowModel GoString).nextFence (cells (op.scope, op.key)))))) := by
      simp only [next, contractMachine, hbegin]
      rfl
    rw [hout, hnext]
    refine ⟨?_, h.write hscope (Option.Rel.some hitem) ?_ fun pk => ?_⟩
    · simp [DynamoDbStore.afterBegin, Except.mapError, readNum, hitem.fence, claimRow]
    · rintro row ⟨⟩
      exact ⟨rfl, rfl⟩
    · rw [OrderedMap.get_set]
  · have hout : out = (.error (.ConditionalCheckFailed (some item)), items) := hout
    obtain ⟨row', hrow', hlive, hwhy⟩ := ClaimModel.not_claimable hclaim
    obtain rfl : row = row' := Option.some.inj (hrow.symm.trans hrow')
    obtain ⟨-, row', hcell, -, hbegin⟩ := hcases.resolve_left (by
      rintro ⟨hgranted, -⟩
      rw [hclaim] at hgranted
      cases hgranted)
    obtain rfl : row = row' := Option.some.inj (hrow.symm.trans hcell)
    have hnext : next = (.ok (shown json ((rowModel GoString).classify op.columns row)),
        Function.update cells (op.scope, op.key) (some row)) := by
      simp only [next, contractMachine, hbegin]
    rw [hout, hnext]
    refine ⟨?_, h.same hrow⟩
    -- no turn of the loop continues
    have hread := h.read hscope hrow hitem
    have hlive : ¬ row.expiresAt ≤ ms opts.now := not_le.mpr hlive
    simp only [Except.mapError, DynamoDbStore.afterBegin, DynamoDbStore.classify, hread, if_neg hlive,
      ClaimModel.classify, rowModel_fingerprint, rowModel_opFingerprint, rowModel_state, rowModel_leaseUntil]
    show _ = some (Except.ok (shown json (if row.fingerprint ≠ op.fingerprint then _ else _)))
    by_cases hfp : row.fingerprint = op.fingerprint
    · by_cases hst : row.state = .Completed
      · simp [hfp, hst, shown]
      · have hlease : row.leaseUntil > ms opts.now := by
          rcases hwhy with hne | hc | hlt
          · exact absurd hfp hne
          · exact absurd hc hst
          · exact hlt
        simp [hfp, hst, hlease, shown]
    · simp [hfp, shown]

/-- **The conditional write of `Complete`** settles it as the contract does. -/
lemma CellsHeld.complete {op : Operation} (hscope : 0x1f ∉ op.scope) (fence : ℤ) (result : StoredResult)
    {text : GoString} (hmeta : encodeMeta json result = .ok text) (now : ℤ) :
    let out := updateItem items (itemKey op) (completeCondition fence (ms now))
      (completeUpdate text result.omitted result.body)
    let next := contractMachine json (.Complete op fence result now) cells
    DynamoDbStore.afterComplete fence now (out.1.mapError .Service) = next.1 ∧ CellsHeld next.2 out.2 := by
  intro out next
  have hout : out = updateItem items (itemKey op) (goItemText.completeCondition fence (ms now))
      (goItemText.completeUpdate (result.columns text)) := by
    rw [StoredResult.columns, ← completeUpdate_eq]
    rfl
  have hnext : next = (.ok ((rowModel GoString).complete fence (result.columns text) (ms now) (cells (op.scope, op.key))).1,
      Function.update cells (op.scope, op.key)
        ((rowModel GoString).complete fence (result.columns text) (ms now) (cells (op.scope, op.key))).2) := by
    simp only [next, contractMachine, hmeta]
  rcases ItemText.complete_request (h.held op.scope op.key hscope) fence (ms now) (result.columns text) with
    ⟨row, item, hrow, hsel, hwrite, hitem⟩ | ⟨hnone, hwrite⟩
  · have hwrite : updateItem items (itemKey op) (goItemText.completeCondition fence (ms now))
        (goItemText.completeUpdate (result.columns text)) = (.ok item, items.set (itemKey op) item) := hwrite
    rw [hout, hwrite, hnext, hrow, rowModel_complete_written hsel]
    refine ⟨rfl, h.write hscope (Option.Rel.some hitem) ?_ fun pk => ?_⟩
    · rintro row' ⟨⟩
      exact h.keyed op.scope op.key row hrow
    · rw [OrderedMap.get_set]
  · have hwrite : updateItem items (itemKey op) (goItemText.completeCondition fence (ms now))
        (goItemText.completeUpdate (result.columns text))
        = (.error (.ConditionalCheckFailed (items.get (itemKey op))), items) := hwrite
    rw [hout, hwrite, hnext, rowModel_complete_refused hnone]
    refine ⟨?_, h.same rfl⟩
    rcases h.found hscope with ⟨hcell, hget⟩ | ⟨row, item, hcell, hget, hread⟩
    · rw [hget, hcell]
      rfl
    · rw [hget, hcell]
      simp only [Except.mapError, DynamoDbStore.afterComplete, hread, completeStatus]
      split_ifs <;> rfl

/-- **The conditional deletion of `Abandon`** settles it as the contract does. -/
lemma CellsHeld.abandon {op : Operation} (hscope : 0x1f ∉ op.scope) (fence : ℤ) :
    let out := deleteItem items (itemKey op) (some (abandonCondition fence))
    let next := contractMachine json (.Abandon op fence) cells
    DynamoDbStore.afterAbandon fence (out.1.mapError .Service) = next.1 ∧ CellsHeld next.2 out.2 := by
  intro out next
  have hnext : next = (.ok ((rowModel GoString).abandon fence (cells (op.scope, op.key))).1,
      Function.update cells (op.scope, op.key) ((rowModel GoString).abandon fence (cells (op.scope, op.key))).2) := rfl
  rcases ItemText.abandon_request (h.held op.scope op.key hscope) fence with ⟨row, hrow, hsel, hout⟩ | ⟨hnone, hout⟩
  · have hout : out = (.ok (), items.delete (itemKey op)) := hout
    rw [hout, hnext, hrow, rowModel_abandon_written hsel]
    refine ⟨rfl, h.write hscope Option.Rel.none ?_ fun pk => ?_⟩
    · rintro row' ⟨⟩
    · rw [OrderedMap.get_delete]
  · have hout : out = (.error (.ConditionalCheckFailed (items.get (itemKey op))), items) := hout
    rw [hout, hnext, rowModel_abandon_refused hnone]
    refine ⟨?_, h.same rfl⟩
    rcases h.found hscope with ⟨hcell, hget⟩ | ⟨row, item, hcell, hget, hread⟩
    · rw [hget, hcell]
      rfl
    · rw [hget, hcell]
      simp only [Except.mapError, DynamoDbStore.afterAbandon, hread, abandonStatus]
      split_ifs <;> rfl

/-- **`Get`** shows the live row of the cell. -/
lemma CellsHeld.get {op : Operation} (hscope : 0x1f ∉ op.scope) (now : ℤ) :
    DynamoDbStore.afterGet json now (.ok (getItem items (itemKey op)))
      = (contractMachine json (.Get op now) cells).1 := by
  rw [getItem, contractMachine]
  rcases h.found hscope with ⟨hcell, hget⟩ | ⟨row, item, hcell, hget, hread⟩
  · rw [hget, hcell]
    rfl
  · rw [hget, hcell]
    simp only [DynamoDbStore.afterGet, hread, ClaimModel.live, rowModel_expiresAt]
    by_cases hlive : ms now < row.expiresAt
    · simp [hlive, Option.filter]
    · simp [hlive, Option.filter]

/-- **A removal** empties the cell. -/
lemma CellsHeld.physicallyRemove {op : Operation} (hscope : 0x1f ∉ op.scope) :
    CellsHeld (contractMachine json (.PhysicallyRemove op) cells).2 (deleteItem items (itemKey op) none).2 := by
  refine h.write hscope Option.Rel.none ?_ fun pk => ?_
  · rintro row ⟨⟩
  · exact OrderedMap.get_delete ..

end

/-! ## Calls -/

/-- The calls the comparison is about: a scope without the separator, a body that fits or is omitted, and
metadata that encodes. -/
def ContractCall (json : MetaJson) : StoreCall Operation BeginOptions StoredResult → Prop
  | .Begin op _ => 0x1f ∉ op.scope
  | .Complete op _ result _ => 0x1f ∉ op.scope
      ∧ (result.omitted = true ∨ (result.body.getD []).length ≤ maxResultBytes)
      ∧ ∃ text, encodeMeta json result = .ok text
  | .Abandon op _ => 0x1f ∉ op.scope
  | .Get op _ => 0x1f ∉ op.scope
  | .Purge _ => False
  | .PhysicallyRemove op => 0x1f ∉ op.scope

/-- The table and its requests, against the contract. -/
def dynamoService (json : MetaJson) : Service DynamoCommand DynamoReply (StoreCall Operation BeginOptions StoredResult)
    (fun c => Except DynamoError (StoreReply Record c)) (Items GoString) Cells where
  isRequest
    | .TimeNow => false
    | _ => true
  serves := DynamoCommand.Serves
  machine := contractMachine json
  mirrors := CellsHeld
  Seen _ := True

/-- **Every call is served by one request**, and returns what the contract says. -/
lemma awaits_program {json : MetaJson} (s : DynamoDbStore) {c : StoreCall Operation BeginOptions StoredResult}
    (hc : ContractCall json c) : (dynamoService json).Awaits c (s.program json c >>= fun r => Prog.Ret ⟨c, r⟩) := by
  have hreturns {r r' : Except DynamoError (StoreReply Record c)} (h : r = r') :
      (Prog.Ret ⟨c, r⟩ : DynamoProg DynamoResult) = Prog.Ret ⟨c, r'⟩ := by rw [h]
  cases c with
  | Begin op opts =>
      show (dynamoService json).Awaits _ (Prog.retry (s.beginAttempt json op opts) _ 3 >>= _)
      rw [Prog.retry]
      refine .idle rfl (fun items wall items' hserves => ⟨trivial, hserves⟩) fun wall => ?_
      refine .request rfl fun cells items reply items' hcells hserves => ?_
      obtain ⟨rfl, rfl⟩ := hserves
      obtain ⟨hsettled, hnext⟩ := CellsHeld.begin json hcells hc opts
        ((wall + wrapInt (opts.ttl + s.grace)) / 1000000000)
      refine ⟨trivial, ?_, hnext⟩
      simp only [Prog.bind, Prog.pure_eq, hsettled]
      rfl
  | Complete op fence result now =>
      obtain ⟨hscope, hfits, text, hmeta⟩ := hc
      have hlarge : (!result.omitted && decide (maxResultBytes < (result.body.getD []).length)) = false := by
        rcases hfits with homitted | hlength
        · simp [homitted]
        · simp [hlength]
      simp only [DynamoDbStore.program, DynamoDbStore.complete, hlarge, hmeta, Bool.false_eq_true, if_false]
      refine .request rfl fun cells items reply items' hcells hserves => ?_
      obtain ⟨rfl, rfl⟩ := hserves
      obtain ⟨hsettled, hnext⟩ := CellsHeld.complete json hcells hscope fence result hmeta now
      exact ⟨trivial, hreturns hsettled, hnext⟩
  | Abandon op fence =>
      refine .request rfl fun cells items reply items' hcells hserves => ?_
      obtain ⟨rfl, rfl⟩ := hserves
      obtain ⟨hsettled, hnext⟩ := CellsHeld.abandon json hcells hc fence
      exact ⟨trivial, hreturns hsettled, hnext⟩
  | Get op now =>
      refine .request rfl fun cells items reply items' hcells hserves => ?_
      obtain ⟨rfl, rfl⟩ := hserves
      exact ⟨trivial, hreturns (CellsHeld.get json hcells hc now), hcells⟩
  | Purge now => exact hc.elim
  | PhysicallyRemove op =>
      refine .request rfl fun cells items reply items' hcells hserves => ?_
      obtain ⟨rfl, rfl⟩ := hserves
      exact ⟨trivial, rfl, CellsHeld.physicallyRemove json hcells hc⟩

/-! ## Interleavings -/

variable {ι : Type} [DecidableEq ι]

/-- **The Go DynamoDB store keeps the contract.**  In every interleaving of such calls over a table that is
empty at first: the table serves each call once, a call that was served has returned what the contract says
of the same calls in the order of service, and no call returns before.  So a `Begin` settles at its first
attempt, whatever the clock of the native deadline shows. -/
theorem dynamodb_store_keeps_contract (json : MetaJson) (s : DynamoDbStore)
    (calls : ι → StoreCall Operation BeginOptions StoredResult) (hcalls : ∀ i, ContractCall json (calls i))
    (cfg : Config ι DynamoCommand DynamoReply DynamoResult (Items GoString))
    (h : Interleave (fun _ _ _ => True) (dynamoService json).obj Table.empty (poolOf (s.program json) calls) cfg) :
    ((dynamoService json).servedBy cfg.history).Nodup
      ∧ ((dynamoService json).servedBy cfg.history).map cfg.pool
        = (replies (contractMachine json) (((dynamoService json).servedBy cfg.history).map calls)
            fun _ => none).map Prog.Ret
      ∧ ∀ i ∉ (dynamoService json).servedBy cfg.history, ∀ r, cfg.pool i ≠ Prog.Ret r := by
  have hempty : (dynamoService json).mirrors (fun _ => none) Table.empty := cellsHeld_empty
  have hstep := Service.inStep_of_interleave hempty (fun i => awaits_program s (hcalls i)) h
  refine ⟨hstep.nodup, hstep.returned, fun i hi r hr => ?_⟩
  have hawaits := hstep.awaits i hi
  rw [hr] at hawaits
  exact hawaits.not_ret

/-- The two calls of one key and two payloads keep the contract. -/
example : Interleave (fun _ _ _ => True) (dynamoService metaJson).obj Table.empty
      (poolOf ((DynamoDbStore.new 0).program metaJson) (reusedCalls ⟨ascii "orders", ascii "k1", ascii "p"⟩))
      (reusedRun ⟨ascii "orders", ascii "k1", ascii "p"⟩)
    ∧ ∀ i, ContractCall metaJson (reusedCalls ⟨ascii "orders", ascii "k1", ascii "p"⟩ i) := by
  refine ⟨Interleave.start.schedule (fun items i c => ?_) [0, 0, 1, 1], fun i => ?_⟩
  · cases c with
    | TimeNow => exact rfl
    | UpdateItem pk cond update => exact ⟨rfl, rfl⟩
    | DeleteItem pk cond => exact ⟨rfl, rfl⟩
    | GetItem pk => exact ⟨rfl, rfl⟩
  · match i with
    | 0 => exact (by decide : (0x1f : UInt8) ∉ ascii "orders")
    | _ + 1 => exact (by decide : (0x1f : UInt8) ∉ ascii "orders")

end Anyonce.Go
