import Anyonce.Core.Separator
import Anyonce.Core.Served
import Anyonce.DynamoDb.Contract
import Anyonce.DynamoDb.Store
import Anyonce.Store.Mirror

/-!
# The DynamoDB store refines the memory store

Each call sends at most one request that touches the table, so the order in which the requests are
served is an order of the calls.  The expressions are those of `ItemText`, and a request answered against
a table in step with the memory store settles its call as the memory store would.

* `DynamoMirrors` — the table is in step with the memory store.
* `awaits_program` — every call is served by one request.
* `dynamodb_store_refines_memory` — the theorem about every interleaving.
-/

namespace Anyonce

open Interaction Relational

/-! ## Items and rows -/

/-- The texts of the items. -/
def jsItemText : ItemText UInt16 where
  separator := 0x1f
  state := stateText
  state_ne := by decide

/-- The attributes of an item that holds a row. -/
abbrev ItemHolds (item : Item JsString) (row : RecordRow JsString) : Prop := jsItemText.Holds item row

/-- **The item key splits back**, for a scope without the separator. -/
lemma splitItemKey_itemKey {op : Operation} (hscope : 0x1f ∉ op.scope) :
    splitItemKey (itemKey op) = (op.scope, op.key) := by
  rw [splitItemKey]
  exact Separator.splitFirst_append hscope op.key

/-- **`itemToRow` reads the row back.** -/
lemma itemToRow_of_holds {item : Item JsString} {row : RecordRow JsString} (h : ItemHolds item row)
    (hscope : 0x1f ∉ row.scope) : itemToRow item = some row := by
  have hsplit : splitItemKey (row.scope ++ jsItemText.separator :: row.key) = (row.scope, row.key) := by
    have hop : 0x1f ∉ (⟨row.scope, row.key, []⟩ : Operation).scope := hscope
    exact splitItemKey_itemKey hop
  have hmeta : item.text .ResultMeta = row.resultMeta := by
    rw [Item.text, h.resultMeta]
    cases row.resultMeta <;> rfl
  have hbody : item.bytes .ResultBody = row.resultBody := by
    rw [Item.bytes, h.resultBody]
    cases row.resultBody <;> rfl
  have hstate : item.state = some row.state := by
    rw [Item.state, Item.text, h.state]
    exact stateOfText_stateText row.state
  rw [itemToRow, hmeta, hbody, hstate]
  simp only [Item.text, Item.number, h.pk, h.fingerprint, h.fence, h.leaseUntil, h.createdAt,
    h.expiresAt, h.resultOmitted, Option.getD_some, hsplit]
  rfl

/-! ## The expressions are those of the contract -/

section

variable {old : Option (Item JsString)} {found : Option (RecordRow JsString)}

/-- **`BEGIN_CONDITION`** holds of the claimable rows. -/
lemma beginCondition_holds (h : Option.Rel ItemHolds old found) (op : Operation)
    (opts : BeginOptions) :
    (beginCondition op.fingerprint opts.now).holds (old.getD Item.absent)
      = (rowModel JsString).claimable op.columns opts.columns found :=
  ItemText.beginCondition_holds h op.columns opts.columns

/-- **`COMPLETE_CONDITION`** holds of the live rows in flight under the fence. -/
lemma completeCondition_holds (h : Option.Rel ItemHolds old found) (fence now : ℤ) :
    (completeCondition fence now).holds (old.getD Item.absent)
      = found.any (RecordRow.completable fence now) :=
  ItemText.completeCondition_holds h fence now

/-- The update of `complete` writes the columns of the result. -/
lemma completeUpdate_eq (result : Completion) :
    completeUpdate (encodeResultMeta result) result.isOmitted result.storedBody
      = jsItemText.completeUpdate result.columns := by
  cases result <;> rfl

/-- The update of `complete` leaves the completed row. -/
lemma completeUpdate_apply {item : Item JsString} {row : RecordRow JsString} (h : ItemHolds item row)
    (pk : JsString) (result : Completion) :
    ∃ item', (completeUpdate (encodeResultMeta result) result.isOmitted result.storedBody).apply pk
        (some item) = some item' ∧ ItemHolds item' (completedRow result.columns row) := by
  rw [completeUpdate_eq]
  exact ItemText.completeUpdate_apply h pk result.columns

end

/-! ## One request against the table -/

/-- An operation of the comparison: a scope without the unit separator, a key without separators. -/
def Addressable (op : Operation) : Prop := 0x1f ∉ op.scope ∧ Separated op.key

instance (op : Operation) : Decidable (Addressable op) := inferInstanceAs (Decidable (_ ∧ _))

lemma addressing_itemKey : Addressing Addressable itemKey where
  keyClean _ h := h.2.1
  congr op op' hscope hkey := by rw [itemKey, itemKey, hscope, hkey]
  inj _ _ h h' heq := append_separator_inj h.2.2 h'.2.2 heq

/-- Each item holds the row of the record at the same operation. -/
abbrev DynamoMirrors (m : MemoryStore) (items : Items JsString) : Prop :=
  CellMirrors Addressable itemKey ItemHolds m items.get

namespace DynamoMirrors

variable {m : MemoryStore} {items : Items JsString} (h : DynamoMirrors m items) {X : Type}

include h

/-- The item of a record reads as its row, and the row as the record. -/
lemma read {op : Operation} (hop : Addressable op) {record : IdempotencyRecord}
    (hcell : m.cell op = some record) {item : Item JsString}
    (hitem : ItemHolds item (recordToRow record)) :
    itemToRow item = some (recordToRow record)
      ∧ readItem (X := X) (recordToRow record) = .ok record := by
  obtain ⟨hscope, -⟩ := h.keyed op record hop hcell
  refine ⟨itemToRow_of_holds hitem ?_, ?_⟩
  · show 0x1f ∉ record.scope
    rw [hscope]
    exact hop.1
  · rw [readItem, rowToRecord_recordToRow (h.storable op record hop hcell)]

omit h in
/-- A refused row is classified at once: no turn of the loop continues. -/
lemma classify {op : Operation} {opts : BeginOptions} {record : IdempotencyRecord}
    {item : Item JsString} (hrow : itemToRow item = some (recordToRow record))
    (hread : readItem (X := X) (recordToRow record) = .ok record)
    (hrefused : (rowModel JsString).claimable op.columns opts.columns (some (recordToRow record))
      = false) :
    DynamoDbStore.classify (X := X) op opts item = some (.ok (memoryModel.classify op record)) := by
  obtain ⟨row, hsome, hlive, hwhy⟩ := ClaimModel.not_claimable hrefused
  obtain rfl : recordToRow record = row := Option.some.inj hsome
  have hlive : ¬ (recordToRow record).expiresAt ≤ opts.now := not_le.mpr hlive
  rw [DynamoDbStore.classify, hrow]
  simp only [if_neg hlive, hread, ClaimModel.classify]
  show (if record.fingerprint ≠ op.fingerprint then _ else if record.state = .Completed then _
    else if record.leaseUntil > opts.now then _ else _) = some (Except.ok (if record.fingerprint
      ≠ op.fingerprint then _ else if record.state = .Completed then _ else _))
  by_cases hfp : record.fingerprint = op.fingerprint
  · by_cases hst : record.state = .Completed
    · simp [hfp, hst]
    · have hlease : record.leaseUntil > opts.now := by
        rcases hwhy with hne | hc | hlt
        · exact absurd hfp hne
        · exact absurd hc hst
        · exact hlt
      simp [hfp, hst, hlease, recordToRow]
  · simp [hfp]

/-- **The conditional write of `begin`** settles it as the memory store does, at the first attempt. -/
lemma begin {op : Operation} (hop : Addressable op) (opts : BeginOptions) (ttl : ℤ) :
    let out := updateItem items (itemKey op) (beginCondition op.fingerprint opts.now)
      (beginUpdate op.fingerprint opts.now (opts.now + opts.leaseMs) (opts.now + opts.ttlMs) ttl)
    DynamoDbStore.afterBegin (X := X) op opts (out.1.mapError .Service)
        = some (.ok (m.begin op opts).1)
      ∧ DynamoMirrors (m.begin op opts).2 out.2 := by
  intro out
  rcases ItemText.begin_request op.columns opts.columns (h.cells op hop) (fun _ => h.row_keyed hop) ttl with
    ⟨hclaim, item, hout, hitem⟩ | ⟨hclaim, item, row, hrow, hitem, hout⟩
  · have hout : out = (.ok item, items.set (itemKey op) item) := hout
    obtain ⟨-, hm⟩ := (m.begin_row op opts).resolve_right (by
      rintro ⟨record, hrecord, hrefused, -⟩
      rw [MemoryStore.rowAt, hrecord, Option.map_some, hrefused] at hclaim
      cases hclaim)
    rw [hout, hm]
    refine ⟨?_, ?_⟩
    · simp [DynamoDbStore.afterBegin, Except.mapError, Item.number, hitem.fence, claimRow]
    · refine h.write addressing_itemKey hop (Option.Rel.some hitem) ?_ fun k => ?_
      · rintro record ⟨⟩
        exact ⟨⟨rfl, rfl⟩, by rintro ⟨⟩, fun _ => ⟨rfl, rfl⟩⟩
      · rw [OrderedMap.get_set]
  · have hout : out = (.error (.ConditionalCheckFailed (some item)), items) := hout
    obtain ⟨record, hrecord, hrefused, hm⟩ := (m.begin_row op opts).resolve_left (by
      rintro ⟨hclaimed, -⟩
      rw [hclaim] at hclaimed
      cases hclaimed)
    obtain rfl : recordToRow record = row := by simpa [MemoryStore.rowAt, hrecord] using hrow
    rw [hout, hm]
    obtain ⟨hread, hrecordOf⟩ := h.read (X := X) hop hrecord hitem
    exact ⟨classify hread hrecordOf hrefused, h⟩

/-- **The conditional write of `complete`** settles it as the memory store does. -/
lemma complete {op : Operation} (hop : Addressable op) (fence : ℤ) (result : Completion) (now : ℤ) :
    let out := updateItem items (itemKey op) (completeCondition fence now)
      (completeUpdate (encodeResultMeta result) result.isOmitted result.storedBody)
    DynamoDbStore.afterComplete (X := X) fence now (out.1.mapError .Service)
        = .ok (m.complete op fence result now).1
      ∧ DynamoMirrors (m.complete op fence result now).2 out.2 := by
  intro out
  have hcell := h.cells op hop
  have hstatement : out = updateItem items (itemKey op) (jsItemText.completeCondition fence now)
      (jsItemText.completeUpdate result.columns) := by rw [← completeUpdate_eq]; rfl
  rcases ItemText.complete_request hcell fence now result.columns with
    ⟨row, item, hrow, hsel, hout, hitem⟩ | ⟨hnone, hout⟩
  · obtain ⟨record, hrecord, hstate, -, hm⟩ := (m.complete_row op fence result now).resolve_right fun ⟨hno, _⟩ => by
      rw [hrow, Option.filter_some, if_pos hsel] at hno
      cases hno
    obtain rfl : recordToRow record = row := by simpa [MemoryStore.rowAt, hrecord] using hrow
    have hst := h.storable op record hop hrecord
    rw [completedRow_recordToRow hst hstate] at hitem
    rw [hstatement, hout, hm]
    refine ⟨rfl, h.write addressing_itemKey hop (Option.Rel.some hitem) ?_ fun k => ?_⟩
    · rintro _ ⟨⟩
      refine ⟨?_, storable_storeCompletion hst result⟩
      cases result <;> exact h.keyed op record hop hrecord
    · rw [OrderedMap.get_set]
  · obtain ⟨-, hm⟩ := (m.complete_row op fence result now).resolve_left fun ⟨record, hrecord, _, hsel, _⟩ => by
      rw [MemoryStore.rowAt, hrecord, Option.map_some, Option.any_some, hsel] at hnone
      cases hnone
    rw [hstatement, hout, hm]
    refine ⟨?_, h⟩
    cases hrecord : m.cell op with
    | none =>
        rw [MemoryStore.rowAt, hrecord] at hcell
        generalize items.get (itemKey op) = old at hcell
        cases hcell
        simp [DynamoDbStore.afterComplete, Except.mapError, MemoryStore.rowAt, hrecord,
          completeStatus]
    | some record =>
        rw [MemoryStore.rowAt, hrecord, Option.map_some] at hcell
        generalize items.get (itemKey op) = old at hcell
        cases hcell with
        | some hitem =>
            obtain ⟨hrow, -⟩ := h.read (X := X) hop hrecord hitem
            simp only [Except.mapError, DynamoDbStore.afterComplete, hrow, MemoryStore.rowAt,
              hrecord, Option.map_some, completeStatus]
            split_ifs <;> rfl

/-- **The conditional deletion of `abandon`** settles it as the memory store does, and a deletion that
is refused never meets a row in flight under its fence. -/
lemma abandon {op : Operation} (hop : Addressable op) (fence : ℤ) :
    let out := deleteItem items (itemKey op) (some (abandonCondition fence))
    DynamoDbStore.afterAbandon (X := X) fence (out.1.mapError .Service)
        = .ok (m.abandon op fence).1
      ∧ DynamoMirrors (m.abandon op fence).2 out.2
      ∧ ∀ item, out.1 = .error (.ConditionalCheckFailed (some item)) →
        ∀ row, itemToRow item = some row → ¬ (row.state = .InFlight ∧ row.fence = fence) := by
  intro out
  have hcell := h.cells op hop
  rcases ItemText.abandon_request hcell fence with ⟨row, hrow, hsel, hout⟩ | ⟨hnone, hout⟩
  · have hout : out = (.ok (), items.delete (itemKey op)) := hout
    obtain ⟨record, hrecord, -, hm⟩ := (m.abandon_row op fence).resolve_right fun ⟨hno, _⟩ => by
      rw [hrow, Option.filter_some, if_pos hsel] at hno
      cases hno
    rw [hout, hm]
    refine ⟨rfl, h.write addressing_itemKey hop Option.Rel.none ?_ fun k => ?_, by rintro item ⟨⟩⟩
    · rintro record ⟨⟩
    · rw [OrderedMap.get_delete]
  · have hout : out = (.error (.ConditionalCheckFailed (items.get (itemKey op))), items) := hout
    obtain ⟨-, hm⟩ := (m.abandon_row op fence).resolve_left fun ⟨record, hrecord, hsel, _⟩ => by
      rw [MemoryStore.rowAt, hrecord, Option.map_some, Option.any_some, hsel] at hnone
      cases hnone
    rw [hout, hm]
    cases hrecord : m.cell op with
    | none =>
        rw [MemoryStore.rowAt, hrecord] at hcell
        generalize items.get (itemKey op) = old at hcell
        cases hcell
        refine ⟨?_, h, by rintro item ⟨⟩⟩
        simp [DynamoDbStore.afterAbandon, Except.mapError, MemoryStore.rowAt, hrecord,
          abandonStatus]
    | some record =>
        rw [MemoryStore.rowAt, hrecord, Option.map_some] at hcell hnone
        generalize items.get (itemKey op) = old at hcell
        cases hcell with
        | some hitem =>
            obtain ⟨hrow, -⟩ := h.read (X := X) hop hrecord hitem
            refine ⟨?_, h, ?_⟩
            · simp only [Except.mapError, DynamoDbStore.afterAbandon, hrow, MemoryStore.rowAt,
                hrecord, Option.map_some, abandonStatus]
              split_ifs <;> rfl
            · rintro item ⟨⟩ row hrow' ⟨hstate, hfence⟩
              obtain rfl : recordToRow record = row := Option.some.inj (hrow.symm.trans hrow')
              simp [RecordRow.abandonable, hstate, hfence] at hnone

/-- **`get`** shows the record the memory store shows. -/
lemma get {op : Operation} (hop : Addressable op) (now : ℤ) :
    DynamoDbStore.afterGet (X := X) now (.ok (getItem items (itemKey op))) = .ok (m.get op now) := by
  have hcell := h.cells op hop
  rw [getItem, m.get_eq]
  cases hrecord : m.cell op with
  | none =>
      rw [MemoryStore.rowAt, hrecord] at hcell
      generalize items.get (itemKey op) = old at hcell
      cases hcell
      rfl
  | some record =>
      rw [MemoryStore.rowAt, hrecord, Option.map_some] at hcell
      generalize items.get (itemKey op) = old at hcell
      cases hcell with
      | some hitem =>
          obtain ⟨hrow, hread⟩ := h.read (X := X) hop hrecord hitem
          simp only [DynamoDbStore.afterGet, hrow, hread, recordToRow_expiresAt]
          by_cases hlive : now < record.expiresAt
          · simp [hlive, ClaimModel.live, Option.filter, Except.map]
          · simp [hlive, ClaimModel.live, Option.filter]

/-- **A removal** removes the record. -/
lemma physicallyRemove {op : Operation} (hop : Addressable op) :
    (deleteItem items (itemKey op) none).1 = .ok ()
      ∧ DynamoMirrors (m.physicallyRemove op) (deleteItem items (itemKey op) none).2 := by
  refine ⟨rfl, ?_⟩
  have hgone : DynamoMirrors (m.withCell op none) (items.delete (itemKey op)) := by
    refine h.write addressing_itemKey hop Option.Rel.none ?_ fun k => ?_
    · rintro record ⟨⟩
    · rw [OrderedMap.get_delete]
  exact hgone

end DynamoMirrors

/-! ## Calls -/

/-- The calls the comparison is about: an operation with an address, and a body that fits.  A purge is
left to the native TTL. -/
def StoreCall.DynamoCall : StoreCall Operation BeginOptions Completion → Prop
  | .Begin op _ => Addressable op
  | .Complete op _ result _ =>
      Addressable op ∧ (result.storedBody.getD []).length ≤ dynamodbMaxResultBytes
  | .Abandon op _ => Addressable op
  | .Get op _ => Addressable op
  | .Purge _ => False
  | .PhysicallyRemove op => Addressable op

instance : DecidablePred StoreCall.DynamoCall
  | .Begin op _ => inferInstanceAs (Decidable (Addressable op))
  | .Complete op _ result _ => inferInstanceAs (Decidable
      (Addressable op ∧ (result.storedBody.getD []).length ≤ dynamodbMaxResultBytes))
  | .Abandon op _ => inferInstanceAs (Decidable (Addressable op))
  | .Get op _ => inferInstanceAs (Decidable (Addressable op))
  | .Purge _ => inferInstanceAs (Decidable False)
  | .PhysicallyRemove op => inferInstanceAs (Decidable (Addressable op))

section

variable {X : Type}

/-- The table answers a request; the wall clock may show anything. -/
def DynamoCommand.Serves (items : Items JsString) :
    (c : DynamoCommand) → DynamoReply X c → Items JsString → Prop
  | .DateNow, _, items' => items' = items
  | .UpdateItem pk cond update, reply, items' =>
      reply = (updateItem items pk cond update).1.mapError .Service
        ∧ items' = (updateItem items pk cond update).2
  | .DeleteItem pk cond, reply, items' =>
      reply = (deleteItem items pk cond).1.mapError .Service ∧ items' = (deleteItem items pk cond).2
  | .GetItem pk, reply, items' => reply = .ok (getItem items pk) ∧ items' = items

/-- The table shared by callers `ι`. -/
def dynamoObj {ι : Type} (items : Items JsString) (p : ι × DynamoCommand)
    (reply : Tagged ι (DynamoReply X) p) (items' : Items JsString) : Prop :=
  p.2.Serves items reply items'

/-- A request that goes to the table. -/
def DynamoCommand.isRequest : DynamoCommand → Bool
  | .DateNow => false
  | _ => true

/-- What a call of the store returns. -/
abbrev DynamoResult (X : Type) : Type :=
  (c : StoreCall Operation BeginOptions Completion) ×
    Except (DynamoFailure X) (StoreReply IdempotencyRecord c)

/-- A deletion that was refused does not meet a row in flight under its fence. -/
def AbandonClassified (ev : Event DynamoCommand (DynamoReply X)) : Prop :=
  ∀ pk fence item,
    ev = ⟨.DeleteItem pk (some (abandonCondition fence)),
      .error (.Service (.ConditionalCheckFailed (some item)))⟩ →
    ∀ row, itemToRow item = some row → ¬ (row.state = .InFlight ∧ row.fence = fence)

/-- Only a conditional deletion says anything about an `abandon`. -/
lemma abandonClassified_update {pk : JsString} {cond : Condition JsString} {u : Update JsString}
    (reply : DynamoReply X (.UpdateItem pk cond u)) :
    AbandonClassified (X := X) ⟨.UpdateItem pk cond u, reply⟩ := by
  rintro _ _ _ ⟨⟩

variable (X) in
/-- The table and its requests, against the memory store. -/
def dynamoService : Service DynamoCommand (DynamoReply X) (StoreCall Operation BeginOptions Completion)
    (fun c => Except (DynamoFailure X) (StoreReply IdempotencyRecord c)) (Items JsString) MemoryStore where
  isRequest := DynamoCommand.isRequest
  serves := DynamoCommand.Serves
  machine := memoryMachine
  mirrors := DynamoMirrors
  Seen := AbandonClassified

/-- A call that returns a value equal to another one. -/
lemma returns {c : StoreCall Operation BeginOptions Completion}
    {r r' : Except (DynamoFailure X) (StoreReply IdempotencyRecord c)} (h : r = r') :
    (Prog.Ret ⟨c, r⟩ : DynamoProg X (DynamoResult X)) = Prog.Ret ⟨c, r'⟩ := by
  rw [h]

/-- **Every call is served by one request**, and returns what the memory store returns. -/
lemma awaits_program (store : DynamoDbStore) {c : StoreCall Operation BeginOptions Completion} (hc : c.DynamoCall) :
    (dynamoService X).Awaits c (store.program c >>= fun r => Prog.Ret ⟨c, r⟩) := by
  cases c with
  | Begin op opts =>
      show (dynamoService X).Awaits _ (Prog.retry (store.beginAttempt op opts) _ 3 >>= _)
      rw [Prog.retry]
      refine .idle rfl (fun items wall items' hserves => ⟨by rintro _ _ _ ⟨⟩, hserves⟩) fun wall => ?_
      refine .request rfl fun m items reply items' hm hserves => ?_
      obtain ⟨rfl, rfl⟩ := hserves
      obtain ⟨hsettled, hnext⟩ := DynamoMirrors.begin (X := X) hm hc opts ((wall + opts.ttlMs + store.grace) / 1000)
      refine ⟨abandonClassified_update _, ?_, hnext⟩
      simp only [Prog.bind, Prog.pure_eq, hsettled]
      rfl
  | Complete op fence result now =>
      have hfits : ¬ dynamodbMaxResultBytes < (result.storedBody.getD []).length := Nat.not_lt.mpr hc.2
      rw [DynamoDbStore.program, DynamoDbStore.complete, if_neg hfits]
      refine .request rfl fun m items reply items' hm hserves => ?_
      obtain ⟨rfl, rfl⟩ := hserves
      obtain ⟨hsettled, hnext⟩ := DynamoMirrors.complete (X := X) hm hc.1 fence result now
      exact ⟨abandonClassified_update _, returns hsettled, hnext⟩
  | Abandon op fence =>
      refine .request rfl fun m items reply items' hm hserves => ?_
      obtain ⟨rfl, rfl⟩ := hserves
      obtain ⟨hsettled, hnext, hrefused⟩ := DynamoMirrors.abandon (X := X) hm hc fence
      refine ⟨?_, returns hsettled, hnext⟩
      intro pk fence' item hev
      obtain ⟨hcmd, hreply⟩ := Sigma.mk.inj hev
      obtain ⟨rfl, hcond⟩ := DynamoCommand.DeleteItem.inj hcmd
      obtain rfl : fence = fence' := by simpa [abandonCondition] using hcond
      refine hrefused item ?_
      have hreply := eq_of_heq hreply
      cases hout : (deleteItem items (itemKey op) (some (abandonCondition fence))).1 with
      | ok _ =>
          rw [hout] at hreply
          cases hreply
      | error err =>
          rw [hout] at hreply
          cases hreply
          rfl
  | Get op now =>
      refine .request rfl fun m items reply items' hm hserves => ?_
      obtain ⟨rfl, rfl⟩ := hserves
      exact ⟨by rintro _ _ _ ⟨⟩, returns (DynamoMirrors.get hm hc now), hm⟩
  | Purge now => exact hc.elim
  | PhysicallyRemove op =>
      refine .request rfl fun m items reply items' hm hserves => ?_
      obtain ⟨rfl, rfl⟩ := hserves
      refine ⟨?_, rfl, (DynamoMirrors.physicallyRemove hm hc).2⟩
      intro pk fence item hev
      obtain ⟨-, hcond⟩ := DynamoCommand.DeleteItem.inj (Sigma.mk.inj hev).1
      cases hcond

/-! ## Interleavings -/

variable {ι : Type}

/-- The callers whose requests the table has served, in the order in which it served them. -/
def servedBy (h : List (Entry (ι × DynamoCommand) (Tagged ι (DynamoReply X)) (Items JsString))) :
    List ι :=
  h.filterMap fun e => if e.cmd.2.isRequest then some e.cmd.1 else none

variable [DecidableEq ι]

/-- **The DynamoDB store refines the memory store.**  In every interleaving of calls whose scopes have
no unit separator, whose keys have no separators and whose bodies fit, over a table that is empty at
first: the table serves each call once, a call that was served has returned what the memory store
returns to the same calls in the order of service, and no call returns before.  So a `begin` settles
at its first attempt.  And no refused `abandon` meets a row in flight under its own fence. -/
theorem dynamodb_store_refines_memory (store : DynamoDbStore)
    (calls : ι → StoreCall Operation BeginOptions Completion) (hcalls : ∀ i, (calls i).DynamoCall)
    (cfg : Config ι DynamoCommand (DynamoReply X) (DynamoResult X) (Items JsString))
    (h : Interleave (fun _ _ _ => True) dynamoObj Table.empty (poolOf store.program calls) cfg) :
    (servedBy cfg.history).Nodup
      ∧ (servedBy cfg.history).map cfg.pool
        = (replies memoryMachine ((servedBy cfg.history).map calls) MemoryStore.empty).map Prog.Ret
      ∧ (∀ i ∉ servedBy cfg.history, ∀ r, cfg.pool i ≠ Prog.Ret r)
      ∧ ∀ e ∈ cfg.history, AbandonClassified e.event := by
  have hempty : (dynamoService X).mirrors MemoryStore.empty Table.empty := cellMirrors_empty
  have hstep := Service.inStep_of_interleave hempty (fun i => awaits_program store (hcalls i)) h
  refine ⟨hstep.nodup, hstep.returned, fun i hi r hr => ?_, hstep.seen⟩
  have hawaits := hstep.awaits i hi
  rw [hr] at hawaits
  exact hawaits.not_ret

end

/-- The table that answers every request, under a wall clock that stands still. -/
def dynamoMachine (wall : ℤ) : (c : DynamoCommand) → Items JsString →
    DynamoReply Unit c × Items JsString
  | .DateNow, items => (wall, items)
  | .UpdateItem pk cond update, items =>
      ((updateItem items pk cond update).1.mapError .Service, (updateItem items pk cond update).2)
  | .DeleteItem pk cond, items =>
      ((deleteItem items pk cond).1.mapError .Service, (deleteItem items pk cond).2)
  | .GetItem pk, items => (.ok (getItem items pk), items)

lemma dynamoObj_dynamoMachine {ι : Type} (wall : ℤ) (items : Items JsString) (i : ι)
    (c : DynamoCommand) :
    dynamoObj items (i, c) (dynamoMachine wall c items).1 (dynamoMachine wall c items).2 := by
  cases c with
  | DateNow => exact rfl
  | UpdateItem pk cond update => exact ⟨rfl, rfl⟩
  | DeleteItem pk cond => exact ⟨rfl, rfl⟩
  | GetItem pk => exact ⟨rfl, rfl⟩

/-- Two claims of one key, a lapsed lease taken over, and the first holder too late. -/
def contendedCalls : ℕ → StoreCall Operation BeginOptions Completion
  | 0 => .Begin raceOp ⟨10, 100, 0⟩
  | 1 => .Begin raceOp ⟨10, 100, 5⟩
  | 2 => .Begin raceOp ⟨10, 100, 10⟩
  | _ => .Abandon raceOp 1

/-- The second claim reads the clock before the first is served, and is served after it. -/
def contendedRun : Config ℕ DynamoCommand (DynamoReply Unit) (DynamoResult Unit) (Items JsString) :=
  Config.schedule (dynamoMachine 7) ⟨Table.empty, poolOf (DynamoDbStore.program {}) contendedCalls, []⟩
    [1, 0, 0, 1, 2, 2, 3]

theorem dynamodb_store_refines_memory_contended :
    contendedRun.pool 0 = Prog.Ret ⟨.Begin raceOp ⟨10, 100, 0⟩, .ok (.Acquired 1)⟩
      ∧ contendedRun.pool 1 = Prog.Ret ⟨.Begin raceOp ⟨10, 100, 5⟩, .ok (.InFlight 10)⟩
      ∧ contendedRun.pool 2 = Prog.Ret ⟨.Begin raceOp ⟨10, 100, 10⟩, .ok (.Acquired 2)⟩
      ∧ contendedRun.pool 3 = Prog.Ret ⟨.Abandon raceOp 1, .ok .StaleFence⟩ := by
  have hcalls : ∀ i, (contendedCalls i).DynamoCall := by
    have hop : Addressable raceOp := by decide
    intro i
    match i with
    | 0 => exact hop
    | 1 => exact hop
    | 2 => exact hop
    | _ + 3 => exact hop
  have hrun : Interleave (fun _ _ _ => True) dynamoObj Table.empty
      (poolOf (DynamoDbStore.program {}) contendedCalls) contendedRun :=
    Interleave.start.schedule (dynamoObj_dynamoMachine 7) [1, 0, 0, 1, 2, 2, 3]
  have hserved : servedBy contendedRun.history = [0, 1, 2, 3] := by decide +kernel
  obtain ⟨-, hreplies, -⟩ := dynamodb_store_refines_memory {} contendedCalls hcalls contendedRun hrun
  rw [hserved] at hreplies
  have hmemory : replies (memoryMachine (E := DynamoFailure Unit))
      ([0, 1, 2, 3].map contendedCalls) MemoryStore.empty
      = [⟨.Begin raceOp ⟨10, 100, 0⟩, .ok (.Acquired 1)⟩,
        ⟨.Begin raceOp ⟨10, 100, 5⟩, .ok (.InFlight 10)⟩,
        ⟨.Begin raceOp ⟨10, 100, 10⟩, .ok (.Acquired 2)⟩, ⟨.Abandon raceOp 1, .ok .StaleFence⟩] := rfl
  rw [hmemory] at hreplies
  simpa using hreplies

end Anyonce
