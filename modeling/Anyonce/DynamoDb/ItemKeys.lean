import Anyonce.Core.Separator
import Anyonce.Go.DynamoDb
import Anyonce.Go.RowCodec
import Anyonce.Store.Isolation

/-!
# Splitting an item key

The DynamoDB stores join the scope and the key of an operation with the unit separator, and read both
back by cutting the joined text at its first one.  Keys are checked and have none; scopes are not, and
may have any number.  So the cut falls inside the scope as soon as the scope has a separator, and the
record `begin` and `get` return then names another scope and another key.

That the record is cut from the very text the call was sent for is an invariant of the table: no update
touches the partition key, so every item is found under the key it carries (`Carried`).

* `record_names_iff` — one record, of either store.
* `item_keys_split_iff` — all operations, and every record of every run.
-/

namespace Anyonce

open Interaction Relational

/-! ## Items carry the key they are found under -/

section

variable {T : Type} [DecidableEq T]

/-- The item has `pk` as its partition key. -/
def Item.Carries (pk : T) (item : Item T) : Prop := item .Pk = some (.S pk)

/-- Every item is found under the key it carries. -/
def Items.Carried (items : Items T) : Prop := ∀ pk item, items.get pk = some item → item.Carries pk

/-- An update that leaves the partition key alone. -/
def Update.Spares (u : Update T) : Prop := (∀ p ∈ u.set, p.1 ≠ .Pk) ∧ .Pk ∉ u.remove

lemma Items.carried_empty : Items.Carried (Table.empty : Items T) := by
  intro pk item h
  simp at h

omit [DecidableEq T] in
lemma Update.assign_carries {old item item' : Item T} {pk : T} {set : List (Attribute × Operand T)}
    (hset : ∀ p ∈ set, p.1 ≠ .Pk) (hitem : item.Carries pk)
    (h : Update.assign old set item = some item') : item'.Carries pk := by
  induction set generalizing item with
  | nil =>
      obtain rfl : item = item' := by simpa [Update.assign] using h
      exact hitem
  | cons p rest ih =>
      obtain ⟨v, -, hrest⟩ := Option.bind_eq_some_iff.mp h
      refine ih (fun q hq => hset q (List.mem_cons_of_mem p hq)) ?_ hrest
      show (if Attribute.Pk = p.1 then some v else item .Pk) = some (.S pk)
      rw [if_neg (hset p List.mem_cons_self).symm]
      exact hitem

omit [DecidableEq T] in
/-- What an update writes carries the key it is written under. -/
lemma Update.Spares.apply_carries {u : Update T} (hu : u.Spares) {old : Option (Item T)} {pk : T}
    {item : Item T} (hold : ∀ item, old = some item → item.Carries pk)
    (h : u.apply pk old = some item) : item.Carries pk := by
  obtain ⟨written, hassign, rfl⟩ := Option.map_eq_some_iff.mp h
  have hbefore : (old.getD (Item.keyed pk)).Carries pk := by
    cases old with
    | none => rfl
    | some item => exact hold item rfl
  show (if Attribute.Pk ∈ u.remove then none else written .Pk) = some (.S pk)
  rw [if_neg hu.2]
  exact Update.assign_carries hu.1 hbefore hassign

lemma Items.Carried.updateItem {items : Items T} (h : items.Carried) {u : Update T} (hu : u.Spares)
    (pk : T) (cond : Condition T) : (updateItem items pk cond u).2.Carried := by
  rw [Anyonce.updateItem]
  split_ifs
  · cases happly : u.apply pk (items.get pk) with
    | none => exact h
    | some item =>
        intro pk' item' hget
        rw [OrderedMap.get_set] at hget
        split_ifs at hget with hpk
        · obtain rfl : item = item' := Option.some.inj hget
          rw [hpk]
          exact hu.apply_carries (h pk) happly
        · exact h pk' item' hget
  · exact h

lemma Items.Carried.deleteItem {items : Items T} (h : items.Carried) (pk : T)
    (cond : Option (Condition T)) : (deleteItem items pk cond).2.Carried := by
  rw [Anyonce.deleteItem]
  split_ifs
  · intro pk' item hget
    rw [OrderedMap.get_delete] at hget
    split_ifs at hget
    exact h pk' item hget
  · exact h

/-- A refused update returns the item that is there. -/
lemma Items.Carried.refused {items : Items T} (h : items.Carried) {pk : T} {cond : Condition T}
    {u : Update T} {item : Item T}
    (hreply : (Anyonce.updateItem items pk cond u).1 = .error (.ConditionalCheckFailed (some item))) :
    item.Carries pk := by
  refine h pk item ?_
  rw [Anyonce.updateItem] at hreply
  split_ifs at hreply
  · cases happly : u.apply pk (items.get pk) with
    | none =>
        rw [happly] at hreply
        cases hreply
    | some item =>
        rw [happly] at hreply
        cases hreply
  · simpa using hreply

end

/-! ## Records -/

/-- The operation of a `begin` or `get`, and the record it returns. -/
def recordReturned {Op Opts P Row : Type} :
    (c : StoreCall Op Opts P) → StoreReply Row c → Option (Op × Row)
  | .Begin op _, .Completed record => some (op, record)
  | .Begin op _, .Mismatch record => some (op, record)
  | .Get op _, some record => some (op, record)
  | _, _ => none

/-- **A record cut from a joined text names both parts** exactly when the first has no separator. -/
lemma record_names_iff {α : Type} [DecidableEq α] {sep : α} {scope key scope' key' : List α}
    (h : (scope', key') = Separator.splitFirst sep (scope ++ sep :: key)) :
    (scope' = scope ∧ key' = key) ↔ sep ∉ scope := by
  rw [← Separator.splitFirst_append_iff (b := key), ← h, Prod.mk.injEq]

/-! ## The TypeScript store -/

section

variable {X : Type}

/-- The answer of a request got lost on its way back. -/
def DynamoCommand.Lost : (c : DynamoCommand) → DynamoReply X c → Prop
  | .DateNow, _ => False
  | .UpdateItem _ _ _, reply => ∃ err, reply = .error (.Failed err)
  | .DeleteItem _ _, reply => ∃ err, reply = .error (.Failed err)
  | .GetItem _, reply => ∃ err, reply = .error (.Failed err)

/-- The table answers a request, or the answer is lost and the table may have served it or not. -/
def DynamoCommand.Answers (items : Items JsString) (c : DynamoCommand) (reply : DynamoReply X c)
    (items' : Items JsString) : Prop :=
  c.Serves items reply items'
    ∨ c.Lost reply ∧ (items' = items ∨ ∃ reply', c.Serves (X := X) items reply' items')

/-- The table shared by callers `ι`, over a network that may lose answers. -/
def dynamoLossy {ι : Type} (items : Items JsString) (p : ι × DynamoCommand)
    (reply : Tagged ι (DynamoReply X) p) (items' : Items JsString) : Prop :=
  p.2.Answers items reply items'

/-- A request that leaves the partition keys alone. -/
def DynamoCommand.Spares : DynamoCommand → Prop
  | .UpdateItem _ _ u => u.Spares
  | _ => True

/-- The item a request brings back carries the key the request was sent for. -/
def CarriesKey : Event DynamoCommand (DynamoReply X) → Prop
  | ⟨.UpdateItem pk _ _, .error (.Service (.ConditionalCheckFailed (some item)))⟩ => item.Carries pk
  | ⟨.GetItem pk, .ok (some item)⟩ => item.Carries pk
  | _ => True

lemma beginUpdate_spares (fp : JsString) (now lease exp ttl : ℤ) :
    (beginUpdate fp now lease exp ttl).Spares := by
  simp [Update.Spares, beginUpdate]

lemma completeUpdate_spares (resultMeta : JsString) (omitted : Bool) (body : Option (List UInt8)) :
    (completeUpdate resultMeta omitted body).Spares := by
  cases body <;> simp [Update.Spares, completeUpdate]

/-- **No call of the store touches a partition key.** -/
lemma DynamoDbStore.program_spares (store : DynamoDbStore)
    (c : StoreCall Operation BeginOptions Completion) :
    (store.program (X := X) c).Only DynamoCommand.Spares := by
  cases c with
  | Begin op opts =>
      refine only_retry ?_ _ 3
      exact ⟨trivial, fun _ => ⟨beginUpdate_spares _ _ _ _ _, fun _ => trivial⟩⟩
  | Complete op fence result now =>
      show (DynamoDbStore.complete op fence result now).Only _
      unfold DynamoDbStore.complete
      split_ifs
      · trivial
      · exact ⟨completeUpdate_spares _ _ _, fun _ => trivial⟩
  | Abandon op fence => exact ⟨trivial, fun _ => trivial⟩
  | Get op now => exact ⟨trivial, fun _ => trivial⟩
  | Purge now => trivial
  | PhysicallyRemove op => exact ⟨trivial, fun _ => trivial⟩

lemma DynamoCommand.Serves.carried {items items' : Items JsString} {c : DynamoCommand}
    {reply : DynamoReply X c} (h : c.Serves items reply items') (hc : c.Spares)
    (hitems : items.Carried) : items'.Carried := by
  cases c with
  | DateNow =>
      obtain rfl : items' = items := h
      exact hitems
  | UpdateItem pk cond u =>
      rw [h.2]
      exact hitems.updateItem hc pk cond
  | DeleteItem pk cond =>
      rw [h.2]
      exact hitems.deleteItem pk cond
  | GetItem pk =>
      rw [h.2]
      exact hitems

lemma DynamoCommand.Answers.carried {items items' : Items JsString} {c : DynamoCommand}
    {reply : DynamoReply X c} (h : c.Answers items reply items') (hc : c.Spares)
    (hitems : items.Carried) : items'.Carried := by
  rcases h with h | ⟨-, rfl | ⟨reply', h⟩⟩
  · exact h.carried hc hitems
  · exact hitems
  · exact h.carried hc hitems

lemma DynamoCommand.Answers.carriesKey {items items' : Items JsString} {c : DynamoCommand}
    {reply : DynamoReply X c} (h : c.Answers items reply items') (hitems : items.Carried) :
    CarriesKey (⟨c, reply⟩ : Event DynamoCommand (DynamoReply X)) := by
  cases c with
  | DateNow => trivial
  | UpdateItem pk cond u =>
      rcases h with ⟨hreply, -⟩ | ⟨⟨err, rfl⟩, -⟩
      · cases hout : (updateItem items pk cond u).1 with
        | ok written =>
            rw [hout] at hreply
            rw [hreply]
            trivial
        | error err =>
            rw [hout] at hreply
            rw [hreply]
            rcases err with (_ | item) | _
            · trivial
            · exact hitems.refused hout
            · trivial
      · trivial
  | DeleteItem pk cond => trivial
  | GetItem pk =>
      rcases h with ⟨rfl, -⟩ | ⟨⟨err, rfl⟩, -⟩
      · cases hget : items.get pk with
        | none =>
            rw [getItem, hget]
            trivial
        | some item =>
            rw [getItem, hget]
            exact hitems pk item hget
      · trivial

/-- In every run each item that comes back carries the key it was asked for. -/
lemma carriesKey_of_interleave {ι : Type} [DecidableEq ι] {store : DynamoDbStore}
    {calls : ι → StoreCall Operation BeginOptions Completion} {items₀ : Items JsString}
    (hitems : items₀.Carried)
    {cfg : Config ι DynamoCommand (DynamoReply X) (DynamoResult X) (Items JsString)}
    (h : Interleave (fun _ _ _ => True) dynamoLossy items₀ (poolOf store.program calls) cfg) (i : ι) :
    ∀ ev ∈ traceOf i cfg.history, CarriesKey ev := by
  have honly : ∀ i, (poolOf (store.program (X := X)) calls i).Only DynamoCommand.Spares := fun i =>
    only_bind (store.program_spares (calls i)) fun _ => trivial
  have hhistory := (h.history_only honly).2
  intro ev hev
  obtain ⟨e, he, -, rfl⟩ := mem_traceOf.mp hev
  have hpre : e.pre.Carried :=
    hhistory.before_of_mem hitems (fun _ _ _ _ _ ha ho => DynamoCommand.Answers.carried ho ha.2) he
  exact (hhistory.obj_of_mem he).carriesKey hpre

lemma itemToRow_names {item : Item JsString} {row : RecordRow JsString} {pk : JsString}
    (h : itemToRow item = some row) (hpk : item.Carries pk) :
    (row.scope, row.key) = splitItemKey pk := by
  obtain ⟨state, -, hrow⟩ := Option.bind_eq_some_iff.mp h
  have htext : (item.text .Pk).getD [] = pk := by simp [Item.text, show item .Pk = _ from hpk]
  rw [← Option.some.inj hrow, htext]
  rfl

lemma readItem_names {row : RecordRow JsString} {record : IdempotencyRecord}
    (h : readItem (X := X) row = .ok record) :
    record.scope = row.scope ∧ record.key = row.key := by
  unfold readItem rowToRecord at h
  cases hresult : rowResult row with
  | none =>
      rw [hresult] at h
      cases h
  | some result =>
      rw [hresult] at h
      cases h
      exact ⟨rfl, rfl⟩

/-- A refused `begin` names the operation its item stands for. -/
lemma classify_names {op op' : Operation} {opts : BeginOptions} {item : Item JsString}
    {out : BeginOutcome IdempotencyRecord} {record : IdempotencyRecord} {pk : JsString}
    (h : DynamoDbStore.classify (X := X) op opts item = some (.ok out)) (hpk : item.Carries pk)
    (hrec : recordReturned (P := Completion) (.Begin op opts) out = some (op', record)) :
    op' = op ∧ (record.scope, record.key) = splitItemKey pk := by
  unfold DynamoDbStore.classify at h
  cases hrow : itemToRow item with
  | none =>
      rw [hrow] at h
      cases h
  | some row =>
      simp only [hrow] at h
      by_cases hexp : row.expiresAt ≤ opts.now
      · rw [if_pos hexp] at h
        cases h
      rw [if_neg hexp] at h
      cases hread : readItem (X := X) row with
      | error err =>
          rw [hread] at h
          cases h
      | ok found =>
          have hnames := readItem_names hread
          simp only [hread] at h
          split_ifs at h
          all_goals cases h
          all_goals cases hrec
          all_goals exact ⟨rfl, by rw [hnames.1, hnames.2, itemToRow_names hrow hpk]⟩

lemma afterBegin_names {op op' : Operation} {opts : BeginOptions} {ttl : ℤ}
    {reply : DynamoReply X (DynamoDbStore.beginWrite op opts ttl)}
    {out : BeginOutcome IdempotencyRecord} {record : IdempotencyRecord}
    (h : DynamoDbStore.afterBegin op opts reply = some (.ok out))
    (hev : CarriesKey (⟨_, reply⟩ : Event DynamoCommand (DynamoReply X)))
    (hrec : recordReturned (P := Completion) (.Begin op opts) out = some (op', record)) :
    (record.scope, record.key) = splitItemKey (itemKey op') := by
  rcases reply with (((_ | item) | _) | _) | attributes
  · cases h
  · obtain ⟨rfl, hnames⟩ := classify_names h hev hrec
    exact hnames
  · cases h
  · cases h
  · have hacquired : attributes.number .Fence = none ∨ ∃ fence, out = .Acquired fence := by
      cases hfence : attributes.number .Fence with
      | none => exact Or.inl rfl
      | some fence =>
          right
          refine ⟨fence, ?_⟩
          simpa [DynamoDbStore.afterBegin, hfence, eq_comm] using h
    rcases hacquired with hnone | ⟨fence, rfl⟩
    · simp [DynamoDbStore.afterBegin, hnone] at h
    · cases hrec

lemma afterGet_names {op op' : Operation} {now : ℤ} {reply : DynamoReply X (.GetItem (itemKey op))}
    {out : Option IdempotencyRecord} {record : IdempotencyRecord}
    (h : DynamoDbStore.afterGet now reply = .ok out)
    (hev : CarriesKey (⟨_, reply⟩ : Event DynamoCommand (DynamoReply X)))
    (hrec : recordReturned (.Get op now : StoreCall Operation BeginOptions Completion) out = some (op', record)) :
    (record.scope, record.key) = splitItemKey (itemKey op') := by
  rcases reply with err | (_ | item)
  · cases h
  · cases h
    cases hrec
  · simp only [DynamoDbStore.afterGet] at h
    cases hrow : itemToRow item with
    | none =>
        rw [hrow] at h
        cases h
    | some row =>
        simp only [hrow] at h
        split_ifs at h
        · cases hread : readItem (X := X) row with
          | error err =>
              rw [hread] at h
              cases h
          | ok found =>
              have hnames := readItem_names hread
              rw [hread] at h
              cases h
              cases hrec
              rw [hnames.1, hnames.2]
              exact itemToRow_names hrow hev
        · cases h
          cases hrec

/-- **A record names the operation the item key of its call is split into.** -/
lemma DynamoDbStore.record_names {store : DynamoDbStore}
    {c : StoreCall Operation BeginOptions Completion} {r : StoreReply IdempotencyRecord c}
    {t : List (Event DynamoCommand (DynamoReply X))} (h : Runs (store.program c) t (.ok r))
    (ht : ∀ ev ∈ t, CarriesKey ev) {op : Operation} {record : IdempotencyRecord}
    (hrec : recordReturned c r = some (op, record)) :
    (record.scope, record.key) = splitItemKey (itemKey op) := by
  cases c with
  | Begin op' opts =>
      obtain ⟨ts, t', rfl, -, ⟨-, hgiveUp, -⟩ | ⟨hattempt, -⟩⟩ := runs_retry h
      · cases hgiveUp
      · obtain ⟨wall, t₁, rfl, hwrite⟩ := runs_call_iff.mp hattempt
        obtain ⟨reply, t₂, rfl, hret⟩ := runs_call_iff.mp hwrite
        have hev := ht ⟨DynamoDbStore.beginWrite op' opts _, reply⟩ (by simp)
        exact afterBegin_names (runs_ret_iff.mp hret).2 hev hrec
  | Complete op' fence result now => cases hrec
  | Abandon op' fence => cases hrec
  | Get op' now =>
      obtain ⟨reply, t₁, rfl, hret⟩ := runs_call_iff.mp h
      have hev := ht ⟨.GetItem (itemKey op'), reply⟩ (by simp)
      exact afterGet_names (runs_ret_iff.mp hret).2 hev hrec
  | Purge now => cases hrec
  | PhysicallyRemove op' => cases hrec

end

/-! ## The Go store -/

namespace Go

/-- The table answers a request; the wall clock may show anything. -/
def DynamoCommand.Serves (items : Items GoString) :
    (c : DynamoCommand) → DynamoReply c → Items GoString → Prop
  | .TimeNow, _, items' => items' = items
  | .UpdateItem pk cond update, reply, items' =>
      reply = (updateItem items pk cond update).1.mapError .Service
        ∧ items' = (updateItem items pk cond update).2
  | .DeleteItem pk cond, reply, items' =>
      reply = (deleteItem items pk cond).1.mapError .Service ∧ items' = (deleteItem items pk cond).2
  | .GetItem pk, reply, items' => reply = .ok (getItem items pk) ∧ items' = items

/-- The answer of a request got lost on its way back. -/
def DynamoCommand.Lost : (c : DynamoCommand) → DynamoReply c → Prop
  | .TimeNow, _ => False
  | .UpdateItem _ _ _, reply => ∃ err, reply = .error (.Failed err)
  | .DeleteItem _ _, reply => ∃ err, reply = .error (.Failed err)
  | .GetItem _, reply => ∃ err, reply = .error (.Failed err)

/-- The table answers a request, or the answer is lost and the table may have served it or not. -/
def DynamoCommand.Answers (items : Items GoString) (c : DynamoCommand) (reply : DynamoReply c)
    (items' : Items GoString) : Prop :=
  c.Serves items reply items'
    ∨ c.Lost reply ∧ (items' = items ∨ ∃ reply', c.Serves items reply' items')

/-- The table shared by callers `ι`, over a network that may lose answers. -/
def dynamoLossy {ι : Type} (items : Items GoString) (p : ι × DynamoCommand)
    (reply : Tagged ι DynamoReply p) (items' : Items GoString) : Prop :=
  p.2.Answers items reply items'

/-- A request that leaves the partition keys alone. -/
def DynamoCommand.Spares : DynamoCommand → Prop
  | .UpdateItem _ _ u => u.Spares
  | _ => True

/-- The item a request brings back carries the key the request was sent for. -/
def CarriesKey : Event DynamoCommand DynamoReply → Prop
  | ⟨.UpdateItem pk _ _, .error (.Service (.ConditionalCheckFailed (some item)))⟩ => item.Carries pk
  | ⟨.GetItem pk, .ok (some item)⟩ => item.Carries pk
  | _ => True

lemma beginUpdate_spares (fp : GoString) (now lease exp ttl : ℤ) :
    (beginUpdate fp now lease exp ttl).Spares := by
  simp [Update.Spares, beginUpdate]

lemma completeUpdate_spares (resultMeta : GoString) (omitted : Bool) (body : Option (List UInt8)) :
    (completeUpdate resultMeta omitted body).Spares := by
  cases omitted <;> cases body <;> simp [Update.Spares, completeUpdate]

/-- What a call of the store returns. -/
abbrev DynamoResult : Type :=
  (c : StoreCall Operation BeginOptions StoredResult) × Except DynamoError (StoreReply Record c)

variable {json : MetaJson}

/-- **No call of the store touches a partition key.** -/
lemma DynamoDbStore.program_spares (s : DynamoDbStore)
    (c : StoreCall Operation BeginOptions StoredResult) :
    (s.program json c).Only DynamoCommand.Spares := by
  cases c with
  | Begin op opts =>
      refine only_retry ?_ _ 3
      exact ⟨trivial, fun _ => ⟨beginUpdate_spares _ _ _ _ _, fun _ => trivial⟩⟩
  | Complete op fence result now =>
      show (DynamoDbStore.complete json op fence result now).Only _
      unfold DynamoDbStore.complete
      split_ifs
      · trivial
      · cases encodeMeta json result with
        | error err => trivial
        | ok text => exact ⟨completeUpdate_spares _ _ _, fun _ => trivial⟩
  | Abandon op fence => exact ⟨trivial, fun _ => trivial⟩
  | Get op now => exact ⟨trivial, fun _ => trivial⟩
  | Purge now => trivial
  | PhysicallyRemove op => exact ⟨trivial, fun _ => trivial⟩

lemma DynamoCommand.Serves.carried {items items' : Items GoString} {c : DynamoCommand}
    {reply : DynamoReply c} (h : c.Serves items reply items') (hc : c.Spares)
    (hitems : items.Carried) : items'.Carried := by
  cases c with
  | TimeNow =>
      obtain rfl : items' = items := h
      exact hitems
  | UpdateItem pk cond u =>
      rw [h.2]
      exact hitems.updateItem hc pk cond
  | DeleteItem pk cond =>
      rw [h.2]
      exact hitems.deleteItem pk cond
  | GetItem pk =>
      rw [h.2]
      exact hitems

lemma DynamoCommand.Answers.carried {items items' : Items GoString} {c : DynamoCommand}
    {reply : DynamoReply c} (h : c.Answers items reply items') (hc : c.Spares)
    (hitems : items.Carried) : items'.Carried := by
  rcases h with h | ⟨-, rfl | ⟨reply', h⟩⟩
  · exact h.carried hc hitems
  · exact hitems
  · exact h.carried hc hitems

lemma DynamoCommand.Answers.carriesKey {items items' : Items GoString} {c : DynamoCommand}
    {reply : DynamoReply c} (h : c.Answers items reply items') (hitems : items.Carried) :
    CarriesKey (⟨c, reply⟩ : Event DynamoCommand DynamoReply) := by
  cases c with
  | TimeNow => trivial
  | UpdateItem pk cond u =>
      rcases h with ⟨hreply, -⟩ | ⟨⟨err, rfl⟩, -⟩
      · cases hout : (updateItem items pk cond u).1 with
        | ok written =>
            rw [hout] at hreply
            rw [hreply]
            trivial
        | error err =>
            rw [hout] at hreply
            rw [hreply]
            rcases err with (_ | item) | _
            · trivial
            · exact hitems.refused hout
            · trivial
      · trivial
  | DeleteItem pk cond => trivial
  | GetItem pk =>
      rcases h with ⟨rfl, -⟩ | ⟨⟨err, rfl⟩, -⟩
      · cases hget : items.get pk with
        | none =>
            rw [getItem, hget]
            trivial
        | some item =>
            rw [getItem, hget]
            exact hitems pk item hget
      · trivial

/-- In every run each item that comes back carries the key it was asked for. -/
lemma carriesKey_of_interleave {ι : Type} [DecidableEq ι] {s : DynamoDbStore}
    {calls : ι → StoreCall Operation BeginOptions StoredResult} {items₀ : Items GoString}
    (hitems : items₀.Carried)
    {cfg : Config ι DynamoCommand DynamoReply DynamoResult (Items GoString)}
    (h : Interleave (fun _ _ _ => True) dynamoLossy items₀ (poolOf (s.program json) calls) cfg)
    (i : ι) : ∀ ev ∈ traceOf i cfg.history, CarriesKey ev := by
  have honly : ∀ i, (poolOf (s.program json) calls i).Only DynamoCommand.Spares := fun i =>
    only_bind (s.program_spares (calls i)) fun _ => trivial
  have hhistory := (h.history_only honly).2
  intro ev hev
  obtain ⟨e, he, -, rfl⟩ := mem_traceOf.mp hev
  have hpre : e.pre.Carried :=
    hhistory.before_of_mem hitems (fun _ _ _ _ _ ha ho => DynamoCommand.Answers.carried ho ha.2) he
  exact (hhistory.obj_of_mem he).carriesKey hpre

lemma itemToRow_names {item : Item GoString} {row : RecordRow GoString} {pk : GoString}
    (h : itemToRow item = some row) (hpk : item.Carries pk) : (row.scope, row.key) = splitKey pk := by
  obtain ⟨state, -, hrow⟩ := Option.bind_eq_some_iff.mp h
  have htext : readStr item .Pk = pk := by simp [readStr, show item .Pk = _ from hpk]
  rw [← Option.some.inj hrow, htext]
  rfl

/-- A refused `Begin` names the operation its item stands for. -/
lemma classify_names {op op' : Operation} {opts : BeginOptions} {item : Item GoString}
    {out : BeginOutcome Record} {record : Record} {pk : GoString}
    (h : DynamoDbStore.classify json op opts item = some (.ok out)) (hpk : item.Carries pk)
    (hrec : recordReturned (P := StoredResult) (.Begin op opts) out = some (op', record)) :
    op' = op ∧ (record.scope, record.key) = splitKey pk := by
  unfold DynamoDbStore.classify at h
  cases hrow : itemToRow item with
  | none =>
      rw [hrow] at h
      cases h
  | some row =>
      simp only [hrow] at h
      split_ifs at h
      all_goals cases h
      all_goals cases hrec
      all_goals exact ⟨rfl, itemToRow_names hrow hpk⟩

lemma afterBegin_names {op op' : Operation} {opts : BeginOptions} {ttl : ℤ}
    {reply : DynamoReply (DynamoDbStore.beginWrite op opts ttl)} {out : BeginOutcome Record}
    {record : Record} (h : DynamoDbStore.afterBegin json op opts reply = some (.ok out))
    (hev : CarriesKey (⟨_, reply⟩ : Event DynamoCommand DynamoReply))
    (hrec : recordReturned (P := StoredResult) (.Begin op opts) out = some (op', record)) :
    (record.scope, record.key) = splitKey (itemKey op') := by
  rcases reply with (((_ | item) | _) | _) | attributes
  · cases h
  · obtain ⟨rfl, hnames⟩ := classify_names h hev hrec
    exact hnames
  · cases h
  · cases h
  · cases h
    cases hrec

lemma afterGet_names {op op' : Operation} {now : ℤ} {reply : DynamoReply (.GetItem (itemKey op))}
    {out : Option Record} {record : Record} (h : DynamoDbStore.afterGet json now reply = .ok out)
    (hev : CarriesKey (⟨_, reply⟩ : Event DynamoCommand DynamoReply))
    (hrec : recordReturned (.Get op now : StoreCall Operation BeginOptions StoredResult) out
      = some (op', record)) :
    (record.scope, record.key) = splitKey (itemKey op') := by
  rcases reply with err | (_ | item)
  · cases h
  · cases h
    cases hrec
  · simp only [DynamoDbStore.afterGet] at h
    cases hrow : itemToRow item with
    | none =>
        rw [hrow] at h
        cases h
    | some row =>
        simp only [hrow] at h
        split_ifs at h
        · cases h
          cases hrec
        · cases h
          cases hrec
          exact itemToRow_names hrow hev

/-- **A record names the operation the item key of its call is split into.** -/
lemma DynamoDbStore.record_names {s : DynamoDbStore}
    {c : StoreCall Operation BeginOptions StoredResult} {r : StoreReply Record c}
    {t : List (Event DynamoCommand DynamoReply)} (h : Runs (s.program json c) t (.ok r))
    (ht : ∀ ev ∈ t, CarriesKey ev) {op : Operation} {record : Record}
    (hrec : recordReturned c r = some (op, record)) :
    (record.scope, record.key) = splitKey (itemKey op) := by
  cases c with
  | Begin op' opts =>
      obtain ⟨ts, t', rfl, -, ⟨-, hgiveUp, -⟩ | ⟨hattempt, -⟩⟩ := runs_retry h
      · cases hgiveUp
      · obtain ⟨wall, t₁, rfl, hwrite⟩ := runs_call_iff.mp hattempt
        obtain ⟨reply, t₂, rfl, hret⟩ := runs_call_iff.mp hwrite
        have hev := ht ⟨DynamoDbStore.beginWrite op' opts _, reply⟩ (by simp)
        exact afterBegin_names (runs_ret_iff.mp hret).2 hev hrec
  | Complete op' fence result now => cases hrec
  | Abandon op' fence => cases hrec
  | Get op' now =>
      obtain ⟨reply, t₁, rfl, hret⟩ := runs_call_iff.mp h
      have hev := ht ⟨.GetItem (itemKey op'), reply⟩ (by simp)
      exact afterGet_names (runs_ret_iff.mp hret).2 hev hrec
  | Purge now => cases hrec
  | PhysicallyRemove op' => cases hrec

end Go

/-! ## Every operation and every run -/

lemma splitItemKey_itemKey_iff (op : Operation) :
    splitItemKey (itemKey op) = (op.scope, op.key) ↔ 0x1f ∉ op.scope := by
  rw [splitItemKey]
  exact Separator.splitFirst_append_iff

lemma Go.splitKey_itemKey_iff (op : Go.Operation) :
    Go.splitKey (Go.itemKey op) = (op.scope, op.key) ↔ 0x1f ∉ op.scope := by
  rw [Go.splitKey]
  exact Separator.splitFirst_append_iff

/-- **The item key splits back to its operation exactly when the scope has no unit separator.**  So do
the records: in every run of any number of calls, over a network that may lose answers, a record a
`begin` or `get` returns names the operation of the call exactly then. -/
theorem item_keys_split_iff (ι X : Type) [DecidableEq ι] :
    (∀ op : Operation, splitItemKey (itemKey op) = (op.scope, op.key) ↔ 0x1f ∉ op.scope)
      ∧ (∀ op : Go.Operation, Go.splitKey (Go.itemKey op) = (op.scope, op.key) ↔ 0x1f ∉ op.scope)
      ∧ (∀ (store : DynamoDbStore)
          (calls : ι → StoreCall Operation BeginOptions Completion) (items₀ : Items JsString)
          (cfg : Config ι DynamoCommand (DynamoReply X) (DynamoResult X) (Items JsString)),
          items₀.Carried →
          Interleave (fun _ _ _ => True) dynamoLossy items₀ (poolOf store.program calls) cfg →
          ∀ (i : ι) (c : StoreCall Operation BeginOptions Completion)
            (r : StoreReply IdempotencyRecord c) (op : Operation) (record : IdempotencyRecord),
            cfg.pool i = Prog.Ret ⟨c, .ok r⟩ → recordReturned c r = some (op, record) →
            ((record.scope = op.scope ∧ record.key = op.key) ↔ 0x1f ∉ op.scope))
      ∧ ∀ (json : Go.MetaJson) (s : Go.DynamoDbStore)
          (calls : ι → StoreCall Go.Operation Go.BeginOptions Go.StoredResult)
          (items₀ : Items Go.GoString)
          (cfg : Config ι Go.DynamoCommand Go.DynamoReply Go.DynamoResult (Items Go.GoString)),
          items₀.Carried →
          Interleave (fun _ _ _ => True) Go.dynamoLossy items₀ (poolOf (s.program json) calls) cfg →
          ∀ (i : ι) (c : StoreCall Go.Operation Go.BeginOptions Go.StoredResult)
            (r : StoreReply Go.Record c) (op : Go.Operation) (record : Go.Record),
            cfg.pool i = Prog.Ret ⟨c, .ok r⟩ → recordReturned c r = some (op, record) →
            ((record.scope = op.scope ∧ record.key = op.key) ↔ 0x1f ∉ op.scope) := by
  refine ⟨splitItemKey_itemKey_iff, Go.splitKey_itemKey_iff, ?_, ?_⟩
  · intro store calls items₀ cfg hitems h i c r op record hret hrec
    have hnames := DynamoDbStore.record_names (h.returned hret).2 (carriesKey_of_interleave hitems h i)
      hrec
    rw [splitItemKey] at hnames
    exact record_names_iff hnames
  · intro json s calls items₀ cfg hitems h i c r op record hret hrec
    have hnames := Go.DynamoDbStore.record_names (h.returned hret).2
      (Go.carriesKey_of_interleave hitems h i) hrec
    rw [Go.splitKey] at hnames
    exact record_names_iff hnames

/-- A claim, and a reading of its record. -/
def readBackCalls (op : Operation) : ℕ → StoreCall Operation BeginOptions Completion
  | 0 => .Begin op ⟨10, 100, 0⟩
  | _ => .Get op 5

def readBackRun (op : Operation) :
    Config ℕ DynamoCommand (DynamoReply Unit) (DynamoResult Unit) (Items JsString) :=
  Config.schedule (dynamoMachine 7)
    ⟨Table.empty, poolOf (DynamoDbStore.program {}) (readBackCalls op), []⟩ [0, 0, 1]

lemma readBackRun_interleave (op : Operation) :
    Interleave (fun _ _ _ => True) dynamoLossy Table.empty
      (poolOf (DynamoDbStore.program {}) (readBackCalls op)) (readBackRun op) :=
  Interleave.start.schedule (fun items i c => Or.inl (dynamoObj_dynamoMachine 7 items i c)) [0, 0, 1]

/-- A claim, and another of the same key with another payload. -/
def Go.reusedCalls (op : Go.Operation) : ℕ → StoreCall Go.Operation Go.BeginOptions Go.StoredResult
  | 0 => .Begin op ⟨10000000, 100000000, 0⟩
  | _ => .Begin { op with fingerprint := ascii "q" } ⟨10000000, 100000000, 5000000⟩

def Go.reusedRun (op : Go.Operation) :
    Config ℕ Go.DynamoCommand Go.DynamoReply Go.DynamoResult (Items Go.GoString) :=
  Config.schedule (Go.dynamoMachine 7)
    ⟨Table.empty, poolOf ((Go.DynamoDbStore.new 0).program Go.metaJson) (Go.reusedCalls op), []⟩
    [0, 0, 1, 1]

lemma Go.dynamoLossy_dynamoMachine {ι : Type} (wall : ℤ) (items : Items Go.GoString) (i : ι)
    (c : Go.DynamoCommand) :
    Go.dynamoLossy items (i, c) (Go.dynamoMachine wall c items).1 (Go.dynamoMachine wall c items).2 := by
  left
  cases c with
  | TimeNow => exact rfl
  | UpdateItem pk cond update => exact ⟨rfl, rfl⟩
  | DeleteItem pk cond => exact ⟨rfl, rfl⟩
  | GetItem pk => exact ⟨rfl, rfl⟩

lemma Go.reusedRun_interleave (op : Go.Operation) :
    Interleave (fun _ _ _ => True) Go.dynamoLossy Table.empty
      (poolOf ((Go.DynamoDbStore.new 0).program Go.metaJson) (Go.reusedCalls op)) (Go.reusedRun op) :=
  Interleave.start.schedule (Go.dynamoLossy_dynamoMachine 7) [0, 0, 1, 1]

/-- The record of `orders` and `k1`, read back by the TypeScript store and returned as a mismatch by the
Go store. -/
theorem item_keys_split_iff_orders :
    ∃ (record : IdempotencyRecord) (goRecord : Go.Record),
      (readBackRun ⟨js "orders", js "k1", js "p"⟩).pool 1
          = Prog.Ret ⟨.Get ⟨js "orders", js "k1", js "p"⟩ 5, .ok (some record)⟩
        ∧ (record.scope = js "orders" ∧ record.key = js "k1")
        ∧ (Go.reusedRun ⟨Go.ascii "orders", Go.ascii "k1", Go.ascii "p"⟩).pool 1
          = Prog.Ret ⟨.Begin ⟨Go.ascii "orders", Go.ascii "k1", Go.ascii "q"⟩
            ⟨10000000, 100000000, 5000000⟩, .ok (.Mismatch goRecord)⟩
        ∧ (goRecord.scope = Go.ascii "orders" ∧ goRecord.key = Go.ascii "k1") := by
  let record : IdempotencyRecord := ⟨js "orders", js "k1", js "p", .InFlight, 1, 10, 0, 100, none, none⟩
  let goRecord : Go.Record := ⟨Go.ascii "orders", Go.ascii "k1", Go.ascii "p", .InFlight, 1,
    10000000, 0, 100000000, none, false⟩
  obtain ⟨-, -, hts, hgo⟩ := item_keys_split_iff ℕ Unit
  refine ⟨record, goRecord, rfl, ?_, rfl, ?_⟩
  · exact (hts {} _ Table.empty _ Items.carried_empty (readBackRun_interleave _) 1
      (.Get ⟨js "orders", js "k1", js "p"⟩ 5) (some record) _ record rfl rfl).mpr (by decide)
  · exact (hgo Go.metaJson (Go.DynamoDbStore.new 0) _ Table.empty _ Items.carried_empty
      (Go.reusedRun_interleave ⟨Go.ascii "orders", Go.ascii "k1", Go.ascii "p"⟩) 1
      (.Begin ⟨Go.ascii "orders", Go.ascii "k1", Go.ascii "q"⟩ ⟨10000000, 100000000, 5000000⟩)
      (.Mismatch goRecord) _ goRecord rfl rfl).mpr (by decide)

/-- **A scope with a separator is not read back**: the record of the scope `a␟b` and the admitted key `k`
names the scope `a` and the key `b␟k`. -/
theorem separated_scope_misread :
    Admitted (js "k")
      ∧ splitItemKey (itemKey ⟨[0x61, 0x1f, 0x62], js "k", js "p"⟩) = ([0x61], [0x62, 0x1f, 0x6b])
      ∧ Go.splitKey (Go.itemKey ⟨[0x61, 0x1f, 0x62], Go.ascii "k", Go.ascii "p"⟩)
        = ([0x61], [0x62, 0x1f, 0x6b])
      ∧ (readBackRun ⟨[0x61, 0x1f, 0x62], js "k", js "p"⟩).pool 1
        = Prog.Ret ⟨.Get ⟨[0x61, 0x1f, 0x62], js "k", js "p"⟩ 5, .ok (some
          ⟨[0x61], [0x62, 0x1f, 0x6b], js "p", .InFlight, 1, 10, 0, 100, none, none⟩)⟩
      ∧ ¬ ∀ scope key fingerprint : JsString, Admitted key →
          splitItemKey (itemKey ⟨scope, key, fingerprint⟩) = (scope, key) := by
  have hkey : Admitted (js "k") := Or.inl ⟨false, by decide⟩
  refine ⟨hkey, by decide, by decide, rfl, ?_⟩
  intro hall
  exact absurd (hall [0x61, 0x1f, 0x62] (js "k") (js "p") hkey) (by decide)

end Anyonce
