import Anyonce.Sql.DurableObject
import Anyonce.Sql.Linearizability

/-!
# The SQL stores refine the memory store

Run one call after another, `PostgresStore`, `D1Store` and `IdempotencyObject` answer as `MemoryStore`
does.  The memory store decides in nested conditions, the SQL stores in `WHERE` clauses and a
classification after the fact; `Mirrors` relates their states, and the lemmas `Mirrors.begin`,
`Mirrors.complete` and `Mirrors.abandon` say once, for all three, that statement and classification
together land on the memory store's answer.

* `Mirrors` — the table holds the row of each record of the map, in the same order.
* `sql_stores_refine_memory` — the same replies to every sequence of calls.
-/

namespace Anyonce

open Interaction Relational

/-- The table holds the row of each record of the map, in the order of the map; a record stands under
its own map key, its key has no U+0000, and it can be stored. -/
structure Mirrors (m : MemoryStore) (t : Records JsString) : Prop where
  rows : t.rows = m.records.rows.map fun e => recordToRow e.2
  keyed : ∀ e ∈ m.records.rows, e.1 = mapKey e.2.scope e.2.key
  keyClean : ∀ e ∈ m.records.rows, 0x00 ∉ e.2.key
  storable : ∀ e ∈ m.records.rows, e.2.Storable

@[simp] lemma recordToRow_primaryKey (record : IdempotencyRecord) :
    (recordToRow record).primaryKey = (record.scope, record.key) := rfl

@[simp] lemma recordToRow_expiresAt (record : IdempotencyRecord) :
    (recordToRow record).expiresAt = record.expiresAt := rfl

/-- The row with a result stored is the row of the record with that result. -/
lemma completedRow_recordToRow {record : IdempotencyRecord} (hst : record.Storable)
    (hstate : record.state = .InFlight) (result : Completion) :
    completedRow result.columns (recordToRow record)
      = recordToRow (MemoryStore.storeCompletion record result) := by
  obtain ⟨-, homitted⟩ := hst.inFlight hstate
  cases result with
  | Stored r =>
      simp [completedRow, recordToRow, MemoryStore.storeCompletion, Completion.columns,
        Completion.isOmitted, homitted]
  | Omitted r =>
      simp [completedRow, recordToRow, MemoryStore.storeCompletion, Completion.columns,
        Completion.isOmitted, omittedToStored, encodeResultMeta, resultMeta, optionalMember]

lemma storable_storeCompletion {record : IdempotencyRecord} (hst : record.Storable)
    (result : Completion) : (MemoryStore.storeCompletion record result).Storable := by
  cases result with
  | Stored r => exact ⟨hst.omitted, nofun⟩
  | Omitted r => exact ⟨nofun, nofun⟩

/-! ## The memory store in the words of the rows

What a method of the memory store does, told by the row of the record it finds.
-/

namespace MemoryStore

variable (m : MemoryStore) (op : Operation)

/-- The row of what an operation finds. -/
abbrev rowAt : Option (RecordRow JsString) := (m.cell op).map recordToRow

lemma begin_row (opts : BeginOptions) :
    ((rowModel JsString).claimable op.columns opts.columns (m.rowAt op) = true
        ∧ m.begin op opts = (.Acquired ((rowModel JsString).nextFence (m.rowAt op)),
          m.withCell op (some (newRecord op opts ((rowModel JsString).nextFence (m.rowAt op))))))
      ∨ ∃ record, m.cell op = some record
        ∧ (rowModel JsString).claimable op.columns opts.columns (some (recordToRow record)) = false
        ∧ m.begin op opts = (memoryModel.classify op record, m) := by
  have hclaim : (rowModel JsString).claimable op.columns opts.columns (m.rowAt op)
      = memoryModel.claimable op opts (m.cell op) := by
    rw [rowAt]
    cases m.cell op <;> rfl
  have hfence : (rowModel JsString).nextFence (m.rowAt op)
      = memoryModel.nextFence (m.cell op) := by
    rw [rowAt]
    cases m.cell op <;> rfl
  rw [m.begin_eq, hclaim, hfence]
  rcases memoryModel.begin_cases op opts (m.cell op) with
    ⟨hgranted, hb⟩ | ⟨hrefused, record, hcell, -, hb⟩
  · exact Or.inl ⟨hgranted, by rw [hb]; rfl⟩
  · refine Or.inr ⟨record, hcell, ?_, ?_⟩
    · rw [rowAt, hcell] at hclaim
      rw [← hrefused, hcell]
      exact hclaim
    · rw [hb, ← hcell, m.withCell_cell]

lemma complete_row (fence : ℤ) (result : Completion) (now : ℤ) :
    (∃ record, m.cell op = some record ∧ record.state = .InFlight
        ∧ (recordToRow record).completable fence now = true
        ∧ m.complete op fence result now
          = (.Ok, m.withCell op (some (storeCompletion record result))))
      ∨ ((m.rowAt op).filter (RecordRow.completable fence now) = none
        ∧ m.complete op fence result now = (completeStatus fence now (m.rowAt op), m)) := by
  rw [rowAt]
  cases hcell : m.cell op with
  | none => exact Or.inr ⟨rfl, by simp only [complete, hcell]; rfl⟩
  | some record =>
      by_cases hsel : (recordToRow record).completable fence now = true
      · have hcond : (record.fence = fence && record.expiresAt > now && record.state = .InFlight)
            = true := hsel
        rw [Bool.and_eq_true, Bool.and_eq_true, decide_eq_true_eq, decide_eq_true_eq,
          decide_eq_true_eq] at hcond
        obtain ⟨⟨hfence, hlive⟩, hstate⟩ := hcond
        refine Or.inl ⟨record, rfl, hstate, hsel, ?_⟩
        simp [complete, hcell, not_le.mpr hlive, hfence, hstate, OrderedMap.setCell]
      · refine Or.inr ⟨by simp [Option.filter, hsel], ?_⟩
        show _ = (completeStatus fence now (some (recordToRow record)), m)
        simp only [complete, hcell, completeStatus, recordToRow]
        by_cases hexp : record.expiresAt ≤ now
        · simp [hexp]
        · by_cases hfence : record.fence = fence
          · have hstate : record.state = .Completed := by
              cases hs : record.state with
              | Completed => rfl
              | InFlight =>
                  simp [RecordRow.completable, recordToRow, hfence, hs, not_le.mp hexp] at hsel
            simp [hexp, hfence, hstate]
          · simp [hexp, hfence]

lemma abandon_row (fence : ℤ) :
    (∃ record, m.cell op = some record ∧ (recordToRow record).abandonable fence = true
        ∧ m.abandon op fence = (.Ok, m.withCell op none))
      ∨ ((m.rowAt op).filter (RecordRow.abandonable fence) = none
        ∧ m.abandon op fence = (abandonStatus fence (m.rowAt op), m)) := by
  rw [rowAt]
  cases hcell : m.cell op with
  | none => exact Or.inr ⟨rfl, by simp only [abandon, hcell]; rfl⟩
  | some record =>
      by_cases hstate : record.state = .InFlight
      · by_cases hfence : record.fence = fence
        · refine Or.inl ⟨record, rfl, by simp [RecordRow.abandonable, recordToRow, hstate, hfence], ?_⟩
          simp [abandon, hcell, hstate, hfence, OrderedMap.setCell]
        · refine Or.inr ⟨by simp [Option.filter, RecordRow.abandonable, recordToRow, hfence], ?_⟩
          simp [abandon, hcell, hstate, hfence, abandonStatus, recordToRow]
      · refine Or.inr ⟨by simp [Option.filter, RecordRow.abandonable, recordToRow, hstate], ?_⟩
        simp [abandon, hcell, hstate, abandonStatus, recordToRow]

end MemoryStore

/-! ## The table and the map -/

lemma mirrors_empty : Mirrors MemoryStore.empty Table.empty := by
  constructor <;> simp [MemoryStore.empty]

namespace Mirrors

variable {m : MemoryStore} {t : Records JsString} (h : Mirrors m t)

include h

/-- The row of an operation is found in the table exactly when its record is in the map. -/
lemma key_iff {e : JsString × IdempotencyRecord} (he : e ∈ m.records.rows) {scope key : JsString}
    (hkey : 0x00 ∉ key) :
    (recordToRow e.2).primaryKey = (scope, key) ↔ e.1 = mapKey scope key := by
  rw [recordToRow_primaryKey, Prod.mk.injEq, h.keyed e he]
  constructor
  · rintro ⟨rfl, rfl⟩
    rfl
  · exact mapKey_inj (h.keyClean e he) hkey

/-- What is found in the table is the row of what is found in the map. -/
lemma lookup {op : Operation} (hkey : 0x00 ∉ op.key) :
    t.lookup (op.scope, op.key) = m.rowAt op := by
  ext row
  rw [Table.lookup_eq_some_iff, h.rows, Option.map_eq_some_iff]
  constructor
  · rintro ⟨hmem, hrow⟩
    obtain ⟨⟨k, record⟩, he, rfl⟩ := List.mem_map.mp hmem
    obtain rfl : k = mapKey op.scope op.key := (h.key_iff he hkey).mp hrow
    exact ⟨record, OrderedMap.get_eq_some_iff.mpr he, rfl⟩
  · rintro ⟨record, hget, rfl⟩
    have he := OrderedMap.get_eq_some_iff.mp hget
    exact ⟨List.mem_map.mpr ⟨_, he, rfl⟩, (h.key_iff he hkey).mpr rfl⟩

/-- A record written under its own key. -/
lemma set (record : IdempotencyRecord) (hkey : 0x00 ∉ record.key) (hst : record.Storable) :
    Mirrors ⟨m.records.set (mapKey record.scope record.key) record⟩ (t.put (recordToRow record)) := by
  have hmem : ∀ e ∈ (m.records.set (mapKey record.scope record.key) record).rows,
      e ∈ m.records.rows ∨ e = (mapKey record.scope record.key, record) := by
    intro e he
    rw [OrderedMap.set, Table.put_rows, Table.putRows] at he
    split_ifs at he
    · obtain ⟨e', he', rfl⟩ := List.mem_map.mp he
      split_ifs
      · exact Or.inr rfl
      · exact Or.inl he'
    · simpa using he
  constructor
  · rw [Table.put_rows, h.rows]
    exact Table.putRows_map (fun e : JsString × IdempotencyRecord => recordToRow e.2)
      m.records.rows (mapKey record.scope record.key, record) fun e he => h.key_iff he hkey
  · intro e he
    rcases hmem e he with he | rfl
    · exact h.keyed e he
    · rfl
  · intro e he
    rcases hmem e he with he | rfl
    · exact h.keyClean e he
    · exact hkey
  · intro e he
    rcases hmem e he with he | rfl
    · exact h.storable e he
    · exact hst

/-- Rows deleted from the table, and their records from the map. -/
lemma remove {p : RecordRow JsString → Bool} {q : JsString × IdempotencyRecord → Bool}
    (hpq : ∀ e ∈ m.records.rows, p (recordToRow e.2) = q e) :
    Mirrors ⟨Table.remove m.records q⟩ (t.remove p) := by
  have hmem : ∀ e ∈ (Table.remove m.records q).rows, e ∈ m.records.rows :=
    fun e he => List.mem_of_mem_filter he
  constructor
  · rw [Table.remove_rows, h.rows, List.filter_map, Table.remove_rows]
    congr 1
    refine List.filter_congr fun e he => ?_
    simp only [Function.comp_apply, hpq e he]
  · exact fun e he => h.keyed e (hmem e he)
  · exact fun e he => h.keyClean e (hmem e he)
  · exact fun e he => h.storable e (hmem e he)

/-- The record in a cell is storable. -/
lemma storable_cell {op : Operation} {record : IdempotencyRecord} (hcell : m.cell op = some record) :
    record.Storable :=
  h.storable _ (OrderedMap.get_eq_some_iff.mp hcell)

/-- The record in a cell is the one of the operation. -/
lemma op_of_cell {op : Operation} (hkey : 0x00 ∉ op.key) {record : IdempotencyRecord}
    (hcell : m.cell op = some record) : record.scope = op.scope ∧ record.key = op.key := by
  have he := OrderedMap.get_eq_some_iff.mp hcell
  simpa using (h.key_iff he hkey).mpr rfl

/-- **`begin`**: the claiming statement and the classification of a refused claim decide as the memory
store does. -/
lemma begin {op : Operation} (hkey : 0x00 ∉ op.key) (opts : BeginOptions) :
    (∃ fence t', beginSql t op.columns opts.columns = (some fence, t')
        ∧ (m.begin op opts).1 = .Acquired fence ∧ Mirrors (m.begin op opts).2 t')
      ∨ ∃ out, beginSql t op.columns opts.columns = (none, t) ∧ m.begin op opts = (out, m)
        ∧ ∀ (X : Type) (d : SqlDialect),
          d.classify (X := X) op opts (selectSql t op.scope op.key) = some (.ok out) := by
  have hlookup : t.lookup (op.columns.scope, op.columns.key) = m.rowAt op := h.lookup hkey
  rw [beginSql_eq, selectSql, h.lookup hkey, hlookup]
  rcases m.begin_row op opts with ⟨hclaim, hm⟩ | ⟨record, hcell, hclaim, hm⟩
  · refine Or.inl ⟨_, _, if_pos hclaim, by rw [hm], ?_⟩
    rw [hm]
    exact h.set (MemoryStore.newRecord op opts _) hkey ⟨nofun, fun _ => ⟨rfl, rfl⟩⟩
  · rw [MemoryStore.rowAt, hcell, Option.map_some]
    refine Or.inr ⟨_, if_neg (by rw [hclaim]; decide), hm, fun X d => ?_⟩
    refine (classifier d op opts).settles _ _ hclaim ?_
    rw [rowToRecord_recordToRow (h.storable_cell hcell), Option.map_some]

/-- **`complete`**: the completing statement and the classification of a refused write decide as the
memory store does. -/
lemma complete {op : Operation} (hkey : 0x00 ∉ op.key) (fence : ℤ) (result : Completion) (now : ℤ) :
    (∃ f t', completeSql t op.scope op.key fence now result.columns = (some f, t')
        ∧ (m.complete op fence result now).1 = .Ok ∧ Mirrors (m.complete op fence result now).2 t')
      ∨ completeSql t op.scope op.key fence now result.columns = (none, t)
        ∧ m.complete op fence result now
          = (completeStatus fence now (selectSql t op.scope op.key), m) := by
  rw [completeSql_eq, selectSql, h.lookup hkey]
  rcases m.complete_row op fence result now with ⟨record, hcell, hstate, hsel, hm⟩ | ⟨hsel, hm⟩
  · have hfilter : (m.rowAt op).filter (RecordRow.completable fence now)
        = some (recordToRow record) := by
      rw [MemoryStore.rowAt, hcell]
      exact if_pos hsel
    have hst := h.storable_cell hcell
    obtain ⟨hscope, hk⟩ := h.op_of_cell hkey hcell
    refine Or.inl ⟨_, _, by rw [hfilter], by rw [hm], ?_⟩
    have hset := h.set (MemoryStore.storeCompletion record result)
      (by cases result <;> exact hk ▸ hkey) (storable_storeCompletion hst result)
    rw [hm, completedRow_recordToRow hst hstate, MemoryStore.withCell, ← hscope, ← hk]
    cases result <;> exact hset
  · exact Or.inr ⟨by rw [hsel], hm⟩

/-- **`abandon`**: the deleting statement and the classification of a refused one decide as the memory
store does. -/
lemma abandon {op : Operation} (hkey : 0x00 ∉ op.key) (fence : ℤ) :
    (∃ f t', abandonSql t op.scope op.key fence = (some f, t')
        ∧ (m.abandon op fence).1 = .Ok ∧ Mirrors (m.abandon op fence).2 t')
      ∨ abandonSql t op.scope op.key fence = (none, t)
        ∧ m.abandon op fence = (abandonStatus fence (selectSql t op.scope op.key), m) := by
  rw [abandonSql_eq, selectSql, h.lookup hkey]
  rcases m.abandon_row op fence with ⟨record, hcell, hsel, hm⟩ | ⟨hsel, hm⟩
  · have hfilter : (m.rowAt op).filter (RecordRow.abandonable fence) = some (recordToRow record) := by
      rw [MemoryStore.rowAt, hcell]
      exact if_pos hsel
    refine Or.inl ⟨_, _, by rw [hfilter], by rw [hm], ?_⟩
    rw [hm]
    exact h.remove fun e he => by simp only [h.key_iff he hkey]
  · exact Or.inr ⟨by rw [hsel], hm⟩

/-- **`get`**: the row selected reads as the record the memory store shows. -/
lemma get {op : Operation} (hkey : 0x00 ∉ op.key) (now : ℤ) :
    (getSql t op.scope op.key now = none ∧ m.get op now = none)
      ∨ ∃ row record, getSql t op.scope op.key now = some row ∧ m.get op now = some record
        ∧ ∀ X : Type, readRow (X := X) row = .ok record := by
  rw [getSql_eq, m.get_eq, h.lookup hkey, MemoryStore.rowAt]
  cases hcell : m.cell op with
  | none => exact Or.inl ⟨rfl, rfl⟩
  | some record =>
      by_cases hlive : now < record.expiresAt
      · refine Or.inr ⟨recordToRow record, record, ?_, ?_, fun X => ?_⟩
        · simp [ClaimModel.live, Option.filter, recordToRow_expiresAt, hlive]
        · simp [ClaimModel.live, Option.filter, hlive]
        · rw [readRow, rowToRecord_recordToRow (h.storable_cell hcell)]
      · exact Or.inl (by simp [ClaimModel.live, Option.filter, recordToRow_expiresAt, hlive])

lemma purge (now : ℤ) : (purgeSql t now).1 = (m.purge now).1
    ∧ Mirrors (m.purge now).2 (purgeSql t now).2 := by
  rw [m.purge_eq]
  refine ⟨?_, h.remove fun e _ => rfl⟩
  show t.rows.countP _ = m.records.rows.countP _
  rw [h.rows, List.countP_map]
  rfl

lemma physicallyRemove {op : Operation} (hkey : 0x00 ∉ op.key) :
    Mirrors (m.physicallyRemove op) (removeSql t op.scope op.key).2 :=
  h.remove fun e he => by simp only [h.key_iff he hkey]

end Mirrors

/-! ## The methods against a table that answers -/

section Exec

variable {T X Err Rec : Type} [DecidableEq T] (t : Records T)

lemma exec_beginAttempt (claim : ClaimColumns T) (terms : TermColumns)
    (beginFailed selectFailed : X → Err)
    (classify : Option (RecordRow T) → Option (Except Err (BeginOutcome Rec))) :
    exec sqlMachine (beginAttempt claim terms beginFailed selectFailed classify) t
      = match beginSql t claim terms with
        | (some fence, t') => (some (.ok (.Acquired fence)), t')
        | (none, t') => (classify (selectSql t' claim.scope claim.key), t') := by
  show exec sqlMachine (match (.ok (beginSql t claim terms).1 : SqlReply X (.Begin claim terms)) with
    | .error err => _ | .ok (some fence) => _ | .ok none => _) (beginSql t claim terms).2 = _
  rcases beginSql t claim terms with ⟨_ | fence, t'⟩
  · rfl
  · rfl

lemma exec_completeProgram (scope key : T) (fence now : ℤ) (result : ResultColumns T)
    (writeFailed selectFailed : X → Err) :
    exec sqlMachine (completeProgram scope key fence now result writeFailed selectFailed) t
      = match completeSql t scope key fence now result with
        | (some _, t') => (.ok .Ok, t')
        | (none, t') => (.ok (completeStatus fence now (selectSql t' scope key)), t') := by
  show exec sqlMachine (match (.ok (completeSql t scope key fence now result).1 :
      SqlReply X (.Complete scope key fence now result)) with
    | .error err => _ | .ok (some _) => _ | .ok none => _)
    (completeSql t scope key fence now result).2 = _
  rcases completeSql t scope key fence now result with ⟨_ | f, t'⟩
  · rfl
  · rfl

lemma exec_abandonProgram (scope key : T) (fence : ℤ) (writeFailed selectFailed : X → Err) :
    exec sqlMachine (abandonProgram scope key fence writeFailed selectFailed) t
      = match abandonSql t scope key fence with
        | (some _, t') => (.ok .Ok, t')
        | (none, t') => (.ok (abandonStatus fence (selectSql t' scope key)), t') := by
  show exec sqlMachine (match (.ok (abandonSql t scope key fence).1 :
      SqlReply X (.Abandon scope key fence)) with
    | .error err => _ | .ok (some _) => _ | .ok none => _) (abandonSql t scope key fence).2 = _
  rcases abandonSql t scope key fence with ⟨_ | f, t'⟩
  · rfl
  · rfl

lemma exec_getProgram (scope key : T) (now : ℤ) (failed : X → Err)
    (read : RecordRow T → Except Err Rec) :
    exec sqlMachine (getProgram scope key now failed read) t
      = (match getSql t scope key now with
        | none => .ok none
        | some row => (read row).map some, t) := by
  show exec sqlMachine (match (.ok (getSql t scope key now) : SqlReply X (.Get scope key now)) with
    | .error err => _ | .ok none => _ | .ok (some row) => _) t = _
  cases getSql t scope key now with
  | none => rfl
  | some row => rfl

end Exec

/-! ## Sequences of calls -/

/-- The key of the call, if it has one, has no U+0000. -/
def StoreCall.KeyClean : StoreCall Operation BeginOptions Completion → Prop
  | .Begin op _ => 0x00 ∉ op.key
  | .Complete op _ _ _ => 0x00 ∉ op.key
  | .Abandon op _ => 0x00 ∉ op.key
  | .Get op _ => 0x00 ∉ op.key
  | .Purge _ => True
  | .PhysicallyRemove op => 0x00 ∉ op.key

instance : DecidablePred StoreCall.KeyClean
  | .Begin op _ => inferInstanceAs (Decidable (0x00 ∉ op.key))
  | .Complete op _ _ _ => inferInstanceAs (Decidable (0x00 ∉ op.key))
  | .Abandon op _ => inferInstanceAs (Decidable (0x00 ∉ op.key))
  | .Get op _ => inferInstanceAs (Decidable (0x00 ∉ op.key))
  | .Purge _ => inferInstanceAs (Decidable True)
  | .PhysicallyRemove op => inferInstanceAs (Decidable (0x00 ∉ op.key))

/-- The memory store as a machine; it never throws. -/
def memoryMachine {E : Type} (c : StoreCall Operation BeginOptions Completion) (m : MemoryStore) :
    Except E (StoreReply IdempotencyRecord c) × MemoryStore :=
  (.ok (memoryClaims.apply m c).1, (memoryClaims.apply m c).2)

/-- **`PostgresStore` and `D1Store` simulate the memory store.** -/
theorem SqlDialect.simulates {X : Type} (d : SqlDialect) :
    Simulates StoreCall.KeyClean (memoryMachine (E := SqlFailure X))
      (fun c => exec sqlMachine (d.program c)) Mirrors := by
  intro c m t hkey h
  cases c with
  | Begin op opts =>
      rcases h.begin hkey opts with ⟨fence, t', hsql, hreply, hnext⟩ | ⟨out, hsql, hm, hclass⟩
      · have hattempt : exec sqlMachine (beginAttempt op.columns opts.columns .Driver .Driver
            (d.classify (X := X) op opts)) t = (some (.ok (.Acquired fence)), t') := by
          rw [exec_beginAttempt, hsql]
        show (exec sqlMachine (Prog.retry _ _ 3) t).1 = _ ∧ Mirrors _ (exec _ (Prog.retry _ _ 3) t).2
        rw [exec_retry _ hattempt]
        exact ⟨congrArg Except.ok hreply.symm, hnext⟩
      · have hattempt : exec sqlMachine (beginAttempt op.columns opts.columns .Driver .Driver
            (d.classify (X := X) op opts)) t = (some (.ok out), t) := by
          rw [exec_beginAttempt, hsql]
          exact congrArg (·, t) (hclass X d)
        show (exec sqlMachine (Prog.retry _ _ 3) t).1 = _ ∧ Mirrors _ (exec _ (Prog.retry _ _ 3) t).2
        rw [exec_retry _ hattempt]
        show Except.ok out = Except.ok (m.begin op opts).1 ∧ Mirrors (m.begin op opts).2 t
        rw [hm]
        exact ⟨rfl, h⟩
  | Complete op fence result now =>
      show (exec sqlMachine (completeProgram _ _ _ _ _ _ _) t).1
          = Except.ok (m.complete op fence result now).1
        ∧ Mirrors (m.complete op fence result now).2 (exec _ (completeProgram _ _ _ _ _ _ _) t).2
      rw [exec_completeProgram]
      rcases h.complete hkey fence result now with ⟨f, t', hsql, hreply, hnext⟩ | ⟨hsql, hm⟩
      · rw [hsql, hreply]
        exact ⟨rfl, hnext⟩
      · rw [hsql, hm]
        exact ⟨rfl, h⟩
  | Abandon op fence =>
      show (exec sqlMachine (abandonProgram _ _ _ _ _) t).1 = Except.ok (m.abandon op fence).1
        ∧ Mirrors (m.abandon op fence).2 (exec _ (abandonProgram _ _ _ _ _) t).2
      rw [exec_abandonProgram]
      rcases h.abandon hkey fence with ⟨f, t', hsql, hreply, hnext⟩ | ⟨hsql, hm⟩
      · rw [hsql, hreply]
        exact ⟨rfl, hnext⟩
      · rw [hsql, hm]
        exact ⟨rfl, h⟩
  | Get op now =>
      show (exec sqlMachine (getProgram _ _ _ _ _) t).1 = Except.ok (m.get op now)
        ∧ Mirrors m (exec _ (getProgram _ _ _ _ _) t).2
      rw [exec_getProgram]
      rcases h.get hkey now with ⟨hsql, hm⟩ | ⟨row, record, hsql, hm, hread⟩
      · rw [hsql, hm]
        exact ⟨rfl, h⟩
      · rw [hsql, hm]
        exact ⟨congrArg (Except.map some) (hread X), h⟩
  | Purge now =>
      obtain ⟨hcount, hnext⟩ := h.purge now
      exact ⟨congrArg Except.ok hcount, hnext⟩
  | PhysicallyRemove op => exact ⟨rfl, h.physicallyRemove hkey⟩

namespace IdempotencyObject

/-- The object as a machine: each call comes with the wall clock at that call. -/
def machine {X : Type} (p : Wall × StoreCall Operation BeginOptions Completion)
    (o : IdempotencyObject) :
    Except (SqlFailure X) (StoreReply IdempotencyRecord p.2) × IdempotencyObject :=
  o.apply p.1 p.2

/-- **`IdempotencyObject` simulates the memory store**, whatever the wall clock shows. -/
theorem simulates {X : Type} :
    Simulates (fun p : Wall × StoreCall Operation BeginOptions Completion => p.2.KeyClean)
      (fun p => memoryMachine p.2) (machine (X := X))
      (fun (m : MemoryStore) (o : IdempotencyObject) => Mirrors m o.records) := by
  rintro ⟨wall, c⟩ m o hkey h
  cases c with
  | Begin op opts =>
      rcases h.begin hkey opts with ⟨fence, t', hsql, hreply, hnext⟩ | ⟨out, hsql, hm, hclass⟩
      · have hbegin : o.begin (X := X) wall op opts = (.ok (.Acquired fence),
            { o with records := t' }.scheduleSweep wall op.scope op.key (opts.now + opts.ttlMs)
              opts.now) := by
          rw [begin, beginLoop, beginAttempt, hsql]
        show (o.begin (X := X) wall op opts).1 = _ ∧ Mirrors _ (o.begin (X := X) wall op opts).2.records
        rw [hbegin]
        exact ⟨congrArg Except.ok hreply.symm, hnext⟩
      · have hbegin : o.begin (X := X) wall op opts = (.ok out, o) := by
          have hclass : D1Store.classify (X := X) op opts _ = _ := hclass X .D1
          simp only [begin, beginLoop, beginAttempt, hsql, hclass]
        show (o.begin (X := X) wall op opts).1 = _ ∧ Mirrors _ (o.begin (X := X) wall op opts).2.records
        rw [hbegin]
        show Except.ok out = Except.ok (m.begin op opts).1 ∧ Mirrors (m.begin op opts).2 o.records
        rw [hm]
        exact ⟨rfl, h⟩
  | Complete op fence result now =>
      show Except.ok (o.complete op fence result now).1 = Except.ok (m.complete op fence result now).1
        ∧ Mirrors (m.complete op fence result now).2 (o.complete op fence result now).2.records
      rw [complete]
      rcases h.complete hkey fence result now with ⟨f, t', hsql, hreply, hnext⟩ | ⟨hsql, hm⟩
      · rw [hsql, hreply]
        exact ⟨rfl, hnext⟩
      · rw [hsql, hm]
        exact ⟨rfl, h⟩
  | Abandon op fence =>
      show Except.ok (o.abandon op fence).1 = Except.ok (m.abandon op fence).1
        ∧ Mirrors (m.abandon op fence).2 (o.abandon op fence).2.records
      rw [abandon]
      rcases h.abandon hkey fence with ⟨f, t', hsql, hreply, hnext⟩ | ⟨hsql, hm⟩
      · rw [hsql, hreply]
        exact ⟨rfl, hnext⟩
      · rw [hsql, hm]
        exact ⟨rfl, h⟩
  | Get op now =>
      show o.get (X := X) op now = Except.ok (m.get op now) ∧ Mirrors m o.records
      rw [get]
      rcases h.get hkey now with ⟨hsql, hm⟩ | ⟨row, record, hsql, hm, hread⟩
      · rw [hsql, hm]
        exact ⟨rfl, h⟩
      · rw [hsql, hm]
        exact ⟨congrArg (Except.map some) (hread X), h⟩
  | Purge now =>
      obtain ⟨hcount, hnext⟩ := h.purge now
      exact ⟨congrArg Except.ok hcount, hnext⟩
  | PhysicallyRemove op => exact ⟨rfl, h.physicallyRemove hkey⟩

end IdempotencyObject

/-- **The SQL stores refine the memory store.**  To every finite sequence of calls whose keys have no
U+0000, made one after another on stores that are empty at first, `PostgresStore`, `D1Store` and
`IdempotencyObject` give the replies `MemoryStore` gives: the same outcome, fence, status, count and
record at every step.  No call throws. -/
theorem sql_stores_refine_memory (X : Type) :
    (∀ (d : SqlDialect) (calls : List (StoreCall Operation BeginOptions Completion)),
        (∀ c ∈ calls, c.KeyClean) →
        replies (fun c => exec sqlMachine (d.program (X := X) c)) calls Table.empty
          = replies memoryMachine calls MemoryStore.empty)
      ∧ ∀ calls : List (Wall × StoreCall Operation BeginOptions Completion),
        (∀ p ∈ calls, p.2.KeyClean) →
        replies (IdempotencyObject.machine (X := X)) calls IdempotencyObject.empty
          = replies (fun p => memoryMachine p.2) calls MemoryStore.empty :=
  ⟨fun d _ hcalls => d.simulates.replies_eq hcalls mirrors_empty,
    fun _ hcalls => IdempotencyObject.simulates.replies_eq hcalls mirrors_empty⟩

/-- A claim, a duplicate, a takeover, the first holder too late, and a purge. -/
def lapseCalls : List (StoreCall Operation BeginOptions Completion) :=
  [.Begin raceOp ⟨10, 100, 0⟩, .Begin raceOp ⟨10, 100, 5⟩, .Begin raceOp ⟨10, 100, 10⟩,
    .Abandon raceOp 1, .Purge 200]

/-- What every store answers to them. -/
def lapseReplies : List (Event (StoreCall Operation BeginOptions Completion) fun c =>
    Except (SqlFailure Unit) (StoreReply IdempotencyRecord c)) :=
  [⟨.Begin raceOp ⟨10, 100, 0⟩, .ok (.Acquired 1)⟩, ⟨.Begin raceOp ⟨10, 100, 5⟩, .ok (.InFlight 10)⟩,
    ⟨.Begin raceOp ⟨10, 100, 10⟩, .ok (.Acquired 2)⟩, ⟨.Abandon raceOp 1, .ok .StaleFence⟩,
    ⟨.Purge 200, .ok 1⟩]

theorem sql_stores_refine_memory_lapse :
    replies (fun c => exec sqlMachine (SqlDialect.Postgres.program c)) lapseCalls Table.empty
        = lapseReplies
      ∧ (replies IdempotencyObject.machine (lapseCalls.map fun c => (⟨7, 60000⟩, c))
          IdempotencyObject.empty).map (fun ev => ⟨ev.1.2, ev.2⟩) = lapseReplies := by
  have hclean : ∀ c ∈ lapseCalls, c.KeyClean := by decide
  refine ⟨?_, ?_⟩
  · rw [(sql_stores_refine_memory Unit).1 .Postgres lapseCalls hclean]
    rfl
  · rw [(sql_stores_refine_memory Unit).2 _ fun p hp => ?_]
    · rfl
    · obtain ⟨c, hc, rfl⟩ := List.mem_map.mp hp
      exact hclean c hc

end Anyonce
