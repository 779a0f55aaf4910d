import Anyonce.Redis.Refinement
import Anyonce.Store.Isolation

/-!
# Persisted results round trip

A result has parts that may be absent, empty or there, and each store writes them its own way: SQL
`NULL`, a missing attribute, the sentinel `-`.  `RoundTrips` says that none of this shows.  In every
state in which a store grants a claim, completing the claim with a result and reading the record back,
with `get` or with the `begin` of a duplicate, gives exactly the result the memory store gives.

What a persistent store has to do for it is `KeepsRows`: a granted claim leaves the row of the claim,
`complete` the row with the result columns, and the reads show the record of the row.  The codec does
the rest (`rowToRecord_completedRow`).

* `persisted_results_round_trip` — all stores.
-/

namespace Anyonce

open Ecma Interaction Relational

/-! ## Results -/

/-- The result the memory store keeps: a copy, without a body for the omitted form. -/
def Completion.stored : Completion → StoredResult
  | .Stored result => copyResult result
  | .Omitted result => omittedToStored result

/-- `resultOmitted` of the record: set for the omitted form, absent otherwise. -/
def Completion.omittedFlag : Completion → Option Bool
  | .Stored _ => none
  | .Omitted _ => some true

/-- **The row codec keeps a result**: the record of a completed row has the result and the flag the
memory store has. -/
lemma rowToRecord_completedRow (result : Completion) (row : RecordRow JsString) :
    ∃ record, rowToRecord (completedRow result.columns row) = some record
      ∧ record.result = some result.stored ∧ record.resultOmitted = result.omittedFlag := by
  have hmeta := decodeResultMeta_encodeResultMeta result
  cases result with
  | Stored r =>
      refine ⟨_, by
        simp only [rowToRecord, rowResult, completedRow, Completion.columns, hmeta]
        rfl, ?_, rfl⟩
      cases hbody : r.body with
      | none => simp [Completion.withoutBody, Completion.stored, ← hbody]
      | some body => simp [Completion.withoutBody, Completion.stored, ← hbody]
  | Omitted r =>
      refine ⟨_, by
        simp only [rowToRecord, rowResult, completedRow, Completion.columns, hmeta]
        rfl, ?_, rfl⟩
      rfl

/-! ## What is asked of a store -/

section

variable {W S E : Type}
variable (valid : S → Prop)
variable (step : W → (c : Call) → S → Except E (StoreReply IdempotencyRecord c) × S)

/-- A claim that is granted, completed and read back, from any valid state and at any times before the
record expires: the record has the stored result and the flag, and a duplicate gets the same
record. -/
def RoundTrips (op : Operation) (opts : BeginOptions) (result : Completion) : Prop :=
  ∀ (w w' : W) (s : S) (fence now : ℤ), valid s → now < opts.now + opts.ttlMs →
    (step w (.Begin op opts) s).1 = .ok (.Acquired fence) →
    (step w' (.Complete op fence result now) (step w (.Begin op opts) s).2).1 = .ok .Ok ∧
    ∀ (w'' : W) (later : ℤ), later < opts.now + opts.ttlMs → ∃ record : IdempotencyRecord,
      record.result = some result.stored ∧ record.resultOmitted = result.omittedFlag ∧
      (step w'' (.Get op later) (step w' (.Complete op fence result now)
        (step w (.Begin op opts) s).2).2).1 = .ok (some record) ∧
      ∀ opts' : BeginOptions, opts'.now = later →
        (step w'' (.Begin op opts') (step w' (.Complete op fence result now)
          (step w (.Begin op opts) s).2).2).1 = .ok (.Completed record)

/-- The same result, whatever else the records say. -/
def EqualResults (record record' : IdempotencyRecord) : Prop :=
  record'.result = record.result ∧ record'.resultOmitted = record.resultOmitted

/-- A store that keeps the row of a claim: `holds s row` says that it has this row for the
operation. -/
structure KeepsRows (op : Operation) (opts : BeginOptions) (result : Completion)
    (holds : S → RecordRow JsString → Prop) : Prop where
  granted : ∀ {w s fence}, valid s → (step w (.Begin op opts) s).1 = .ok (.Acquired fence) →
    holds (step w (.Begin op opts) s).2 (claimRow op.columns opts.columns fence)
  completed : ∀ {w s row fence now}, holds s row → row.completable fence now = true →
    (step w (.Complete op fence result now) s).1 = .ok .Ok ∧
      holds (step w (.Complete op fence result now) s).2 (completedRow result.columns row)
  shown : ∀ {w s row record} {now : ℤ}, holds s row → now < row.expiresAt → row.state = .Completed →
    row.fingerprint = op.fingerprint → rowToRecord row = some record →
    ∃ record', EqualResults record record' ∧ (step w (.Get op now) s).1 = .ok (some record') ∧
      ∀ opts' : BeginOptions, opts'.now = now →
        (step w (.Begin op opts') s).1 = .ok (.Completed record')

variable {valid step}

/-- **A store that keeps rows round trips.** -/
theorem KeepsRows.roundTrips {op : Operation} {opts : BeginOptions} {result : Completion}
    {holds : S → RecordRow JsString → Prop} (h : KeepsRows valid step op opts result holds) :
    RoundTrips valid step op opts result := by
  intro w w' s fence now hvalid hnow hbegin
  have hclaim := h.granted hvalid hbegin
  have hcompletable : (claimRow op.columns opts.columns fence).completable fence now = true := by
    simp [RecordRow.completable, claimRow, BeginOptions.columns, hnow]
  obtain ⟨hreply, hcompleted⟩ := h.completed (w := w') hclaim hcompletable
  obtain ⟨record, hread, hresult, homitted⟩ :=
    rowToRecord_completedRow result (claimRow op.columns opts.columns fence)
  refine ⟨hreply, ?_⟩
  intro w'' later hlater
  obtain ⟨record', hsame, hget, hduplicate⟩ := h.shown (w := w'') hcompleted hlater rfl rfl hread
  exact ⟨record', hsame.1.trans hresult, hsame.2.trans homitted, hget, hduplicate⟩

end

/-! ## Rows that a claim finds -/

/-- A completed row that is live is not claimable. -/
lemma not_claimable_of_completed {op : Operation} {opts : BeginOptions} {row : RecordRow JsString}
    (hlive : opts.now < row.expiresAt) (hstate : row.state = .Completed) :
    (rowModel JsString).claimable op.columns opts.columns (some row) = false := by
  rw [← Bool.not_eq_true, ClaimModel.claimable_some]
  rintro (hexp | ⟨-, hst, -⟩)
  · exact absurd hlive (not_lt.mpr hexp)
  · cases hst.symm.trans hstate

/-! ## The memory store -/

/-- **The memory store returns the result it was given.** -/
lemma memory_keepsRows (op : Operation) (opts : BeginOptions) (result : Completion) :
    KeepsRows (fun _ => True) (fun _ : Unit => memoryMachine (E := Empty)) op opts result fun m row =>
      ∃ record, m.cell op = some record ∧ record.Storable ∧ recordToRow record = row where
  granted := by
    intro _ m fence _ hbegin
    have hreply : (m.begin op opts).1 = .Acquired fence := Except.ok.inj hbegin
    show ∃ record, (m.begin op opts).2.cell op = some record ∧ _
    rcases m.begin_row op opts with ⟨-, hm⟩ | ⟨record, -, -, hm⟩
    · rw [hm] at hreply ⊢
      cases hreply
      refine ⟨MemoryStore.newRecord op opts ((rowModel JsString).nextFence (m.rowAt op)), ?_,
        ⟨nofun, fun _ => ⟨rfl, rfl⟩⟩, rfl⟩
      rw [MemoryStore.cell, OrderedMap.get_setCell, if_pos rfl]
    · rw [hm] at hreply
      exact absurd hreply ClaimModel.classify_ne_acquired
  completed := by
    rintro _ m row fence now ⟨record, hcell, hst, rfl⟩ hsel
    show (Except.ok (m.complete op fence result now).1 : Except Empty _) = _ ∧
      ∃ record', (m.complete op fence result now).2.cell op = some record' ∧ _
    rcases m.complete_row op fence result now with ⟨found, hfound, hstate, -, hm⟩ | ⟨hnone, -⟩
    · cases hcell.symm.trans hfound
      rw [hm]
      refine ⟨rfl, _, ?_, storable_storeCompletion hst result,
        (completedRow_recordToRow hst hstate result).symm⟩
      rw [MemoryStore.cell, OrderedMap.get_setCell, if_pos rfl]
    · rw [MemoryStore.rowAt, hcell, Option.map_some, Option.filter_some, if_pos hsel] at hnone
      cases hnone
  shown := by
    rintro _ m row record now ⟨found, hcell, hst, rfl⟩ hlive hstate hfp hread
    rw [rowToRecord_recordToRow hst] at hread
    obtain rfl : found = record := Option.some.inj hread
    refine ⟨found, ⟨rfl, rfl⟩, ?_, ?_⟩
    · show (Except.ok (m.get op now) : Except Empty _) = _
      have hlive' : now < found.expiresAt := hlive
      rw [m.get_eq, hcell, ClaimModel.live, Option.filter_some, memoryModel_expiresAt]
      simp [hlive']
    · rintro opts' rfl
      show (Except.ok (m.begin op opts').1 : Except Empty _) = _
      rcases m.begin_row op opts' with ⟨hclaim, -⟩ | ⟨record, hrecord, -, hm⟩
      · rw [MemoryStore.rowAt, hcell, Option.map_some,
          not_claimable_of_completed hlive hstate] at hclaim
        cases hclaim
      · cases hcell.symm.trans hrecord
        have hfp' : found.fingerprint = op.fingerprint := hfp
        have hstate' : found.state = .Completed := hstate
        simp [hm, ClaimModel.classify, hfp', hstate']

/-! ## SQL -/

/-- The turn after the `SELECT` never grants a claim. -/
lemma PostgresStore.classify_ne_acquired {X : Type} (op : Operation) (opts : BeginOptions)
    (existing : Option (RecordRow JsString)) (fence : ℤ) :
    classify (X := X) op opts existing ≠ some (.ok (.Acquired fence)) := by
  cases existing with
  | none => simp [classify]
  | some row =>
      simp only [classify]
      cases readRow (X := X) row with
      | error err => split_ifs <;> simp
      | ok record => split_ifs <;> simp

section Sql

variable {X : Type} (op : Operation) (opts : BeginOptions) (unsettled : SqlFailure X)
variable (t : Records JsString)

/-- A claim on the table: granted with the row written, or refused with the table as it was. -/
lemma exec_begin_cases :
    ((rowModel JsString).claimable op.columns opts.columns (t.lookup op.pair) = true
        ∧ ∃ fence, exec sqlMachine (beginProgram op.columns opts.columns .Driver .Driver
          (PostgresStore.classify op opts) unsettled) t
          = (.ok (.Acquired fence), t.put (claimRow op.columns opts.columns fence)))
      ∨ ∃ row, t.lookup op.pair = some row
        ∧ exec sqlMachine (beginProgram op.columns opts.columns .Driver .Driver
            (PostgresStore.classify op opts) unsettled) t
          = ((PostgresStore.classify op opts (some row)).getD (.error unsettled), t) := by
  have hattempt := exec_beginAttempt t op.columns opts.columns (SqlFailure.Driver (X := X))
    SqlFailure.Driver (PostgresStore.classify op opts)
  rw [beginSql_eq] at hattempt
  cases hclaim : (rowModel JsString).claimable op.columns opts.columns
      (t.lookup (op.columns.scope, op.columns.key)) with
  | true =>
      rw [if_pos hclaim] at hattempt
      exact Or.inl ⟨hclaim, _, exec_retry _ hattempt⟩
  | false =>
      obtain ⟨row, hrow, -, -⟩ := ClaimModel.not_claimable hclaim
      rw [if_neg (by rw [← Bool.not_eq_true] at hclaim; exact hclaim)] at hattempt
      have hselect : selectSql t op.columns.scope op.columns.key = some row := hrow
      dsimp only at hattempt
      rw [hselect] at hattempt
      refine Or.inr ⟨row, hrow, ?_⟩
      cases hclass : PostgresStore.classify (X := X) op opts (some row) with
      | none =>
          rw [hclass] at hattempt
          exact exec_retry_none _ hattempt 3
      | some out =>
          rw [hclass] at hattempt
          exact exec_retry _ hattempt

/-- **Methods over the shared statements keep rows.** -/
lemma sql_keepsRows (result : Completion) {W : Type}
    {program : (c : Call) → SqlProg JsString X (Except (SqlFailure X) (StoreReply IdempotencyRecord c))}
    (hbegin : ∀ opts, program (.Begin op opts) = beginProgram op.columns opts.columns .Driver .Driver
      (PostgresStore.classify op opts) unsettled)
    (hcomplete : ∀ fence now, program (.Complete op fence result now)
      = completeProgram op.scope op.key fence now result.columns .Driver .Driver)
    (hget : ∀ now, program (.Get op now) = getProgram op.scope op.key now .Driver readRow) :
    KeepsRows (fun _ => True) (fun (_ : W) c => exec sqlMachine (program c)) op opts result
      fun t row => t.lookup op.pair = some row where
  granted := by
    intro _ t fence _ hacquired
    rw [hbegin] at hacquired ⊢
    rcases exec_begin_cases op opts unsettled t with ⟨-, fence', hexec⟩ | ⟨row, -, hexec⟩
    · rw [hexec] at hacquired ⊢
      cases hacquired
      exact (Table.lookup_put _ _ _).trans (if_pos rfl)
    · rw [hexec] at hacquired
      cases hclass : PostgresStore.classify (X := X) op opts (some row) with
      | none =>
          rw [hclass] at hacquired
          cases hacquired
      | some out =>
          rw [hclass] at hacquired
          cases hacquired
          exact absurd hclass (PostgresStore.classify_ne_acquired op opts _ _)
  completed := by
    intro _ t row fence now hrow hsel
    have hfound : (t.lookup (op.scope, op.key)).filter (RecordRow.completable fence now)
        = some row := by
      rw [show t.lookup (op.scope, op.key) = some row from hrow, Option.filter_some, if_pos hsel]
    have hfoundKey : row.primaryKey = op.pair := Table.key_of_lookup hrow
    have hkey : (completedRow result.columns row).primaryKey = op.pair := hfoundKey
    rw [hcomplete, exec_completeProgram, completeSql_eq, hfound]
    refine ⟨rfl, ?_⟩
    rw [Table.lookup_put, if_pos hkey.symm]
  shown := by
    intro _ t row record now hrow hlive hstate hfp hread
    have hreadRow : readRow (X := X) row = .ok record := by
      rw [readRow, hread]
    refine ⟨record, ⟨rfl, rfl⟩, ?_, ?_⟩
    · have hfound : getSql t op.scope op.key now = some row := by
        rw [getSql_eq, show t.lookup (op.scope, op.key) = some row from hrow, ClaimModel.live,
          Option.filter_some, rowModel_expiresAt, if_pos (decide_eq_true hlive)]
      rw [hget, exec_getProgram, hfound]
      exact congrArg (Except.map some) hreadRow
    · rintro opts' rfl
      have hclass : PostgresStore.classify (X := X) op opts' (some row)
          = some (.ok (.Completed record)) := by
        simp [PostgresStore.classify, not_le.mpr hlive, hreadRow, hfp, hstate]
      rw [hbegin]
      rcases exec_begin_cases op opts' unsettled t with ⟨hclaim, -⟩ | ⟨found, hfound, hexec⟩
      · rw [hrow, not_claimable_of_completed hlive hstate] at hclaim
        cases hclaim
      · cases hrow.symm.trans hfound
        rw [hexec, hclass]
        rfl

end Sql

lemma SqlDialect.keepsRows {X : Type} (d : SqlDialect) (op : Operation) (opts : BeginOptions)
    (result : Completion) :
    KeepsRows (fun _ => True) (fun (_ : Unit) c => exec sqlMachine (d.program (X := X) c)) op opts
      result
      fun t row => t.lookup op.pair = some row := by
  refine sql_keepsRows op opts (.Unsettled d.unsettled) result ?_ ?_ ?_
  · intro opts
    show beginProgram _ _ _ _ (d.classify op opts) _ = _
    rw [d.classify_eq]
  · intro fence now
    rfl
  · intro now
    rfl

/-! ## Durable Objects -/

/-- A store that does to a part of its state what another does keeps rows as that one does. -/
lemma KeepsRows.of_part {W W' S S' E : Type}
    {step : W → (c : Call) → S → Except E (StoreReply IdempotencyRecord c) × S}
    {step' : W' → (c : Call) → S' → Except E (StoreReply IdempotencyRecord c) × S'}
    {op : Operation} {opts : BeginOptions} {result : Completion}
    {holds : S → RecordRow JsString → Prop}
    (h : KeepsRows (fun _ => True) step op opts result holds) (w : W)
    (part : S' → S)
    (hpart : ∀ w' c s, StoreCall.operation c = some op → (step' w' c s).1 = (step w c (part s)).1
      ∧ part (step' w' c s).2 = (step w c (part s)).2) :
    KeepsRows (fun _ => True) step' op opts result fun s row => holds (part s) row where
  granted := by
    intro w' s fence _ hacquired
    obtain ⟨hreply, hnext⟩ := hpart w' (.Begin op opts) s rfl
    rw [hreply] at hacquired
    rw [hnext]
    exact h.granted trivial hacquired
  completed := by
    intro w' s row fence now hrow hsel
    obtain ⟨hreply, hnext⟩ := hpart w' (.Complete op fence result now) s rfl
    rw [hreply, hnext]
    exact h.completed hrow hsel
  shown := by
    intro w' s row record now hrow hlive hstate hfp hread
    obtain ⟨record', hsame, hget, hduplicate⟩ := h.shown (w := w) hrow hlive hstate hfp hread
    refine ⟨record', hsame, ?_, ?_⟩
    · rw [(hpart w' (.Get op now) s rfl).1]
      exact hget
    · intro opts' hopts'
      rw [(hpart w' (.Begin op opts') s rfl).1]
      exact hduplicate opts' hopts'

lemma DurableObjectsStore.keepsRows {X : Type} (store : DurableObjectsStore) (op : Operation)
    (opts : BeginOptions) (result : Completion) :
    KeepsRows (fun _ => True) (fun dateNow => store.apply (X := X) dateNow) op opts result fun w row =>
      (w.objects (store.objectName op)).records.lookup op.pair = some row := by
  have hstatements : KeepsRows (fun _ => True)
      (fun (_ : Unit) c => exec sqlMachine (IdempotencyObject.statements (X := X) c)) op opts result
      fun t row => t.lookup op.pair = some row := by
    refine sql_keepsRows op opts (.Unsettled
      (js "anyonce: durable object begin could not settle after three attempts")) result ?_ ?_ ?_
    · intro opts
      show beginProgram _ _ _ _ (D1Store.classify op opts) _ = _
      rw [show D1Store.classify (X := X) op opts = PostgresStore.classify op opts from
        funext (D1Store.classify_eq op opts)]
    · intro fence now
      rfl
    · intro now
      rfl
  refine hstatements.of_part () (fun w : Worker => (w.objects (store.objectName op)).records) ?_
  intro dateNow c w hop
  obtain ⟨hreply, hrecords⟩ := store.rpc_exec (X := X) hop dateNow w
  rw [store.apply_eq_rpc hop]
  refine ⟨hreply, ?_⟩
  rw [hrecords, if_pos rfl]

/-! ## DynamoDB -/

/-- Every item of a table has its partition key as an attribute. -/
def Keyed (items : Items JsString) : Prop :=
  ∀ pk item, items.get pk = some item → item .Pk = some (.S pk)

/-- The row of an item, up to the scope and the key a separator in the scope would split wrongly. -/
lemma itemToRow_renamed {item : Item JsString} {row : RecordRow JsString} (h : ItemHolds item row) :
    ∃ scope key, itemToRow item = some { row with scope := scope, key := key } := by
  have hmeta : item.text .ResultMeta = row.resultMeta := by
    rw [Item.text, h.resultMeta]
    cases row.resultMeta <;> rfl
  have hbody : item.bytes .ResultBody = row.resultBody := by
    rw [Item.bytes, h.resultBody]
    cases row.resultBody <;> rfl
  have hstate : item.state = some row.state := by
    rw [Item.state, Item.text, h.state]
    exact stateOfText_stateText row.state
  refine ⟨(splitItemKey ((item.text .Pk).getD [])).1, (splitItemKey ((item.text .Pk).getD [])).2, ?_⟩
  rw [itemToRow, hmeta, hbody, hstate]
  simp only [Item.text, Item.number, h.fingerprint, h.fence, h.leaseUntil, h.createdAt, h.expiresAt,
    h.resultOmitted, Option.getD_some]
  rfl

/-- The scope and the key of a row say nothing about its result. -/
lemma rowToRecord_renamed {row : RecordRow JsString} {record : IdempotencyRecord}
    (h : rowToRecord row = some record) (scope key : JsString) :
    rowToRecord { row with scope := scope, key := key }
      = some { record with scope := scope, key := key } := by
  obtain ⟨result, hresult, rfl⟩ := Option.map_eq_some_iff.mp h
  have hsame : rowResult { row with scope := scope, key := key } = some result := hresult
  rw [rowToRecord, hsame]
  rfl

/-- **`BEGIN_UPDATE` leaves the row of the claim on any item**, whatever its attributes were. -/
lemma beginUpdate_holds {old : Option (Item JsString)} {item : Item JsString} (op : Operation)
    (opts : BeginOptions) (ttl : ℤ) {fence : ℤ}
    (hold : ∀ item, old = some item → item .Pk = some (.S (itemKey op)))
    (h : (beginUpdate op.fingerprint opts.now (opts.now + opts.leaseMs) (opts.now + opts.ttlMs)
      ttl).apply (itemKey op) old = some item) (hfence : item.number .Fence = some fence) :
    ItemHolds item (claimRow op.columns opts.columns fence) := by
  have hpk : (old.getD (Item.keyed (itemKey op))) .Pk = some (.S (itemKey op)) := by
    cases old with
    | none => rfl
    | some item => exact hold item rfl
  simp only [Update.apply, beginUpdate, Update.assign, Operand.eval_value, Option.bind_some] at h
  cases heval : (Operand.Plus (.IfNotExists .Fence (.N 0)) (.Value (.N 1))).eval
      (old.getD Item.absent) with
  | none =>
      rw [heval] at h
      cases h
  | some value =>
      rw [heval, Option.bind_some, Option.map_some] at h
      cases h
      have hvalue : value = .N fence := by
        cases value with
        | N n => exact congrArg AttributeValue.N (Option.some.inj hfence)
        | S text => cases hfence
        | B bytes => cases hfence
      subst hvalue
      constructor
      · exact hpk
      all_goals rfl

namespace DynamoDbStore

/-- The turn after a refused write never grants a claim. -/
lemma classify_ne_acquired {X : Type} (op : Operation) (opts : BeginOptions) (item : Item JsString)
    (fence : ℤ) : classify (X := X) op opts item ≠ some (.ok (.Acquired fence)) := by
  unfold classify
  cases itemToRow item with
  | none => simp
  | some row =>
      dsimp only
      cases readItem (X := X) row with
      | error err => split_ifs <;> simp
      | ok record => split_ifs <;> simp

/-- A write that was taken applied its update. -/
lemma apply_of_written {pk : JsString} {cond : Condition JsString} {u : Update JsString}
    {old : Option (Item JsString)} {item : Item JsString} (h : written pk cond u old = .ok item) :
    u.apply pk old = some item := by
  unfold written at h
  split_ifs at h
  cases happly : u.apply pk old with
  | none =>
      rw [happly] at h
      cases h
  | some item' =>
      rw [happly] at h
      cases h
      rfl

/-- A write whose condition holds and whose update applies is taken. -/
lemma written_ok {pk : JsString} {cond : Condition JsString} {u : Update JsString}
    {old : Option (Item JsString)} {item : Item JsString}
    (hcond : cond.holds (old.getD Item.absent) = true) (happly : u.apply pk old = some item) :
    written pk cond u old = .ok item := by
  rw [written, if_pos hcond, happly]

/-- What the write of a claim comes to on the table. -/
abbrev claimed (store : DynamoDbStore) (wall : ℤ) (op : Operation) (opts : BeginOptions)
    (old : Option (Item JsString)) : Except (WriteError JsString) (Item JsString) :=
  written (itemKey op) (beginCondition op.fingerprint opts.now)
    (beginUpdate op.fingerprint opts.now (opts.now + opts.leaseMs) (opts.now + opts.ttlMs)
      ((wall + opts.ttlMs + store.grace) / 1000)) old

variable (store : DynamoDbStore) (wall : ℤ) (op : Operation) (opts : BeginOptions)
variable (items : Items JsString)

/-- One turn of the loop on the table. -/
lemma exec_attempt : exec (dynamoMachine wall) (store.beginAttempt op opts) items
    = (afterBegin op opts ((store.claimed wall op opts (items.get (itemKey op))).mapError .Service),
      match store.claimed wall op opts (items.get (itemKey op)) with
      | .ok item => items.set (itemKey op) item
      | .error _ => items) := by
  show (afterBegin op opts ((updateItem items _ _ _).1.mapError .Service), (updateItem items _ _ _).2)
    = _
  rw [updateItem_eq]
  rfl

/-- A claim that the table takes. -/
lemma exec_begin_ok {item : Item JsString}
    (h : store.claimed wall op opts (items.get (itemKey op)) = .ok item) :
    exec (dynamoMachine wall) (store.begin op opts) items
      = (match item.number .Fence with
        | some fence => .ok (.Acquired fence)
        | none => .error .Malformed, items.set (itemKey op) item) := by
  have hattempt := store.exec_attempt wall op opts items
  rw [h] at hattempt
  cases hfence : item.number .Fence with
  | some fence =>
      simp only [Except.mapError, afterBegin, hfence] at hattempt
      exact exec_retry _ hattempt
  | none =>
      simp only [Except.mapError, afterBegin, hfence] at hattempt
      exact exec_retry _ hattempt

/-- A claim that the table refuses. -/
lemma exec_begin_error {err : WriteError JsString}
    (h : store.claimed wall op opts (items.get (itemKey op)) = .error err) :
    exec (dynamoMachine wall) (store.begin op opts) items
      = ((afterBegin op opts (.error (.Service err))).getD (.error (.Raised unsettled)), items) := by
  have hattempt := store.exec_attempt wall op opts items
  rw [h] at hattempt
  simp only [Except.mapError] at hattempt
  cases hafter : afterBegin op opts (.error (.Service err)) with
  | none =>
      rw [hafter] at hattempt
      exact exec_retry_none _ hattempt 3
  | some out =>
      rw [hafter] at hattempt
      exact exec_retry _ hattempt

/-- A refused write never grants a claim. -/
lemma refused_ne_acquired (err : WriteError JsString) (fence : ℤ) :
    (afterBegin (X := Unit) op opts (.error (.Service err))).getD (.error (.Raised unsettled))
      ≠ .ok (.Acquired fence) := by
  rcases err with (_ | item) | _
  · simp [afterBegin]
  · intro h
    cases hclass : classify (X := Unit) op opts item with
    | none => simp [afterBegin, hclass] at h
    | some out =>
        rw [afterBegin, hclass, Option.getD_some] at h
        exact classify_ne_acquired op opts item fence (hclass.trans (congrArg some h))
  · simp [afterBegin]

/-- **The DynamoDB store keeps rows**, for bodies up to its limit. -/
lemma keepsRows (result : Completion)
    (hlimit : (result.storedBody.getD []).length ≤ dynamodbMaxResultBytes) :
    KeepsRows Keyed (fun wall c => exec (dynamoMachine wall) (store.program c)) op opts result
      fun items row => ∃ item, items.get (itemKey op) = some item ∧ ItemHolds item row where
  granted := by
    intro wall items fence hkeyed hacquired
    change (exec (dynamoMachine wall) (store.begin op opts) items).1 = _ at hacquired
    show ∃ item, OrderedMap.get (exec (dynamoMachine wall) (store.begin op opts) items).2 _ = _ ∧ _
    cases hwrite : store.claimed wall op opts (items.get (itemKey op)) with
    | ok item =>
        rw [store.exec_begin_ok wall op opts items hwrite] at hacquired ⊢
        cases hfence : item.number .Fence with
        | none =>
            rw [hfence] at hacquired
            cases hacquired
        | some fence' =>
            rw [hfence] at hacquired
            cases hacquired
            refine ⟨item, by simp, ?_⟩
            exact beginUpdate_holds op opts _ (hkeyed (itemKey op)) (apply_of_written hwrite) hfence
    | error err =>
        rw [store.exec_begin_error wall op opts items hwrite] at hacquired
        exact absurd hacquired (refused_ne_acquired op opts err fence)
  completed := by
    rintro wall items row fence now ⟨item, hitem, hholds⟩ hsel
    obtain ⟨item', happly, hholds'⟩ := completeUpdate_apply hholds (itemKey op) result
    have hcond : (completeCondition fence now).holds ((items.get (itemKey op)).getD Item.absent)
        = true := by
      rw [hitem, completeCondition_holds (Option.Rel.some hholds)]
      exact hsel
    have hwrite : updateItem items (itemKey op) (completeCondition fence now)
        (completeUpdate (encodeResultMeta result) result.isOmitted result.storedBody)
        = (.ok item', items.set (itemKey op) item') := by
      rw [← hitem] at happly
      rw [updateItem_eq, written_ok hcond happly]
    have hexec : exec (dynamoMachine wall) (complete op fence result now) items
        = (.ok .Ok, items.set (itemKey op) item') := by
      rw [complete, if_neg (not_lt.mpr hlimit)]
      show (afterComplete fence now ((updateItem items _ _ _).1.mapError .Service),
        (updateItem items _ _ _).2) = _
      rw [hwrite]
      rfl
    show (exec (dynamoMachine wall) (complete op fence result now) items).1 = _ ∧
      ∃ item, OrderedMap.get (exec (dynamoMachine wall) (complete op fence result now) items).2 _ = _ ∧ _
    rw [hexec]
    exact ⟨rfl, item', by simp, hholds'⟩
  shown := by
    rintro wall items row record now ⟨item, hitem, hholds⟩ hlive hstate hfp hread
    obtain ⟨scope, key, hrow⟩ := itemToRow_renamed hholds
    have hrecord := rowToRecord_renamed hread scope key
    refine ⟨{ record with scope := scope, key := key }, ⟨rfl, rfl⟩, ?_, ?_⟩
    · show afterGet now (.ok (items.get (itemKey op))) = _
      rw [hitem]
      simp only [afterGet, hrow, readItem, hrecord, gt_iff_lt, if_pos hlive]
      rfl
    · rintro opts' rfl
      have hcond : (beginCondition op.fingerprint opts'.now).holds
          ((items.get (itemKey op)).getD Item.absent) = false := by
        rw [hitem, beginCondition_holds (Option.Rel.some hholds),
          not_claimable_of_completed hlive hstate]
      have hwrite : store.claimed wall op opts' (items.get (itemKey op))
          = .error (.ConditionalCheckFailed (some item)) := by
        rw [claimed, written, if_neg (by simp [hcond]), hitem]
      show (exec (dynamoMachine wall) (store.begin op opts') items).1 = _
      rw [store.exec_begin_error wall op opts' items hwrite]
      simp only [afterBegin, classify, hrow, readItem, hrecord]
      simp [not_le.mpr hlive, hfp, hstate]

end DynamoDbStore

/-! ## Redis -/

/-- What `BEGIN_LUA` can do with a hash, whatever its fields are and whatever answers its commands, as
long as reading changes nothing: claim it, refuse it with another tag, or raise. -/
lemma exec_beginCall_any {σ : Type} {m : (c : RedisCommand) → σ → RedisReply c × σ}
    (hmget : ∀ k fields s, (m (.Hmget k fields) s).2 = s)
    (hgetall : ∀ k s, (m (.Hgetall k) s).2 = s) (s : σ) (k : JsString) (op : Operation)
    (opts : BeginOptions) (grace : ℤ) :
    (∃ fence, exec m (ExceptT.run (beginCall k op opts grace)) s = exec m (ExceptT.run
        (acquireLua k op.fingerprint opts.now opts.leaseMs opts.ttlMs grace fence)) s)
      ∨ (∃ tag rest, tag.text ≠ js "acquired"
        ∧ exec m (ExceptT.run (beginCall k op opts grace)) s = (.ok (.Items (tag :: rest)), s))
      ∨ ∃ err, exec m (ExceptT.run (beginCall k op opts grace)) s = (.error err, s) := by
  have htake : ∀ text : Option JsString,
      (∃ fence, exec m (ExceptT.run (Lua.number (Lua.tonumber text) >>= fun fence =>
          acquireLua k op.fingerprint opts.now opts.leaseMs opts.ttlMs grace (fence + 1))) s
        = exec m (ExceptT.run
          (acquireLua k op.fingerprint opts.now opts.leaseMs opts.ttlMs grace fence)) s)
      ∨ ∃ err, exec m (ExceptT.run (Lua.number (Lua.tonumber text) >>= fun fence =>
          acquireLua k op.fingerprint opts.now opts.leaseMs opts.ttlMs grace (fence + 1))) s
        = (.error err, s) := by
    intro text
    cases Lua.tonumber text with
    | none => exact Or.inr ⟨_, rfl⟩
    | some fence => exact Or.inl ⟨fence + 1, rfl⟩
  have hall : ∀ tag : LuaValue, exec m (ExceptT.run (do
      return LuaReply.Items (tag :: (← Lua.hgetall k)))) s
      = (.ok (.Items (tag :: (m (.Hgetall k) s).1.flatMap fun p => [.Str p.1, .Str p.2])), s) := by
    intro tag
    show (Except.ok (LuaReply.Items (tag :: (m (.Hgetall k) s).1.flatMap
      fun p => [.Str p.1, .Str p.2])), (m (.Hgetall k) s).2) = _
    rw [hgetall]
  simp only [beginLua, Lua.exec_run_bind, Lua.tonumber_intText, Lua.exec_number, Lua.exec_hmget,
    hmget]
  generalize (m (.Hmget k _) s).1 = row
  split
  · rename_i fingerprint state fence leaseUntil expiresAt
    simp only [Lua.exec_run_bind]
    cases Lua.tonumber expiresAt with
    | none => exact Or.inr (Or.inr ⟨_, rfl⟩)
    | some expires =>
        simp only [Lua.exec_number]
        split_ifs with hlive hfp hst
        · refine Or.inr (Or.inl ⟨_, _, ?_, hall _⟩)
          decide
        · refine Or.inr (Or.inl ⟨_, _, ?_, hall _⟩)
          decide
        · simp only [Lua.exec_run_bind]
          cases Lua.tonumber leaseUntil with
          | none => exact Or.inr (Or.inr ⟨_, rfl⟩)
          | some leaseEnd =>
              simp only [Lua.exec_number]
              split_ifs with hheld
              · refine Or.inr (Or.inl ⟨_, _, ?_, rfl⟩)
                decide
              · exact (htake fence).imp_right Or.inr
        · exact (htake fence).imp_right Or.inr
  · exact Or.inl ⟨1, rfl⟩

namespace RedisStore

variable (store : RedisStore) (op : Operation) (opts : BeginOptions)

/-- A reply with another tag is no claim. -/
lemma decoded_ne_acquired {tag : LuaValue} (htag : tag.text ≠ js "acquired") (rest : List LuaValue)
    (fence : ℤ) : decoded (beginOutcome op (.Items (tag :: rest))) ≠ .ok (.Acquired fence) := by
  rw [beginOutcome, if_neg htag]
  cases rest.head?.bind LuaValue.number with
  | none =>
      cases (hashToRow op.scope op.key (pairsToFields rest)).bind rowToRecord with
      | none => split_ifs <;> simp [decoded]
      | some record => split_ifs <;> simp [decoded]
  | some leaseUntil =>
      cases (hashToRow op.scope op.key (pairsToFields rest)).bind rowToRecord with
      | none => split_ifs <;> simp [decoded]
      | some record => split_ifs <;> simp [decoded]

/-- **The Redis store keeps rows.** -/
lemma keepsRows (result : Completion) (hpos : 0 < opts.ttlMs + store.grace) :
    KeepsRows (fun _ => True) (fun _ : Unit => store.apply) op opts result fun s row =>
      (row.scope = op.scope ∧ row.key = op.key) ∧
        ∃ fields, s.keys.get (store.keyFor op) = some fields ∧ RowFields fields row where
  granted := by
    intro _ s fence _ hacquired
    change (store.begin s op opts).1 = _ at hacquired
    show _ ∧ ∃ fields, OrderedMap.get (store.begin s op opts).2.keys _ = _ ∧ _
    rcases exec_beginCall_any (m := redisMachine) (fun _ _ _ => rfl) (fun _ _ => rfl) s.keys
        (store.keyFor op) op opts store.grace with
      ⟨fence', hrun⟩ | ⟨tag, rest, htag, hrun⟩ | ⟨err, hrun⟩
    · obtain ⟨keys, fields, hacquire, hwritten, hfields⟩ :=
        run_acquireLua s.keys (store.keyFor op) op opts hpos fence'
      obtain ⟨loaded, hbegin⟩ := store.begin_of_run (hrun.trans hacquire)
      rw [hbegin] at hacquired ⊢
      cases hacquired
      exact ⟨⟨rfl, rfl⟩, fields, (hwritten _).trans (if_pos rfl), hfields⟩
    · obtain ⟨loaded, hbegin⟩ := store.begin_of_run hrun
      rw [hbegin] at hacquired
      exact absurd hacquired (decoded_ne_acquired op htag rest fence)
    · have hraised : (run s .Begin (store.keyFor op) [op.fingerprint, intText opts.now,
          intText opts.leaseMs, intText opts.ttlMs, intText store.grace]).1 = .error (.Script err) := by
        rw [(run_spec _ _ _ _).1]
        show Except.mapError _ (exec redisMachine (ExceptT.run (beginCall _ op opts _)) s.keys).1 = _
        rw [hrun]
        rfl
      have hreply : (store.begin s op opts).1 = (run s .Begin (store.keyFor op) [op.fingerprint,
          intText opts.now, intText opts.leaseMs, intText opts.ttlMs, intText store.grace]).1.bind
          fun reply => decoded (beginOutcome op reply) := rfl
      rw [hreply, hraised] at hacquired
      cases hacquired
  completed := by
    rintro _ s row fence now ⟨hop, fields, hget, hfields⟩ hsel
    have hholds : HoldsRow (s.keys.get (store.keyFor op)) (some row) := by
      rw [hget]
      exact Option.Rel.some hfields
    show (store.complete s op fence result now).1 = _ ∧ _ ∧
      ∃ fields, OrderedMap.get (store.complete s op fence result now).2.keys _ = _ ∧ _
    rcases run_completeCall hholds fence result now with
      ⟨_, keys, hash, ⟨⟩, -, hrun, hwritten, hcompleted⟩ | ⟨hnone, -⟩
    · obtain ⟨loaded, hreply⟩ := store.complete_of_run hrun
      rw [hreply]
      exact ⟨rfl, hop, hash, (hwritten _).trans (if_pos rfl), hcompleted⟩
    · rw [Option.filter_some, if_pos hsel] at hnone
      cases hnone
  shown := by
    rintro _ s row record now ⟨hop, fields, hget, hfields⟩ hlive hstate hfp hread
    refine ⟨record, ⟨rfl, rfl⟩, ?_, ?_⟩
    · show store.get s op now = _
      have hrow := hashToRow_of_rowFields hfields hop.1 hop.2
      simp only [get, Keyspace.hash_of_get hget, hfields.fingerprint, hrow, hread, gt_iff_lt,
        if_pos hlive]
      rfl
    · rintro opts' rfl
      show (store.begin s op opts').1 = _
      have hrun : (beginCall (store.keyFor op) op opts' store.grace).run s.keys = _ :=
        run_beginCall_some op opts' hget hfields
      rw [if_pos ⟨hlive, Or.inr (Or.inl hstate)⟩] at hrun
      obtain ⟨loaded, hreply⟩ := store.begin_of_run hrun
      obtain ⟨hfp', hst', -⟩ := rowToRecord_fields hread
      rw [hreply, beginOutcome_refusal hfields hop.1 hop.2 hread]
      simp [ClaimModel.classify, hfp', hfp, hst', hstate, decoded]

end RedisStore

/-- **Persisted results round trip.**  Every store gives back, for every result, what the memory store
gives back. -/
theorem persisted_results_round_trip (op : Operation) (opts : BeginOptions) (result : Completion) :
    RoundTrips (fun _ => True) (fun _ : Unit => memoryMachine (E := Empty)) op opts result
      ∧ (∀ d : SqlDialect, RoundTrips (fun _ => True)
          (fun (_ : Unit) c => exec sqlMachine (d.program (X := Empty) c)) op opts result)
      ∧ (∀ store : DurableObjectsStore, RoundTrips (fun _ => True)
          (fun dateNow => store.apply (X := Empty) dateNow) op opts result)
      ∧ (∀ store : DynamoDbStore, (result.storedBody.getD []).length ≤ dynamodbMaxResultBytes →
          RoundTrips Keyed (fun wall c => exec (dynamoMachine wall) (store.program c)) op opts result)
      ∧ ∀ store : RedisStore, 0 < opts.ttlMs + store.grace →
          RoundTrips (fun _ => True) (fun _ : Unit => store.apply) op opts result := by
  refine ⟨(memory_keepsRows op opts result).roundTrips, ?_, ?_, ?_, ?_⟩
  · intro d
    exact (d.keepsRows op opts result).roundTrips
  · intro store
    exact (store.keepsRows op opts result).roundTrips
  · intro store hlimit
    exact (store.keepsRows op opts result hlimit).roundTrips
  · intro store hpos
    exact (store.keepsRows op opts result hpos).roundTrips

/-- A result with no status, an empty list of headers and an empty body. -/
def emptyParts : StoredResult := { kind := .Http, headers := some [], body := some [] }

theorem persisted_results_round_trip_emptyParts :
    ((RedisStore.apply {} (.Begin raceOp ⟨10, 100, 0⟩) ⟨Table.empty, fun _ => false⟩).1
        = .ok (.Acquired 1))
      ∧ ∃ record : IdempotencyRecord, record.result = some emptyParts ∧ record.resultOmitted = none
        ∧ (RedisStore.apply {} (.Get raceOp 6)
          (RedisStore.apply {} (.Complete raceOp 1 (.Stored emptyParts) 5)
            (RedisStore.apply {} (.Begin raceOp ⟨10, 100, 0⟩) ⟨Table.empty, fun _ => false⟩).2).2).1
          = .ok (some record) := by
  have hbegin : (RedisStore.apply {} (.Begin raceOp ⟨10, 100, 0⟩) ⟨Table.empty, fun _ => false⟩).1
      = .ok (.Acquired 1) := by decide +kernel
  obtain ⟨-, -, -, -, hredis⟩ := persisted_results_round_trip raceOp ⟨10, 100, 0⟩ (.Stored emptyParts)
  obtain ⟨-, hread⟩ := hredis {} (by decide) () () ⟨Table.empty, fun _ => false⟩ 1 5 trivial
    (by decide) hbegin
  obtain ⟨record, hresult, homitted, hget, -⟩ := hread () 6 (by decide)
  exact ⟨hbegin, record, hresult, homitted, hget⟩

end Anyonce
