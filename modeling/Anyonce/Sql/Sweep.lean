import Anyonce.Sql.DurableObject
import Mathlib.Data.List.Induction

/-!
# The sweep of the Durable Object

`IdempotencyObject` keeps a second table, `anyonce_sweep`, with the wall-clock expiry of each record,
and one alarm that deletes what is due.  Six entry points touch the tables, each a different part of
them; this file says what each does to a row and its entry, and what holds after any order of them.

**What a row and its entry are here.**  `expiryAt` and `wallAt` read both tables as maps from the
primary key: the logical expiry of the record, and the wall-clock expiry of the entry.  Each method
has one lemma on these maps (`begin_cases`, `complete_maps`, `abandon_maps`, `purge_maps`,
`physicallyRemove_maps`, `alarm_maps`).

**The invariant.**  `Swept`: a record has an entry and an entry has a record, and the alarm is not
later than any entry.  `Covered`: an entry is not earlier than the expiry of its record; it needs the
caller and the object to read one clock.

* `sweep_invariant` — the tables agree and no entry is stranded after any order of calls and alarms,
  and under one clock no sweep deletes a record that has not expired.
-/

namespace Anyonce

open Relational

/-- What happens to an object: a call under the wall clock at that call, or the alarm. -/
inductive ObjectEvent
  | Call (wall : Wall) (c : StoreCall Operation BeginOptions Completion)
  | Alarm (dateNow : ℤ)

namespace ObjectEvent

/-- The object's clock at the event. -/
def dateNow : ObjectEvent → ℤ
  | .Call wall _ => wall.dateNow
  | .Alarm dateNow => dateNow

/-- The steps that delete what has expired. -/
def isSweep : ObjectEvent → Bool
  | .Call _ (.Purge _) => true
  | .Call _ _ => false
  | .Alarm _ => true

/-- The caller and the object read one clock that never goes back, and the caller reads it first; and
the grace is not negative. -/
def OneClock : ObjectEvent → Prop
  | .Call wall (.Begin _ opts) => opts.now ≤ wall.dateNow ∧ 0 ≤ wall.graceMs
  | .Call wall (.Purge now) => now ≤ wall.dateNow
  | .Call _ _ => True
  | .Alarm _ => True

end ObjectEvent

namespace IdempotencyObject

variable (o : IdempotencyObject)

/-- One event.  The stored alarm is cleared when it fires. -/
def event (X : Type) (o : IdempotencyObject) : ObjectEvent → IdempotencyObject
  | .Call wall c => (o.apply (X := X) wall c).2
  | .Alarm dateNow => { o with alarmAt := none }.alarm dateNow

/-- Events one after another, on an object that is empty at first. -/
def afterEvents (X : Type) (events : List ObjectEvent) : IdempotencyObject :=
  events.foldl (event X) empty

/-! ## The tables as maps -/

/-- The logical expiry of the record with a primary key. -/
def expiryAt (k : JsString × JsString) : Option ℤ := (o.records.lookup k).map RecordRow.expiresAt

/-- The wall-clock expiry of its sweep entry. -/
def wallAt (k : JsString × JsString) : Option ℤ := (o.sweep.lookup k).map SweepRow.expiresWall

variable {o}

/-- Deleting one row by its primary key. -/
lemma lookup_remove_key {Row : Type} {key : Row → JsString × JsString} (t : Table key)
    (gone k : JsString × JsString) :
    (t.remove fun row => key row = gone).lookup k = if k = gone then none else t.lookup k := by
  rw [Table.lookup_remove]
  cases hl : t.lookup k with
  | none => simp
  | some row =>
      have hkey : key row = k := Table.key_of_lookup hl
      by_cases hk : k = gone
      · simp [Option.filter, hkey, hk]
      · simp [Option.filter, hkey, hk]

lemma expiryAt_removeSql (scope key : JsString) (sweep : Sweep) (alarmAt : Option ℤ)
    (k : JsString × JsString) :
    expiryAt ⟨(removeSql o.records scope key).2, sweep, alarmAt⟩ k
      = if k = (scope, key) then none else o.expiryAt k := by
  rw [expiryAt, removeSql, lookup_remove_key, expiryAt]
  split_ifs <;> rfl

lemma wallAt_sweepRemove (scope key : JsString) (records : Records JsString) (alarmAt : Option ℤ)
    (k : JsString × JsString) :
    wallAt ⟨records, sweepRemove o.sweep scope key, alarmAt⟩ k
      = if k = (scope, key) then none else o.wallAt k := by
  rw [wallAt, sweepRemove, lookup_remove_key, wallAt]
  split_ifs <;> rfl

lemma wallAt_sweepUpsert (scope key : JsString) (wall : ℤ) (records : Records JsString)
    (alarmAt : Option ℤ) (k : JsString × JsString) :
    wallAt ⟨records, sweepUpsert o.sweep scope key wall, alarmAt⟩ k
      = if k = (scope, key) then some wall else o.wallAt k := by
  rw [wallAt, sweepUpsert, Table.lookup_put, wallAt]
  show Option.map _ (if k = (scope, key) then _ else _) = _
  split_ifs <;> rfl

/-! ## What each method does -/

/-- What a claim that is granted does: the record and its entry are written, and the alarm is moved
to the entry when it was later or not set. -/
structure Claimed (wall : Wall) (op : Operation) (opts : BeginOptions) (o o' : IdempotencyObject) :
    Prop where
  expiries : ∀ k, o'.expiryAt k
    = if k = (op.scope, op.key) then some (opts.now + opts.ttlMs) else o.expiryAt k
  walls : ∀ k, o'.wallAt k = if k = (op.scope, op.key) then
      some (wall.dateNow + opts.ttlMs + wall.graceMs) else o.wallAt k
  alarm : ∃ t, o'.alarmAt = some t ∧ t ≤ wall.dateNow + opts.ttlMs + wall.graceMs
    ∧ ∀ current, o.alarmAt = some current → t ≤ current

/-- The claiming statement writes the expiry it binds, or leaves the table alone. -/
lemma beginSql_cases (t : Records JsString) (claim : ClaimColumns JsString) (terms : TermColumns) :
    (∃ fence row, beginSql t claim terms = (some fence, t.put row)
        ∧ row.primaryKey = (claim.scope, claim.key) ∧ row.expiresAt = terms.expiresAt)
      ∨ beginSql t claim terms = (none, t) := by
  rw [beginSql_eq]
  split_ifs
  · exact Or.inl ⟨_, _, rfl, rfl, rfl⟩
  · exact Or.inr rfl

lemma claimed_scheduleSweep (wall : Wall) (op : Operation) (opts : BeginOptions)
    {row : RecordRow JsString} (hkey : row.primaryKey = (op.scope, op.key))
    (hexpiry : row.expiresAt = opts.now + opts.ttlMs) :
    Claimed wall op opts o ({ o with records := o.records.put row }.scheduleSweep wall op.scope
      op.key (opts.now + opts.ttlMs) opts.now) := by
  have hat : wall.dateNow + (opts.now + opts.ttlMs - opts.now) + wall.graceMs
      = wall.dateNow + opts.ttlMs + wall.graceMs := by omega
  refine ⟨fun k => ?_, fun k => ?_, ?_⟩
  · show Option.map _ ((o.records.put row).lookup k) = _
    rw [Table.lookup_put, hkey]
    split_ifs
    · rw [Option.map_some, hexpiry]
    · rfl
  · show wallAt ⟨_, sweepUpsert o.sweep op.scope op.key _, _⟩ k = _
    rw [wallAt_sweepUpsert, hat]
  · cases o.alarmAt with
    | none => exact ⟨_, by simp only [scheduleSweep, hat], le_refl _, by simp⟩
    | some current =>
        by_cases hlater : current > wall.dateNow + opts.ttlMs + wall.graceMs
        · refine ⟨_, ?_, le_refl _, by simpa using le_of_lt hlater⟩
          simp only [scheduleSweep, hat, if_pos hlater]
        · refine ⟨_, ?_, not_lt.mp hlater, by simp⟩
          simp only [scheduleSweep, hat, if_neg hlater]

/-- **`begin`** grants the claim, or changes nothing. -/
lemma begin_cases {X : Type} (wall : Wall) (op : Operation) (opts : BeginOptions) :
    Claimed wall op opts o (o.begin (X := X) wall op opts).2
      ∨ (o.begin (X := X) wall op opts).2 = o := by
  have hloop : ∀ attempts, Claimed wall op opts o (beginLoop (X := X) wall op opts attempts o).2
      ∨ (beginLoop (X := X) wall op opts attempts o).2 = o := by
    intro attempts
    induction attempts with
    | zero => exact Or.inr rfl
    | succ attempts ih =>
        rw [beginLoop, beginAttempt]
        rcases beginSql_cases o.records op.columns opts.columns with
          ⟨fence, row, hsql, hkey, hexpiry⟩ | hsql
        · rw [hsql]
          exact Or.inl (claimed_scheduleSweep wall op opts hkey hexpiry)
        · simp only [hsql]
          cases D1Store.classify (X := X) op opts (selectSql o.records op.scope op.key) with
          | none => exact ih
          | some out => exact Or.inr rfl
  exact hloop 3

/-- What every other step does: the rows and the entries of some primary keys are gone, and no expiry
of the others is moved. -/
structure Dropped (gone : JsString × JsString → Bool) (o o' : IdempotencyObject) : Prop where
  expiries : ∀ k, o'.expiryAt k = if gone k then none else o.expiryAt k
  walls : ∀ k, o'.wallAt k = if gone k then none else o.wallAt k

lemma Dropped.refl (o : IdempotencyObject) : Dropped (fun _ => false) o o :=
  ⟨fun _ => rfl, fun _ => rfl⟩

/-- **`complete`** deletes nothing and moves no expiry. -/
lemma complete_maps (op : Operation) (fence : ℤ) (result : Completion) (now : ℤ) :
    Dropped (fun _ => false) o (o.complete op fence result now).2
      ∧ (o.complete op fence result now).2.alarmAt = o.alarmAt := by
  rw [complete, completeSql_eq]
  cases hrow : (o.records.lookup (op.scope, op.key)).filter (RecordRow.completable fence now) with
  | none => exact ⟨Dropped.refl o, rfl⟩
  | some row =>
      have hlookup : o.records.lookup (op.scope, op.key) = some row :=
        (Option.filter_eq_some_iff.mp hrow).1
      have hkey : row.primaryKey = (op.scope, op.key) := Table.key_of_lookup hlookup
      refine ⟨⟨fun k => ?_, fun _ => rfl⟩, rfl⟩
      show Option.map _ ((o.records.put (completedRow result.columns row)).lookup k) = o.expiryAt k
      rw [Table.lookup_put, completedRow_primaryKey, hkey, expiryAt]
      split_ifs with hk
      · rw [hk, hlookup]
        rfl
      · rfl

lemma dropped_remove (scope key : JsString) (alarmAt : Option ℤ) :
    Dropped (fun k => k = (scope, key)) o
      ⟨(removeSql o.records scope key).2, sweepRemove o.sweep scope key, alarmAt⟩ := by
  refine ⟨fun k => ?_, fun k => ?_⟩
  · rw [expiryAt_removeSql]
    simp only [decide_eq_true_eq]
  · rw [wallAt_sweepRemove]
    simp only [decide_eq_true_eq]

/-- **`abandon`** deletes the row and its entry, or changes nothing. -/
lemma abandon_maps (op : Operation) (fence : ℤ) :
    (∃ gone, Dropped gone o (o.abandon op fence).2)
      ∧ (o.abandon op fence).2.alarmAt = o.alarmAt := by
  rw [abandon, abandonSql_eq]
  cases (o.records.lookup (op.scope, op.key)).filter (RecordRow.abandonable fence) with
  | none => exact ⟨⟨_, Dropped.refl o⟩, rfl⟩
  | some row => exact ⟨⟨_, dropped_remove op.scope op.key o.alarmAt⟩, rfl⟩

/-- **`physicallyRemove`** deletes the row and its entry. -/
lemma physicallyRemove_maps (op : Operation) :
    Dropped (fun k => k = (op.scope, op.key)) o (o.physicallyRemove op) :=
  dropped_remove op.scope op.key o.alarmAt

/-- Pruning leaves the entries of the records that are there. -/
lemma lookup_sweepPrune (sweep : Sweep) (records : Records JsString) (k : JsString × JsString) :
    (sweepPrune sweep records).lookup k
      = if (records.lookup k).isSome then sweep.lookup k else none := by
  have hany : (records.rows.any fun r => r.primaryKey = k) = (records.lookup k).isSome := by
    rw [Bool.eq_iff_iff, List.any_eq_true, Table.lookup, List.find?_isSome]
  rw [sweepPrune, Table.lookup_remove]
  cases hl : sweep.lookup k with
  | none => simp
  | some row =>
      have hkey : row.primaryKey = k := Table.key_of_lookup hl
      simp only [Option.filter, hkey, hany, Bool.not_not]

/-- **`purge`** deletes the rows that have expired, and their entries. -/
lemma purge_maps (hkeys : ∀ k, (o.expiryAt k).isSome = (o.wallAt k).isSome) (now : ℤ) :
    Dropped (fun k => (o.expiryAt k).any (· ≤ now)) o (o.purge now).2 := by
  have hexpiry : ∀ k, (o.purge now).2.expiryAt k
      = if (o.expiryAt k).any (· ≤ now) then none else o.expiryAt k := by
    intro k
    show ((o.records.remove fun row => row.expiresAt ≤ now).lookup k).map _ = _
    rw [Table.lookup_remove, expiryAt]
    cases o.records.lookup k with
    | none => rfl
    | some row => by_cases hrow : row.expiresAt ≤ now <;> simp [Option.filter, hrow]
  refine ⟨hexpiry, fun k => ?_⟩
  by_cases hremoved : (purgeSql o.records now).1 > 0
  · have hwall : (o.purge now).2.wallAt k
        = if ((o.purge now).2.expiryAt k).isSome then o.wallAt k else none := by
      show Option.map _ ((if (purgeSql o.records now).1 > 0 then _ else _ : Sweep).lookup k) = _
      rw [if_pos hremoved, lookup_sweepPrune, expiryAt, Option.isSome_map, wallAt]
      show Option.map _ (if ((purgeSql o.records now).2.lookup k).isSome then _ else _)
        = if ((purgeSql o.records now).2.lookup k).isSome then _ else _
      split_ifs <;> rfl
    rw [hwall, hexpiry]
    have hk := hkeys k
    split_ifs with hgone hsome hsome
    · simp at hsome
    · rfl
    · rfl
    · rw [hk, Bool.not_eq_true, Option.isSome_eq_false_iff, Option.isNone_iff_eq_none] at hsome
      exact hsome.symm
  · have hnone : ∀ row ∈ o.records.rows, ¬ row.expiresAt ≤ now := by
      have hzero : (o.records.rows.countP fun row => row.expiresAt ≤ now) = 0 :=
        Nat.eq_zero_of_not_pos hremoved
      simpa [List.countP_eq_zero] using hzero
    have hwall : (o.purge now).2.wallAt k = o.wallAt k := by
      show Option.map _ ((if (purgeSql o.records now).1 > 0 then _ else _ : Sweep).lookup k) = _
      rw [if_neg hremoved, wallAt]
    rw [hwall, if_neg]
    rw [expiryAt, Option.any_map]
    cases hl : o.records.lookup k with
    | none => simp
    | some row => simpa using hnone row (Table.mem_of_lookup hl)

/-! ## The alarm -/

/-- Deleting what is due deletes the rows and the entries of the keys that are due. -/
lemma removeDue_maps (due : List SweepRow) (o : IdempotencyObject) :
    Dropped (fun k => k ∈ due.map SweepRow.primaryKey) o (o.removeDue due)
      ∧ (o.removeDue due).alarmAt = o.alarmAt := by
  induction due generalizing o with
  | nil => exact ⟨⟨fun _ => rfl, fun _ => rfl⟩, rfl⟩
  | cons row due ih =>
      obtain ⟨hrest, halarm⟩ := ih ⟨(removeSql o.records row.scope row.key).2,
        sweepRemove o.sweep row.scope row.key, o.alarmAt⟩
      have hfirst := dropped_remove (o := o) row.scope row.key o.alarmAt
      refine ⟨⟨fun k => ?_, fun k => ?_⟩, halarm⟩
      · refine (hrest.expiries k).trans ?_
        rw [hfirst.expiries]
        by_cases hk : k = (row.scope, row.key)
        · simp [hk, SweepRow.primaryKey]
        · simp [hk, SweepRow.primaryKey]
      · refine (hrest.walls k).trans ?_
        rw [hfirst.walls]
        by_cases hk : k = (row.scope, row.key)
        · simp [hk, SweepRow.primaryKey]
        · simp [hk, SweepRow.primaryKey]

lemma mem_sweepDue (sweep : Sweep) (dateNow : ℤ) (k : JsString × JsString) :
    k ∈ (sweepDue sweep dateNow).map SweepRow.primaryKey
      ↔ ∃ row, sweep.lookup k = some row ∧ row.expiresWall ≤ dateNow := by
  simp only [sweepDue, List.mem_map, List.mem_filter, decide_eq_true_eq, Table.lookup_eq_some_iff]
  constructor
  · rintro ⟨row, ⟨hmem, hdue⟩, hkey⟩
    exact ⟨row, ⟨hmem, hkey⟩, hdue⟩
  · rintro ⟨row, ⟨hmem, hkey⟩, hdue⟩
    exact ⟨row, ⟨hmem, hdue⟩, hkey⟩

/-- The earliest entry is not later than any other. -/
lemma sweepNext_le {sweep : Sweep} {k : JsString × JsString} {row : SweepRow}
    (h : sweep.lookup k = some row) : ∃ next, sweepNext sweep = some next ∧ next ≤ row.expiresWall := by
  have hmem : row.expiresWall ∈ sweep.rows.map SweepRow.expiresWall :=
    List.mem_map_of_mem (Table.mem_of_lookup h)
  cases hnext : sweepNext sweep with
  | none =>
      rw [sweepNext, List.min?_eq_none_iff] at hnext
      rw [hnext] at hmem
      exact absurd hmem (List.not_mem_nil)
  | some next => exact ⟨next, rfl, (List.min?_eq_some_iff.mp hnext).2 _ hmem⟩

/-- **The alarm** deletes the rows whose entry is due, with the entry, and is set again to the
earliest entry left. -/
lemma alarm_maps (o : IdempotencyObject) (dateNow : ℤ) :
    Dropped (fun k => (o.wallAt k).any (· ≤ dateNow)) o (o.alarm dateNow)
      ∧ ∀ k w, (o.alarm dateNow).wallAt k = some w → ∃ t, (o.alarm dateNow).alarmAt = some t ∧ t ≤ w := by
  have hgone : (fun k => decide (k ∈ (sweepDue o.sweep dateNow).map SweepRow.primaryKey))
      = fun k => (o.wallAt k).any (· ≤ dateNow) := by
    funext k
    rw [Bool.eq_iff_iff, decide_eq_true_eq, mem_sweepDue, wallAt]
    cases o.sweep.lookup k <;> simp
  have hdropped := (removeDue_maps (sweepDue o.sweep dateNow) o).1
  rw [hgone] at hdropped
  rw [alarm]
  cases hnext : sweepNext (o.removeDue (sweepDue o.sweep dateNow)).sweep with
  | none =>
      refine ⟨hdropped, fun k w hw => ?_⟩
      obtain ⟨row, hrow, -⟩ := Option.map_eq_some_iff.mp hw
      obtain ⟨next, hsome, -⟩ := sweepNext_le hrow
      rw [hnext] at hsome
      cases hsome
  | some next =>
      refine ⟨⟨hdropped.expiries, hdropped.walls⟩, fun k w hw => ?_⟩
      obtain ⟨row, hrow, rfl⟩ := Option.map_eq_some_iff.mp hw
      obtain ⟨next', hsome, hle⟩ := sweepNext_le hrow
      rw [hnext] at hsome
      cases hsome
      exact ⟨next, rfl, hle⟩

/-! ## The invariant -/

/-- Records and entries have the same primary keys, and the alarm is not later than any entry. -/
structure Swept (o : IdempotencyObject) : Prop where
  keys : ∀ k, (o.expiryAt k).isSome = (o.wallAt k).isSome
  alarmed : ∀ k w, o.wallAt k = some w → ∃ t, o.alarmAt = some t ∧ t ≤ w

/-- An entry is not earlier than the expiry of its record. -/
def Covered (o : IdempotencyObject) : Prop :=
  ∀ k t w, o.expiryAt k = some t → o.wallAt k = some w → t ≤ w

lemma swept_empty : Swept empty :=
  ⟨fun _ => rfl, fun _ _ h => by cases h⟩

lemma covered_empty : Covered empty := by
  intro k t w ht
  cases ht

lemma Claimed.swept {wall : Wall} {op : Operation} {opts : BeginOptions} {o o' : IdempotencyObject}
    (h : Claimed wall op opts o o') (ho : Swept o) : Swept o' := by
  obtain ⟨t, halarm, hle, hcurrent⟩ := h.alarm
  refine ⟨fun k => ?_, fun k w hw => ⟨t, halarm, ?_⟩⟩
  · rw [h.expiries, h.walls]
    split_ifs
    · rfl
    · exact ho.keys k
  · rw [h.walls] at hw
    split_ifs at hw
    · cases hw
      exact hle
    · obtain ⟨current, hset, hbefore⟩ := ho.alarmed k w hw
      exact le_trans (hcurrent current hset) hbefore

lemma Claimed.covered {wall : Wall} {op : Operation} {opts : BeginOptions}
    {o o' : IdempotencyObject} (h : Claimed wall op opts o o') (hclock : opts.now ≤ wall.dateNow)
    (hgrace : 0 ≤ wall.graceMs) (ho : Covered o) : Covered o' := by
  intro k t w ht hw
  rw [h.expiries] at ht
  rw [h.walls] at hw
  split_ifs at ht hw
  · cases ht
    cases hw
    omega
  · exact ho k t w ht hw

lemma Dropped.keys {gone : JsString × JsString → Bool} {o o' : IdempotencyObject}
    (h : Dropped gone o o') (ho : Swept o) (k : JsString × JsString) :
    (o'.expiryAt k).isSome = (o'.wallAt k).isSome := by
  rw [h.expiries, h.walls]
  split_ifs
  · rfl
  · exact ho.keys k

lemma Dropped.alarmed {gone : JsString × JsString → Bool} {o o' : IdempotencyObject}
    (h : Dropped gone o o') (halarm : o'.alarmAt = o.alarmAt) (ho : Swept o)
    (k : JsString × JsString) (w : ℤ) (hw : o'.wallAt k = some w) :
    ∃ t, o'.alarmAt = some t ∧ t ≤ w := by
  rw [h.walls] at hw
  split_ifs at hw
  rw [halarm]
  exact ho.alarmed k w hw

lemma Dropped.covered {gone : JsString × JsString → Bool} {o o' : IdempotencyObject}
    (h : Dropped gone o o') (ho : Covered o) : Covered o' := by
  intro k t w ht hw
  rw [h.expiries] at ht
  rw [h.walls] at hw
  split_ifs at ht hw
  exact ho k t w ht hw

/-- **What an event can do**: grant a claim, or delete rows together with their entries and leave the
alarm not later than what is left. -/
lemma event_cases (X : Type) {o : IdempotencyObject} (ho : Swept o) (e : ObjectEvent) :
    (∃ wall op opts, e = .Call wall (.Begin op opts) ∧ Claimed wall op opts o (o.event X e))
      ∨ (∃ gone, Dropped gone o (o.event X e))
        ∧ ∀ k w, (o.event X e).wallAt k = some w → ∃ t, (o.event X e).alarmAt = some t ∧ t ≤ w := by
  cases e with
  | Alarm dateNow =>
      obtain ⟨hdropped, halarm⟩ := alarm_maps { o with alarmAt := none } dateNow
      exact Or.inr ⟨⟨_, hdropped.expiries, hdropped.walls⟩, halarm⟩
  | Call wall c =>
      cases c with
      | Begin op opts =>
          rcases begin_cases (X := X) (o := o) wall op opts with hclaimed | hsame
          · exact Or.inl ⟨wall, op, opts, rfl, hclaimed⟩
          · have hsame : o.event X (.Call wall (.Begin op opts)) = o := hsame
            rw [hsame]
            exact Or.inr ⟨⟨_, Dropped.refl o⟩, ho.alarmed⟩
      | Complete op fence result now =>
          obtain ⟨hdropped, halarm⟩ := complete_maps (o := o) op fence result now
          exact Or.inr ⟨⟨_, hdropped⟩, hdropped.alarmed halarm ho⟩
      | Abandon op fence =>
          obtain ⟨⟨gone, hdropped⟩, halarm⟩ := abandon_maps (o := o) op fence
          exact Or.inr ⟨⟨gone, hdropped⟩, hdropped.alarmed halarm ho⟩
      | Get op now => exact Or.inr ⟨⟨_, Dropped.refl o⟩, ho.alarmed⟩
      | Purge now =>
          have hdropped := purge_maps ho.keys now
          exact Or.inr ⟨⟨_, hdropped⟩, hdropped.alarmed rfl ho⟩
      | PhysicallyRemove op =>
          have hdropped := physicallyRemove_maps (o := o) op
          exact Or.inr ⟨⟨_, hdropped⟩, hdropped.alarmed rfl ho⟩

/-- One event keeps records, entries and the alarm in step. -/
lemma swept_event (X : Type) {o : IdempotencyObject} (ho : Swept o) (e : ObjectEvent) :
    Swept (o.event X e) := by
  rcases event_cases X ho e with ⟨wall, op, opts, -, hclaimed⟩ | ⟨⟨gone, hdropped⟩, halarm⟩
  · exact hclaimed.swept ho
  · exact ⟨hdropped.keys ho, halarm⟩

/-- Under one clock, one event leaves no entry earlier than the expiry of its record. -/
lemma covered_event (X : Type) {o : IdempotencyObject} (ho : Swept o) (hcov : Covered o)
    {e : ObjectEvent} (hclock : e.OneClock) : Covered (o.event X e) := by
  rcases event_cases X ho e with ⟨wall, op, opts, rfl, hclaimed⟩ | ⟨⟨gone, hdropped⟩, -⟩
  · exact hclaimed.covered hclock.1 hclock.2 hcov
  · exact hdropped.covered hcov

/-- After any events records, entries and the alarm are in step. -/
lemma swept_afterEvents (X : Type) (events : List ObjectEvent) : Swept (afterEvents X events) := by
  induction events using List.reverseRecOn with
  | nil => exact swept_empty
  | append_singleton events e ih =>
      rw [afterEvents, List.foldl_append]
      exact swept_event X ih e

lemma covered_afterEvents (X : Type) {events : List ObjectEvent}
    (hclock : ∀ e ∈ events, e.OneClock) : Covered (afterEvents X events) := by
  induction events using List.reverseRecOn with
  | nil => exact covered_empty
  | append_singleton events e ih =>
      rw [afterEvents, List.foldl_append]
      exact covered_event X (swept_afterEvents X events)
        (ih fun e' he' => hclock e' (List.mem_append_left _ he'))
        (hclock e (List.mem_append_right _ (List.mem_singleton_self e)))

lemma removeDue_subset (due : List SweepRow) (o : IdempotencyObject) {row : RecordRow JsString}
    (h : row ∈ (o.removeDue due).records.rows) : row ∈ o.records.rows := by
  induction due generalizing o with
  | nil => exact h
  | cons entry due ih =>
      have hrest : row ∈ (removeSql o.records entry.scope entry.key).2.rows :=
        ih ⟨(removeSql o.records entry.scope entry.key).2,
          sweepRemove o.sweep entry.scope entry.key, o.alarmAt⟩ h
      exact (List.mem_filter.mp hrest).1

lemma alarm_subset (dateNow : ℤ) (o : IdempotencyObject) {row : RecordRow JsString}
    (h : row ∈ (o.alarm dateNow).records.rows) : row ∈ o.records.rows := by
  rw [alarm] at h
  cases hnext : sweepNext (o.removeDue (sweepDue o.sweep dateNow)).sweep with
  | none =>
      rw [hnext] at h
      exact removeDue_subset _ o h
  | some next =>
      rw [hnext] at h
      exact removeDue_subset _ o h

/-- The alarm keeps a row whose entry is not due. -/
lemma alarm_keeps {o : IdempotencyObject} {dateNow : ℤ} {row : RecordRow JsString}
    (hrow : row ∈ o.records.rows) (hwall : (o.wallAt row.primaryKey).any (· ≤ dateNow) = false) :
    row ∈ (o.alarm dateNow).records.rows := by
  have hexpiry : (o.alarm dateNow).expiryAt row.primaryKey = some row.expiresAt := by
    rw [(alarm_maps o dateNow).1.expiries, hwall, expiryAt, Table.lookup_of_mem hrow]
    rfl
  obtain ⟨row', hrow', -⟩ := Option.map_eq_some_iff.mp hexpiry
  have hbefore : row' ∈ o.records.rows := alarm_subset dateNow o (Table.mem_of_lookup hrow')
  have hsame : some row' = some row := by
    rw [← Table.lookup_of_mem hbefore, ← Table.lookup_of_mem hrow, Table.key_of_lookup hrow']
  cases hsame
  exact Table.mem_of_lookup hrow'

/-- A sweep deletes only what has expired on the object's clock. -/
lemma sweep_keeps (X : Type) {o : IdempotencyObject} (hcov : Covered o) {e : ObjectEvent}
    (hsweep : e.isSweep = true) (hclock : e.OneClock) {row : RecordRow JsString}
    (hrow : row ∈ o.records.rows) (hfuture : e.dateNow < row.expiresAt) :
    row ∈ (o.event X e).records.rows := by
  cases e with
  | Alarm dateNow =>
      refine alarm_keeps (o := { o with alarmAt := none }) hrow ?_
      rw [Bool.eq_false_iff]
      intro hdue
      obtain ⟨w, hw, hle⟩ := (Option.any_eq_true _ _).mp hdue
      have hexpiry : o.expiryAt row.primaryKey = some row.expiresAt := by
        rw [expiryAt, Table.lookup_of_mem hrow, Option.map_some]
      have hwall : row.expiresAt ≤ w := hcov _ _ _ hexpiry hw
      have hfuture : dateNow < row.expiresAt := hfuture
      have hle : w ≤ dateNow := of_decide_eq_true hle
      omega
  | Call wall c =>
      cases c with
      | Purge now =>
          have hclock : now ≤ wall.dateNow := hclock
          have hfuture : wall.dateNow < row.expiresAt := hfuture
          refine List.mem_filter.mpr ⟨hrow, ?_⟩
          simp only [Bool.not_eq_true', decide_eq_false_iff_not]
          omega
      | Begin op opts => cases hsweep
      | Complete op fence result now => cases hsweep
      | Abandon op fence => cases hsweep
      | Get op now => cases hsweep
      | PhysicallyRemove op => cases hsweep

/-- **The sweep of the Durable Object.**  After any order of calls and alarms on an object that is
empty at first:

* records and sweep entries have the same primary keys;
* when there is an entry, an alarm is set, and not later than it;
* if so far the caller and the object read one clock that never goes back, and the grace was never
  negative, then neither the next alarm nor the next purge under that clock deletes a record whose
  expiry is in the future. -/
theorem sweep_invariant (X : Type) (events : List ObjectEvent) :
    (∀ k, (∃ row ∈ (afterEvents X events).records.rows, row.primaryKey = k)
        ↔ ∃ entry ∈ (afterEvents X events).sweep.rows, entry.primaryKey = k)
      ∧ (∀ entry ∈ (afterEvents X events).sweep.rows,
          ∃ t, (afterEvents X events).alarmAt = some t ∧ t ≤ entry.expiresWall)
      ∧ ((∀ e ∈ events, e.OneClock) → ∀ e : ObjectEvent, e.isSweep = true → e.OneClock →
          ∀ row ∈ (afterEvents X events).records.rows, e.dateNow < row.expiresAt →
            row ∈ ((afterEvents X events).event X e).records.rows) := by
  have hswept : Swept (afterEvents X events) := swept_afterEvents X events
  refine ⟨fun k => ?_, fun entry hentry => ?_, fun hclock e hsweep he row hrow hfuture => ?_⟩
  · have hkeys := hswept.keys k
    rw [expiryAt, wallAt, Option.isSome_map, Option.isSome_map, Table.lookup, Table.lookup,
      Bool.eq_iff_iff, List.find?_isSome, List.find?_isSome] at hkeys
    simpa using hkeys
  · refine hswept.alarmed entry.primaryKey entry.expiresWall ?_
    rw [wallAt, Table.lookup_of_mem hentry, Option.map_some]
  · exact sweep_keeps X (covered_afterEvents X hclock) hsweep he hrow hfuture

/-- A claim of 100 ms at time 0 without grace, completed. -/
def sweptEvents : List ObjectEvent :=
  [.Call ⟨0, 0⟩ (.Begin ⟨js "s", js "k", js "f"⟩ ⟨10, 100, 0⟩),
    .Call ⟨5, 0⟩ (.Complete ⟨js "s", js "k", js "f"⟩ 1 (.Omitted ⟨.Http, some 201, none⟩) 5)]

/-- An alarm one millisecond early leaves the record, and is set again; the next one deletes it. -/
theorem sweep_invariant_early :
    (afterEvents Unit sweptEvents).alarmAt = some 100
      ∧ (∃ row ∈ ((afterEvents Unit sweptEvents).event Unit (.Alarm 99)).records.rows,
          row.expiresAt = 100)
      ∧ (afterEvents Unit (sweptEvents ++ [.Alarm 99])).alarmAt = some 100
      ∧ (afterEvents Unit (sweptEvents ++ [.Alarm 99, .Alarm 100])).records.rows = [] := by
  have hclock : ∀ e ∈ sweptEvents, e.OneClock := by
    simp [sweptEvents, ObjectEvent.OneClock]
  have hrow : ∃ row ∈ (afterEvents Unit sweptEvents).records.rows, row.expiresAt = 100 := by
    decide +kernel
  obtain ⟨row, hmem, hexpiry⟩ := hrow
  have hkept := (sweep_invariant Unit sweptEvents).2.2 hclock (.Alarm 99) rfl trivial row hmem
    (by rw [hexpiry]; decide)
  exact ⟨by decide +kernel, ⟨row, hkept, hexpiry⟩, by decide +kernel, by decide +kernel⟩

end IdempotencyObject

end Anyonce
