import Anyonce.Go.SqlStore
import Anyonce.Sql.Concurrency

/-!
# `begin` over SQL is linearizable

A `begin` is a conditional write, a read that classifies a refused write, and a bounded loop around
the two, while other calls write to the same row in between.  `sql_begin_linearizable` says that it
still is one atomic step: whatever the interleaving, an outcome it returns is the outcome the memory
store would have given at one of the call's own statements.

A `RowReading` says how the records of a memory store stand in the rows of the table: `read` decodes
a row, and `whole` is what the columns keep of a record (everything in TypeScript, whole milliseconds
in Go).
-/

namespace Anyonce

open Interaction Relational

section

variable {F Op Opts Rec P T : Type} [DecidableEq F] [DecidableEq T]

/-- Records of claims kept in rows of the table. -/
structure RowReading (M : ClaimModel F Op Opts Rec P) (T : Type) [DecidableEq T] where
  columns : Op → ClaimColumns T
  terms : Opts → TermColumns
  read : RecordRow T → Option Rec
  whole : Rec → Rec
  claimable_eq : ∀ op o row record, read row = some record →
    M.claimable op o (some record) = (rowModel T).claimable (columns op) (terms o) (some row)
  fence_eq : ∀ row record, read row = some record → M.fence record = row.fence
  read_fresh : ∀ op o f, read (claimRow (columns op) (terms o) f) = some (whole (M.fresh op o f))
  whole_read : ∀ row record, read row = some record → whole record = record

namespace RowReading

variable {M : ClaimModel F Op Opts Rec P} (R : RowReading M T)

/-- The record in a cell is the one the row of the table stands for. -/
def Reads (row : Option (RecordRow T)) (cell : Option Rec) : Prop := row.map R.read = cell.map some

/-- The primary key of an operation. -/
abbrev key (op : Op) : T × T := ((R.columns op).scope, (R.columns op).key)

variable {R}

lemma claimable_of_reads {row : Option (RecordRow T)} {cell : Option Rec} (h : R.Reads row cell)
    (op : Op) (o : Opts) :
    M.claimable op o cell = (rowModel T).claimable (R.columns op) (R.terms o) row := by
  cases row with
  | none =>
      cases cell with
      | none => rfl
      | some record => simp [Reads] at h
  | some row =>
      cases cell with
      | none => simp [Reads] at h
      | some record =>
          exact R.claimable_eq op o row record (by simpa [Reads] using h)

lemma nextFence_of_reads {row : Option (RecordRow T)} {cell : Option Rec} (h : R.Reads row cell) :
    M.nextFence cell = (rowModel T).nextFence row := by
  cases row with
  | none =>
      cases cell with
      | none => rfl
      | some record => simp [Reads] at h
  | some row =>
      cases cell with
      | none => simp [Reads] at h
      | some record =>
          rw [ClaimModel.nextFence, ClaimModel.nextFence,
            R.fence_eq row record (by simpa [Reads] using h)]
          rfl

/-- **`begin` on the row is `begin` on the record**, with the same outcome and the same effect. -/
theorem begin_step {op : Op} {o : Opts} {t t' : Records T} {out : BeginOutcome Rec}
    (h : RowBegin (R.columns op) (R.terms o) (fun row => (R.read row).map (M.classify op)) t out t')
    {cell : Option Rec} (hreads : R.Reads (t.lookup (R.key op)) cell) :
    (M.begin op o cell).1 = out
      ∧ R.Reads (t'.lookup (R.key op)) ((M.begin op o cell).2.map R.whole)
      ∧ ∀ k, k ≠ R.key op → t'.lookup k = t.lookup k := by
  have hclaimable := claimable_of_reads hreads op o
  have hfence := nextFence_of_reads hreads
  rcases h with ⟨hclaim, rfl, rfl⟩ | ⟨row, hrow, hclaim, hreport, rfl⟩
  · rcases M.begin_cases op o cell with ⟨-, hbegin⟩ | ⟨hrefused, -⟩
    · rw [hbegin, hfence]
      refine ⟨rfl, ?_, ?_⟩
      · rw [Reads, Table.lookup_put, claimRow_primaryKey, if_pos rfl, Option.map_some, R.read_fresh]
        rfl
      · intro k hk
        rw [Table.lookup_put]
        exact if_neg hk
    · rw [hclaimable, hclaim] at hrefused
      cases hrefused
  · obtain ⟨record, hread, rfl⟩ := Option.map_eq_some_iff.mp hreport
    rw [hrow] at hclaimable
    rw [hrow, Reads, Option.map_some, hread] at hreads
    have hcell : cell = some record := by
      cases cell with
      | none => simp at hreads
      | some record' => simpa using hreads.symm
    subst hcell
    rcases M.begin_cases op o (some record) with ⟨hgranted, -⟩ | ⟨-, record', hsome, -, hbegin⟩
    · rw [hclaimable, hclaim] at hgranted
      cases hgranted
    · cases hsome
      rw [hbegin]
      refine ⟨rfl, ?_, fun k _ => rfl⟩
      rw [Reads, hrow, Option.map_some, hread, Option.map_some, R.whole_read row record hread]
      rfl

end RowReading

/-! ## Linearizable calls -/

section

variable {ι X : Type}

/-- What linearizability of one `begin` in a run means.  `key` is its row, `returned` says which
outcome it has returned, `gaveUp` that it has thrown "could not settle", and `Atomic` what an atomic
`begin` does. -/
structure LinearizableBegin [DecidableEq ι] (key : T × T)
    (Atomic : BeginOutcome Rec → Records T → Records T → Prop) (returned : BeginOutcome Rec → Prop)
    (gaveUp : Prop) (i : ι) (h : List (SqlEntry ι T X)) : Prop where
  settled : ∀ out, returned out → ∃ es e, entriesOf i h = es ++ [e]
    ∧ (∀ e' ∈ es, e'.post = e'.pre) ∧ Atomic out e.pre e.post
  unsettled : gaveUp → ∀ e ∈ entriesOf i h, e.post = e.pre
  undisturbed : ∀ h₁ e₁ h₂ e₂ h₃, h = h₁ ++ e₁ :: (h₂ ++ e₂ :: h₃) →
    e₁.cmd.1 = i → e₂.cmd.1 = i → entriesOf i h₁ = [] → entriesOf i h₂ = [] →
    (∀ e ∈ h₂, e.post.lookup key = e.pre.lookup key) →
    e₁.reply.isOk = true → e₂.reply.isOk = true →
    entriesOf i h₃ = [] ∧ ∃ out, returned out

lemma LinearizableBegin.imp [DecidableEq ι] {key : T × T}
    {Atomic Atomic' : BeginOutcome Rec → Records T → Records T → Prop}
    {returned : BeginOutcome Rec → Prop} {gaveUp : Prop} {i : ι} {h : List (SqlEntry ι T X)}
    (hl : LinearizableBegin key Atomic returned gaveUp i h)
    (himp : ∀ out t t', Atomic out t t' → Atomic' out t t') :
    LinearizableBegin key Atomic' returned gaveUp i h where
  settled out hret := by
    obtain ⟨es, e, hsplit, hquiet, hatomic⟩ := hl.settled out hret
    exact ⟨es, e, hsplit, hquiet, himp _ _ _ hatomic⟩
  unsettled := hl.unsettled
  undisturbed := hl.undisturbed

variable [DecidableEq ι] {M : ClaimModel F Op Opts Rec P} {R : RowReading M T} {Err α : Type}

/-- `begin` on the cell of an operation, as one atomic step on the table. -/
def RowReading.AtomicCell (R : RowReading M T) (op : Op) (o : Opts) (out : BeginOutcome Rec)
    (t t' : Records T) : Prop :=
  (∃ cell, R.Reads (t.lookup (R.key op)) cell)
    ∧ ∀ cell, R.Reads (t.lookup (R.key op)) cell → (M.begin op o cell).1 = out
      ∧ R.Reads (t'.lookup (R.key op)) ((M.begin op o cell).2.map R.whole)
      ∧ ∀ k, k ≠ R.key op → t'.lookup k = t.lookup k

/-- **A program that loops over claiming and classifying is linearizable.** -/
theorem RowReading.linearizable {op : Op} {o : Opts} {beginFailed selectFailed : X → Err}
    {unsettled : Err} {classify : Option (RecordRow T) → Option (Except Err (BeginOutcome Rec))}
    (hc : Classifier (R.columns op) (R.terms o) (fun row => (R.read row).map (M.classify op)) classify)
    (hb : ∀ x, beginFailed x ≠ unsettled) (hs : ∀ x, selectFailed x ≠ unsettled)
    (hcl : ∀ existing, classify existing ≠ some (.error unsettled))
    {allowed : List (SqlEntry ι T X) → Records T → ι × Statement T → Prop} {t₀ : Records T}
    {start : ι → SqlProg T X α} {cfg : Config ι (Statement T) (SqlReply X) α (Records T)}
    (h : Interleave allowed sqlObj t₀ start cfg) {i : ι} {g : Except Err (BeginOutcome Rec) → α}
    (hg : Function.Injective g)
    (hstart : start i = (beginProgram (R.columns op) (R.terms o) beginFailed selectFailed classify
      unsettled >>= fun r => Prog.Ret (g r)))
    (hread : ∀ e ∈ cfg.history, ∀ row, e.pre.lookup (R.key op) = some row →
      ∃ record, R.read row = some record) :
    LinearizableBegin (R.key op) (R.AtomicCell op o) (fun out => cfg.pool i = .Ret (g (.ok out)))
      (cfg.pool i = .Ret (g (.error unsettled))) i cfg.history := by
  have hobj : ∀ e ∈ cfg.history, sqlObj e.pre e.cmd e.reply e.post := fun e he =>
    h.history.obj_of_mem he
  have hsteps := h.steps i
  rw [hstart] at hsteps
  have hruns : ∀ r, cfg.pool i = .Ret (g r) →
      Runs (beginProgram (R.columns op) (R.terms o) beginFailed selectFailed classify unsettled)
        (traceOf i cfg.history) r := by
    intro r hret
    rw [hret] at hsteps
    obtain ⟨t₁, t₂, r', ht, hrun, hend⟩ := runs_bind_iff.mp hsteps
    obtain ⟨rfl, heq⟩ := runs_ret_iff.mp hend
    rw [ht, List.append_nil, ← hg heq]
    exact hrun
  refine ⟨fun out hret => ?_, fun hgave => ?_, ?_⟩
  · obtain ⟨es, e, hsplit, hquiet, hrow⟩ := begin_linearizes hc hobj (hruns _ hret)
    refine ⟨es, e, hsplit, hquiet, ?_, fun cell hcell => RowReading.begin_step hrow hcell⟩
    have hown : e ∈ entriesOf i cfg.history := by simp [hsplit]
    have he : e ∈ cfg.history := (mem_entriesOf.mp hown).1
    cases hl : e.pre.lookup (R.key op) with
    | none => exact ⟨none, rfl⟩
    | some row =>
        obtain ⟨record, hrecord⟩ := hread e he row hl
        exact ⟨some record, by simp [RowReading.Reads, hrecord]⟩
  · exact begin_gaveUp hb hs hcl hobj (hruns _ hgave)
  · intro h₁ e₁ h₂ e₂ h₃ hsplit hi₁ hi₂ hfirst hnext hkeep hok₁ hok₂
    refine begin_settles hc h.history hsteps hsplit hi₁ hi₂ hfirst hnext hkeep hok₁ hok₂ ?_
    intro row hrow
    obtain ⟨record, hrecord⟩ := hread e₁ (by simp [hsplit]) row hrow
    exact ⟨M.classify op record, by simp [hrecord]⟩

end

end

/-! ## The TypeScript stores -/

/-- Every row decodes, as the rows these stores write do. -/
def Readable (t : Records JsString) : Prop :=
  ∀ k row, t.lookup k = some row → ∃ record, rowToRecord row = some record

/-- A statement that writes no metadata but what decodes. -/
def Statement.Legible : Statement JsString → Prop
  | .Complete _ _ _ _ result => ∃ stored, decodeResultMeta result.resultMeta = some stored
  | _ => True

lemma rowToRecord_claimRow (op : Operation) (opts : BeginOptions) (fence : ℤ) :
    rowToRecord (claimRow op.columns opts.columns fence)
      = some (MemoryStore.newRecord op opts fence) := rfl

lemma readable_empty : Readable Table.empty := by
  intro k row h
  cases h

lemma readable_put {t : Records JsString} (h : Readable t) {row : RecordRow JsString}
    (hrow : ∃ record, rowToRecord row = some record) : Readable (t.put row) := by
  intro k row' hlookup
  rw [Table.lookup_put] at hlookup
  split_ifs at hlookup with hk
  · cases hlookup
    exact hrow
  · exact h k row' hlookup

lemma readable_remove {t : Records JsString} (h : Readable t) (p : RecordRow JsString → Bool) :
    Readable (t.remove p) := by
  intro k row hlookup
  rw [Table.lookup_remove] at hlookup
  exact h k row (Option.filter_eq_some_iff.mp hlookup).1

/-- **Every statement of these stores keeps the table readable.** -/
lemma readable_run {t : Records JsString} (h : Readable t) {c : Statement JsString}
    (hc : c.Legible) : Readable (c.run t).2 := by
  cases c with
  | Begin claim terms =>
      show Readable (beginSql t claim terms).2
      rw [beginSql_eq]
      split_ifs
      · exact readable_put h ⟨_, rfl⟩
      · exact h
  | Complete scope key fence now result =>
      obtain ⟨stored, hstored⟩ := hc
      show Readable (completeSql t scope key fence now result).2
      rw [completeSql_eq]
      split
      · exact h
      · refine readable_put h ?_
        simp [rowToRecord, rowResult, completedRow, hstored]
  | Abandon scope key fence =>
      show Readable (abandonSql t scope key fence).2
      rw [abandonSql_eq]
      split
      · exact h
      · exact readable_remove h _
  | Get scope key now => exact h
  | Select scope key => exact h
  | Purge now => exact readable_remove h _
  | Remove scope key => exact readable_remove h _

lemma readable_step {ι X : Type} {t t' : Records JsString} (h : Readable t)
    {p : ι × Statement JsString} {r : Tagged ι (SqlReply X) p} (hobj : sqlObj t p r t')
    (hc : p.2.Legible) : Readable t' := by
  cases r with
  | ok returned =>
      have hrun : p.2.run t = (returned, t') := hobj
      have hkeep := readable_run h hc
      rw [hrun] at hkeep
      exact hkeep
  | error err =>
      rcases hobj with rfl | rfl
      · exact h
      · exact readable_run h hc

/-- What statements of these stores reach is readable, before every step. -/
lemma readable_history {ι X : Type} {Q : List (SqlEntry ι JsString X) → Records JsString →
      ι × Statement JsString → Prop} {t₀ t : Records JsString} {h : List (SqlEntry ι JsString X)}
    (hh : History (fun h s p => Q h s p ∧ p.2.Legible) sqlObj t₀ h t) (h₀ : Readable t₀) :
    ∀ e ∈ h, Readable e.pre := by
  intro e he
  obtain ⟨h₁, h₂, rfl⟩ := List.append_of_mem he
  refine History.invariant (P := fun _ t => Readable t) h₀ ?_ hh.at_entry.1
  intro h s c r s' _ hs ha hobj
  exact readable_step hs hobj ha.2

/-- The metadata a store binds is what `encodeResultMeta` wrote. -/
lemma only_legible {X : Type} (d : SqlDialect) (c : StoreCall Operation BeginOptions Completion) :
    (d.program (X := X) c).Only Statement.Legible := by
  have hquery : ∀ {α : Type} {c : Statement JsString} {k : SqlReply X c → SqlProg JsString X α},
      c.Legible → (∀ r, (k r).Only Statement.Legible) →
      (query c >>= k).Only Statement.Legible :=
    fun hc hk => only_bind ⟨hc, fun _ => trivial⟩ hk
  cases c with
  | Begin op opts =>
      refine only_retry ?_ _ 3
      refine hquery trivial fun r => ?_
      rcases r with err | (_ | fence)
      · trivial
      · refine hquery trivial fun r => ?_
        cases r <;> trivial
      · trivial
  | Complete op fence result now =>
      refine hquery ⟨_, decodeResultMeta_encodeResultMeta result⟩ fun r => ?_
      rcases r with err | (_ | fence)
      · trivial
      · refine hquery trivial fun r => ?_
        cases r <;> trivial
      · trivial
  | Abandon op fence =>
      refine hquery trivial fun r => ?_
      rcases r with err | (_ | fence)
      · trivial
      · refine hquery trivial fun r => ?_
        cases r <;> trivial
      · trivial
  | Get op now =>
      refine hquery trivial fun r => ?_
      rcases r with err | (_ | row) <;> trivial
  | Purge now =>
      refine hquery trivial fun r => ?_
      cases r <;> trivial
  | PhysicallyRemove op =>
      refine hquery trivial fun r => ?_
      cases r <;> trivial

/-- The records of `MemoryStore` in the rows of the TypeScript stores. -/
def recordReading : RowReading memoryModel JsString where
  columns := Operation.columns
  terms := BeginOptions.columns
  read := rowToRecord
  whole := id
  claimable_eq op o row record h := by
    obtain ⟨hfp, hst, -, hlease, hexp⟩ := rowToRecord_fields h
    rw [Bool.eq_iff_iff, ClaimModel.claimable_some, ClaimModel.claimable_some]
    simp only [memoryModel_expiresAt, memoryModel_now, memoryModel_fingerprint,
      memoryModel_opFingerprint, memoryModel_state, memoryModel_leaseUntil, hfp, hst, hlease, hexp]
    rfl
  fence_eq row record h := (rowToRecord_fields h).2.2.1
  read_fresh op o f := rowToRecord_claimRow op o f
  whole_read _ _ _ := rfl

/-- **The classification after a refused claim** settles on the rows that are not claimable. -/
lemma classifier {X : Type} (d : SqlDialect) (op : Operation) (opts : BeginOptions) :
    Classifier op.columns opts.columns
      (fun row => (rowToRecord row).map (memoryModel.classify op))
      (d.classify (X := X) op opts) := by
  rw [d.classify_eq]
  constructor
  · intro row out hclaim hreport
    obtain ⟨record, hread, rfl⟩ := Option.map_eq_some_iff.mp hreport
    obtain ⟨hfp, hst, -, hlease, -⟩ := rowToRecord_fields hread
    obtain ⟨row', hsome, hlive, hwhy⟩ := ClaimModel.not_claimable hclaim
    cases hsome
    simp only [rowModel_now, rowModel_expiresAt, rowModel_fingerprint, rowModel_opFingerprint,
      rowModel_state, rowModel_leaseUntil, Operation.columns, BeginOptions.columns] at hlive hwhy
    have hunexpired : ¬ row.expiresAt ≤ opts.now := not_le.mpr hlive
    simp only [PostgresStore.classify, if_neg hunexpired, readRow, hread, ClaimModel.classify,
      memoryModel_fingerprint, memoryModel_opFingerprint, memoryModel_state, memoryModel_leaseUntil,
      hfp, hst, hlease]
    by_cases hmismatch : row.fingerprint = op.fingerprint
    · by_cases hdone : row.state = .Completed
      · simp [hmismatch, hdone]
      · have hheld : ¬ row.leaseUntil ≤ opts.now := by
          rcases hwhy with h | h | h
          · exact absurd hmismatch h
          · exact absurd h hdone
          · exact not_le.mpr h
        simp [hmismatch, hdone, hheld]
    · simp [hmismatch]
  · intro existing out hsettled
    cases existing with
    | none => cases hsettled
    | some row =>
        simp only [PostgresStore.classify, readRow] at hsettled
        by_cases hexp : row.expiresAt ≤ opts.now
        · rw [if_pos hexp] at hsettled
          cases hsettled
        rw [if_neg hexp] at hsettled
        cases hread : rowToRecord row with
        | none =>
            rw [hread] at hsettled
            cases hsettled
        | some record =>
            obtain ⟨hfp, hst, -, hlease, -⟩ := rowToRecord_fields hread
            rw [hread] at hsettled
            refine ⟨row, rfl, ?_, ?_⟩
            · rw [← Bool.not_eq_true, ClaimModel.claimable_some]
              rintro (h | ⟨h₁, h₂, h₃⟩)
              · exact hexp h
              · simp only [rowModel_fingerprint, rowModel_opFingerprint, rowModel_state,
                  rowModel_leaseUntil, rowModel_now, Operation.columns,
                  BeginOptions.columns] at h₁ h₂ h₃
                simp [h₁, h₂, h₃] at hsettled
            · show (rowToRecord row).map (memoryModel.classify op) = some out
              simp only [hread, Option.map_some, ClaimModel.classify, memoryModel_fingerprint,
                memoryModel_opFingerprint, memoryModel_state, memoryModel_leaseUntil, hfp, hst,
                hlease]
              dsimp only at hsettled
              split_ifs at hsettled ⊢
              · exact congrArg some (Except.ok.inj (Option.some.inj hsettled))
              · exact congrArg some (Except.ok.inj (Option.some.inj hsettled))
              · exact congrArg some (Except.ok.inj (Option.some.inj hsettled))

/-- A memory store holds, at the key of the operation, the record the table holds there. -/
def Holds (m : MemoryStore) (op : Operation) (t : Records JsString) : Prop :=
  (t.lookup (op.scope, op.key)).map rowToRecord = (m.cell op).map some

/-- `MemoryStore.begin` on the record of the table: the same outcome, and the record it leaves is the
one in the table afterwards.  No other row changes. -/
def AtomicBegin (op : Operation) (opts : BeginOptions) (out : BeginOutcome IdempotencyRecord)
    (t t' : Records JsString) : Prop :=
  (∃ m, Holds m op t) ∧ ∀ m, Holds m op t → (m.begin op opts).1 = out
    ∧ Holds (m.begin op opts).2 op t' ∧ ∀ k, k ≠ (op.scope, op.key) → t'.lookup k = t.lookup k

lemma cell_withCell (m : MemoryStore) (op : Operation) (cell : Option IdempotencyRecord) :
    (m.withCell op cell).cell op = cell := by
  rw [MemoryStore.cell, MemoryStore.withCell, OrderedMap.get_setCell, if_pos rfl]

lemma atomicBegin_of_cell {op : Operation} {opts : BeginOptions}
    {out : BeginOutcome IdempotencyRecord} {t t' : Records JsString}
    (h : recordReading.AtomicCell op opts out t t') : AtomicBegin op opts out t t' := by
  obtain ⟨⟨cell, hcell⟩, hstep⟩ := h
  constructor
  · refine ⟨MemoryStore.empty.withCell op cell, ?_⟩
    rw [Holds, cell_withCell]
    exact hcell
  · intro m hm
    obtain ⟨hout, hpost, hframe⟩ := hstep (m.cell op) hm
    rw [MemoryStore.begin_eq]
    refine ⟨hout, ?_, hframe⟩
    rw [Holds, cell_withCell]
    have hid : (memoryModel.begin op opts (m.cell op)).2.map recordReading.whole
        = (memoryModel.begin op opts (m.cell op)).2 := Option.map_id'
    rw [hid] at hpost
    exact hpost

/-! ## The Go store -/

namespace Go

/-- What the columns keep of a record: its times in whole milliseconds. -/
def Record.wholeMillis (r : Record) : Record :=
  { r with
    leaseUntil := unixMilli (ms r.leaseUntil)
    createdAt := unixMilli (ms r.createdAt)
    expiresAt := unixMilli (ms r.expiresAt) }

lemma unixMilli_le {n now : ℤ} : unixMilli n ≤ now ↔ n ≤ ms now := by
  unfold unixMilli ms
  omega

lemma ms_unixMilli (n : ℤ) : ms (unixMilli n) = n := by
  unfold unixMilli ms
  omega

variable (json : MetaJson)

/-- The records of the Go memory store in the rows of `sqlstore`. -/
def recordReading : RowReading memoryModel GoString where
  columns := Operation.columns
  terms := BeginOptions.columns
  read row := some (toRecord json row)
  whole := Record.wholeMillis
  claimable_eq op o row record h := by
    cases h
    rw [Bool.eq_iff_iff, ClaimModel.claimable_some, ClaimModel.claimable_some]
    simp only [memoryModel_expiresAt, memoryModel_now, memoryModel_fingerprint,
      memoryModel_opFingerprint, memoryModel_state, memoryModel_leaseUntil, toRecord, unixMilli_le]
    rfl
  fence_eq row record h := by
    cases h
    rfl
  read_fresh op o f := rfl
  whole_read row record h := by
    cases h
    simp [Record.wholeMillis, toRecord, ms_unixMilli]

/-- **The classification after a refused claim** settles on the rows that are not claimable. -/
lemma classifier (op : Operation) (opts : BeginOptions) :
    Classifier op.columns opts.columns
      (fun row => (some (toRecord json row)).map (memoryModel.classify op))
      (classify json op opts) := by
  constructor
  · intro row out hclaim hreport
    cases hreport
    obtain ⟨row', hsome, hlive, hwhy⟩ := ClaimModel.not_claimable hclaim
    cases hsome
    simp only [rowModel_now, rowModel_expiresAt, rowModel_fingerprint, rowModel_opFingerprint,
      rowModel_state, rowModel_leaseUntil, Operation.columns, BeginOptions.columns] at hlive hwhy
    have hunexpired : ¬ row.expiresAt ≤ ms opts.now := not_le.mpr hlive
    simp only [classify, if_neg hunexpired, ClaimModel.classify, memoryModel_fingerprint,
      memoryModel_opFingerprint, memoryModel_state, memoryModel_leaseUntil, toRecord_fingerprint,
      toRecord_state]
    by_cases hmismatch : row.fingerprint = op.fingerprint
    · by_cases hdone : row.state = .Completed
      · simp [hmismatch, hdone]
      · have hheld : row.leaseUntil > ms opts.now := by
          rcases hwhy with h | h | h
          · exact absurd hmismatch h
          · exact absurd h hdone
          · exact h
        simp [hmismatch, hdone, hheld]
    · simp [hmismatch]
  · intro existing out hsettled
    cases existing with
    | none => cases hsettled
    | some row =>
        simp only [classify] at hsettled
        by_cases hexp : row.expiresAt ≤ ms opts.now
        · rw [if_pos hexp] at hsettled
          cases hsettled
        rw [if_neg hexp] at hsettled
        refine ⟨row, rfl, ?_, ?_⟩
        · rw [← Bool.not_eq_true, ClaimModel.claimable_some]
          rintro (h | ⟨h₁, h₂, h₃⟩)
          · exact hexp h
          · simp only [rowModel_fingerprint, rowModel_opFingerprint, rowModel_state,
              rowModel_leaseUntil, rowModel_now, Operation.columns, BeginOptions.columns] at h₁ h₂ h₃
            simp [h₁, h₂, not_lt.mpr h₃] at hsettled
        · simp only [Option.map_some, ClaimModel.classify, memoryModel_fingerprint,
            memoryModel_opFingerprint, memoryModel_state, memoryModel_leaseUntil,
            toRecord_fingerprint, toRecord_state]
          split_ifs at hsettled ⊢
          · exact congrArg some (Except.ok.inj (Option.some.inj hsettled))
          · exact congrArg some (Except.ok.inj (Option.some.inj hsettled))
          · exact congrArg some (Except.ok.inj (Option.some.inj hsettled))

/-- A memory store holds, at the key of the operation, the record the table holds there. -/
def Holds (m : MemoryStore) (op : Operation) (t : Records GoString) : Prop :=
  (t.lookup (op.scope, op.key)).map (toRecord json) = m.cell op

/-- `Begin` of the Go memory store on the record of the table: the same outcome, and the record it
leaves is, in whole milliseconds, the one in the table afterwards.  No other row changes. -/
def AtomicBegin (op : Operation) (opts : BeginOptions) (out : BeginOutcome Record)
    (t t' : Records GoString) : Prop :=
  (∃ m, Holds json m op t) ∧ ∀ m, Holds json m op t → (m.beginLive op opts).1 = out
    ∧ (t'.lookup (op.scope, op.key)).map (toRecord json)
      = ((m.beginLive op opts).2.cell op).map Record.wholeMillis
    ∧ ∀ k, k ≠ (op.scope, op.key) → t'.lookup k = t.lookup k

lemma cell_withCell (m : MemoryStore) (op : Operation) (cell : Option Record) :
    (m.withCell op cell).cell op = cell := by
  rw [MemoryStore.cell, MemoryStore.withCell, OrderedMap.get_setCell, if_pos rfl]

lemma reads_iff {row : Option (RecordRow GoString)} {cell : Option Record} :
    (recordReading json).Reads row cell ↔ row.map (toRecord json) = cell := by
  cases row <;> cases cell <;> simp [RowReading.Reads, recordReading]

lemma atomicBegin_of_cell {op : Operation} {opts : BeginOptions} {out : BeginOutcome Record}
    {t t' : Records GoString} (h : (recordReading json).AtomicCell op opts out t t') :
    AtomicBegin json op opts out t t' := by
  obtain ⟨⟨cell, hcell⟩, hstep⟩ := h
  constructor
  · refine ⟨MemoryStore.empty.withCell op cell, ?_⟩
    rw [Holds, cell_withCell]
    exact (reads_iff json).mp hcell
  · intro m hm
    obtain ⟨hout, hpost, hframe⟩ := hstep (m.cell op) ((reads_iff json).mpr hm)
    rw [MemoryStore.beginLive_eq]
    refine ⟨hout, ?_, hframe⟩
    rw [cell_withCell]
    exact (reads_iff json).mp hpost

end Go

/-! ## The theorem -/

/-- **`begin` over SQL is linearizable.**  In every interleaving of the statements of any calls, by
any number of callers, on the Postgres, D1 and Go stores: a `begin` that returned an outcome acted
as the memory store does at one of its own statements and changed nothing with the others; a `begin`
that threw "could not settle" changed nothing; and one whose first claim was refused, with no write
to its row before its first read, settled with that read. -/
theorem sql_begin_linearizable {ι : Type} [DecidableEq ι] :
    (∀ (X : Type) (d : SqlDialect) (calls : ι → StoreCall Operation BeginOptions Completion)
        (t₀ : Records JsString), Readable t₀ →
        ∀ cfg, Interleave (fun _ _ _ => True) sqlObj t₀ (poolOf (d.program (X := X)) calls) cfg →
        ∀ i op opts, calls i = .Begin op opts →
          LinearizableBegin (op.scope, op.key) (AtomicBegin op opts)
            (fun out => cfg.pool i = .Ret ⟨.Begin op opts, .ok out⟩)
            (cfg.pool i = .Ret ⟨.Begin op opts, .error (.Unsettled d.unsettled)⟩) i cfg.history)
      ∧ ∀ (json : Go.MetaJson)
        (calls : ι → StoreCall Go.Operation Go.BeginOptions Go.StoredResult)
        (t₀ : Records Go.GoString) cfg,
        Interleave (fun _ _ _ => True) sqlObj t₀ (poolOf (Go.program json) calls) cfg →
        ∀ i op opts, calls i = .Begin op opts →
          LinearizableBegin (op.scope, op.key) (Go.AtomicBegin json op opts)
            (fun out => cfg.pool i = .Ret ⟨.Begin op opts, .ok out⟩)
            (cfg.pool i = .Ret ⟨.Begin op opts, .error .Unsettled⟩) i cfg.history := by
  constructor
  · intro X d calls t₀ h₀ cfg h i op opts hcall
    have hlegible : ∀ i, (poolOf (d.program (X := X)) calls i).Only Statement.Legible := fun i =>
      only_bind (only_legible d (calls i)) fun _ => trivial
    have hread := readable_history (h.history_only hlegible).2 h₀
    refine LinearizableBegin.imp (RowReading.linearizable (R := recordReading) (classifier d op opts)
      (fun x => ?_) (fun x => ?_) (fun existing => ?_) h (fun _ _ heq => ?_)
      (poolOf_eq _ hcall) fun e he row hrow => hread e he _ row hrow) fun _ _ _ => atomicBegin_of_cell
    · simp
    · simp
    · rw [d.classify_eq]
      cases existing with
      | none => simp [PostgresStore.classify]
      | some row =>
          simp only [PostgresStore.classify, readRow]
          cases rowToRecord row <;> dsimp only <;> split_ifs <;> simp
    · cases heq
      rfl
  · intro json calls t₀ cfg h i op opts hcall
    refine LinearizableBegin.imp (RowReading.linearizable (R := Go.recordReading json)
      (Go.classifier json op opts) (fun x => ?_) (fun x => ?_) (fun existing => ?_) h
      (fun _ _ heq => ?_) (poolOf_eq _ hcall) fun e he row hrow => ⟨_, rfl⟩)
      fun _ _ _ => Go.atomicBegin_of_cell json
    · cases x <;> simp [Go.beginFailed]
    · cases x <;> simp [Go.selectFailed]
    · cases existing with
      | none => simp [Go.classify]
      | some row =>
          simp only [Go.classify]
          split_ifs <;> simp
    · cases heq
      rfl

/-- The operation of the calls below. -/
def raceOp : Operation := ⟨js "orders", js "k1", js "p"⟩

/-- A claim, a duplicate of it, and one whose clock is past the lease of the first. -/
def raceCalls : ℕ → StoreCall Operation BeginOptions Completion
  | 0 => .Begin raceOp ⟨10, 100, 0⟩
  | 1 => .Begin raceOp ⟨10, 100, 5⟩
  | _ => .Begin raceOp ⟨10, 100, 10⟩

/-- The takeover falls between the refused claim of the duplicate and its read. -/
def race := sqlRun (SqlDialect.Postgres.program (X := Unit)) raceCalls Table.empty [0, 1, 2, 1]

/-- The operation of the Go calls below. -/
def Go.raceOp : Go.Operation := ⟨ascii "orders", ascii "k1", ascii "p"⟩

/-- A claim and a duplicate of it; times in nanoseconds. -/
def Go.raceCalls : ℕ → StoreCall Go.Operation Go.BeginOptions Go.StoredResult
  | 0 => .Begin Go.raceOp ⟨10000000, 100000000, 0⟩
  | _ => .Begin Go.raceOp ⟨10000000, 100000000, 1500000⟩

/-- JSON is not used by these calls. -/
def Go.unusedJson : Go.MetaJson where
  marshal _ := .error (.Opaque (ascii "unused"))
  unmarshal _ := .error (.Opaque (ascii "unused"))

def Go.race := sqlRun (Go.program Go.unusedJson) Go.raceCalls Table.empty [0, 1, 1]

theorem sql_begin_linearizable_race :
    (race.pool 1 = .Ret ⟨.Begin raceOp ⟨10, 100, 5⟩, .ok (.InFlight 20)⟩
        ∧ ∃ es e, entriesOf 1 race.history = es ++ [e] ∧ (∀ e' ∈ es, e'.post = e'.pre)
          ∧ AtomicBegin raceOp ⟨10, 100, 5⟩ (.InFlight 20) e.pre e.post)
      ∧ Go.race.pool 1
          = .Ret ⟨.Begin Go.raceOp ⟨10000000, 100000000, 1500000⟩, .ok (.InFlight 10000000)⟩
        ∧ ∃ es e, entriesOf 1 Go.race.history = es ++ [e] ∧ (∀ e' ∈ es, e'.post = e'.pre)
          ∧ Go.AtomicBegin Go.unusedJson Go.raceOp ⟨10000000, 100000000, 1500000⟩
            (.InFlight 10000000) e.pre e.post := by
  refine ⟨⟨rfl, ?_⟩, rfl, ?_⟩
  · exact (sql_begin_linearizable.1 Unit .Postgres raceCalls Table.empty readable_empty race
      (interleave_sqlRun _ _ _ _) 1 raceOp ⟨10, 100, 5⟩ rfl).settled _ rfl
  · exact (sql_begin_linearizable.2 Go.unusedJson Go.raceCalls Table.empty Go.race
      (interleave_sqlRun _ _ _ _) 1 Go.raceOp ⟨10000000, 100000000, 1500000⟩ rfl).settled _ rfl

end Anyonce
