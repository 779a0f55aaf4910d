import Anyonce.Go.SqlStore
import Anyonce.Sql.Concurrency

/-!
# What a `complete` over SQL may say

A refused `COMPLETE_SQL` is classified by a later `SELECT`, which looks at the expiry and the fence
of the row it finds and not at its state.  If the row was deleted and claimed anew in between, the
new claim can carry the same fence number while it is still in flight, and the call answers `ok`
although no result was ever stored (`refused_complete_says_ok`).

`complete_truthful_unless_reclaimed` is the other side: in every run in which no classifying read
meets such a row, an `ok` is true.
-/

namespace Anyonce

open Interaction Relational

section

variable {T X Err : Type} [DecidableEq T] {ι : Type}

/-- The row is completed under that fence. -/
def CompletedAt (key : T × T) (fence : ℤ) (t : Records T) : Prop :=
  ∃ row, t.lookup key = some row ∧ row.state = .Completed ∧ row.fence = fence

/-- At some instant between the first and the last statement of the caller `i`, the row was
completed under that fence. -/
def CompletedDuring (i : ι) (key : T × T) (fence : ℤ) (h : List (SqlEntry ι T X)) : Prop :=
  ∃ h₁ e h₂, h = h₁ ++ e :: h₂ ∧ (∃ e₁ ∈ h₁ ++ [e], e₁.cmd.1 = i) ∧ (∃ e₂ ∈ e :: h₂, e₂.cmd.1 = i)
    ∧ (CompletedAt key fence e.pre ∨ CompletedAt key fence e.post)

/-- A live row in flight under that fence: what a classifying read must not meet. -/
def Reclaimed (key : T × T) (fence now : ℤ) (t : Records T) : Prop :=
  ∃ row, t.lookup key = some row ∧ now < row.expiresAt ∧ row.fence = fence ∧ row.state = .InFlight

lemma completedDuring_of_own [DecidableEq ι] {i : ι} {key : T × T} {fence : ℤ}
    {h : List (SqlEntry ι T X)} {e : SqlEntry ι T X} (he : e ∈ entriesOf i h)
    (hc : CompletedAt key fence e.post) : CompletedDuring i key fence h := by
  obtain ⟨hmem, hown⟩ := mem_entriesOf.mp he
  obtain ⟨h₁, h₂, rfl⟩ := List.append_of_mem hmem
  exact ⟨h₁, e, h₂, rfl, ⟨e, by simp, hown⟩, ⟨e, by simp, hown⟩, Or.inr hc⟩

/-- The row after a completing statement that returned it. -/
lemma completedAt_of_complete {t t' : Records T} {scope key : T} {fence now f : ℤ}
    {result : ResultColumns T} (h : completeSql t scope key fence now result = (some f, t')) :
    CompletedAt (scope, key) fence t' := by
  rw [completeSql_eq] at h
  cases hsel : (t.lookup (scope, key)).filter (RecordRow.completable fence now) with
  | none =>
      rw [hsel] at h
      cases h
  | some row =>
      rw [hsel] at h
      cases h
      obtain ⟨hrow, hcond⟩ := Option.filter_eq_some_iff.mp hsel
      simp only [RecordRow.completable, Bool.and_eq_true, decide_eq_true_eq] at hcond
      refine ⟨completedRow result row, ?_, rfl, hcond.1.1⟩
      rw [Table.lookup_put, completedRow_primaryKey, Table.key_of_lookup hrow, if_pos rfl]

/-- **A `complete` that answered `ok`** wrote its result, or read a row completed under its fence,
unless the row it read was claimed anew. -/
lemma complete_truthful [DecidableEq ι] {scope key : T} {fence now : ℤ} {result : ResultColumns T}
    {writeFailed selectFailed : X → Err} {h : List (SqlEntry ι T X)} {i : ι}
    (hobj : ∀ e ∈ h, sqlObj e.pre e.cmd e.reply e.post)
    (hread : ∀ e ∈ h, e.cmd = (i, .Select scope key) → ¬ Reclaimed (scope, key) fence now e.pre)
    (hrun : Runs (completeProgram scope key fence now result writeFailed selectFailed)
      (traceOf i h) (.ok .Ok)) : CompletedDuring i (scope, key) fence h := by
  rcases runs_completeProgram hrun with ⟨f, htrace, -⟩ | ⟨existing, htrace, hstatus⟩
  · obtain ⟨es, e, hsplit, -, he⟩ := entries_of_trace (show traceOf i h = [] ++ [_] from htrace)
    have hown : e ∈ entriesOf i h := by simp [hsplit]
    refine completedDuring_of_own hown ?_
    have hstep := hobj e (mem_entriesOf.mp hown).1
    obtain ⟨t, ⟨j, c⟩, reply, t'⟩ := e
    cases he
    exact completedAt_of_complete hstep
  · obtain ⟨es, e, hsplit, -, he⟩ := entries_of_trace (show traceOf i h = [_] ++ [_] from htrace)
    have hown : e ∈ entriesOf i h := by simp [hsplit]
    refine completedDuring_of_own hown ?_
    obtain ⟨hmem, hi⟩ := mem_entriesOf.mp hown
    have hstep := hobj e hmem
    have hfree := hread e hmem
    obtain ⟨t, ⟨j, c⟩, reply, t'⟩ := e
    cases he
    obtain rfl : j = i := hi
    have hsel : (selectSql t scope key, t) = (existing, t') := hstep
    obtain ⟨hrow, rfl⟩ := Prod.mk.inj hsel
    cases existing with
    | none => cases hstatus
    | some row =>
        simp only [completeStatus] at hstatus
        split_ifs at hstatus with hexp hfence
        rw [not_not] at hfence
        refine ⟨row, hrow, ?_, hfence⟩
        cases hst : row.state with
        | Completed => rfl
        | InFlight =>
            exact absurd ⟨row, hrow, not_le.mp hexp, hfence, hst⟩ (hfree rfl)

end

/-! ## Runs -/

/-- The reads that classify a refused `complete` meet no row that was claimed anew. -/
def NoneReclaimed {ι X : Type} (calls : ι → StoreCall Operation BeginOptions Completion)
    (_ : List (SqlEntry ι JsString X)) (t : Records JsString) (p : ι × Statement JsString) : Prop :=
  ∀ op fence result now, calls p.1 = .Complete op fence result now →
    p.2 = .Select op.scope op.key → ¬ Reclaimed (op.scope, op.key) fence now t

/-- The same of the Go store, whose clock is in nanoseconds. -/
def Go.NoneReclaimed {ι : Type}
    (calls : ι → StoreCall Go.Operation Go.BeginOptions Go.StoredResult)
    (_ : List (SqlEntry ι Go.GoString Go.DriverFailure)) (t : Records Go.GoString)
    (p : ι × Statement Go.GoString) : Prop :=
  ∀ op fence result now, calls p.1 = .Complete op fence result now →
    p.2 = .Select op.scope op.key → ¬ Reclaimed (op.scope, op.key) fence (Go.ms now) t

/-- **A `complete` that says `ok` is truthful unless the row was claimed anew.**  In every
interleaving in which no read that classifies a refused `complete` meets a live row in flight under
the fence of that call, on the Postgres, D1 and Go stores: whenever a `complete` returns `ok`, the row
was completed under its fence at some instant of the call. -/
theorem complete_truthful_unless_reclaimed {ι : Type} [DecidableEq ι] :
    (∀ (X : Type) (d : SqlDialect) (calls : ι → StoreCall Operation BeginOptions Completion)
        (t₀ : Records JsString) cfg,
        Interleave (NoneReclaimed calls) sqlObj t₀ (poolOf (d.program (X := X)) calls) cfg →
        ∀ i op fence result now, cfg.pool i = .Ret ⟨.Complete op fence result now, .ok .Ok⟩ →
          CompletedDuring i (op.scope, op.key) fence cfg.history)
      ∧ ∀ (json : Go.MetaJson)
        (calls : ι → StoreCall Go.Operation Go.BeginOptions Go.StoredResult)
        (t₀ : Records Go.GoString) cfg,
        Interleave (Go.NoneReclaimed calls) sqlObj t₀ (poolOf (Go.program json) calls) cfg →
        ∀ i op fence result now, cfg.pool i = .Ret ⟨.Complete op fence result now, .ok .Ok⟩ →
          CompletedDuring i (op.scope, op.key) fence cfg.history := by
  constructor
  · intro X d calls t₀ cfg h i op fence result now hret
    obtain ⟨hcall, hrun⟩ := h.returned hret
    refine complete_truthful (fun e he => h.history.obj_of_mem he) (fun e he hcmd => ?_) hrun
    obtain ⟨h₁, hallowed⟩ := h.history.allowed_of_mem he
    rw [hcmd] at hallowed
    exact hallowed op fence result now hcall rfl
  · intro json calls t₀ cfg h i op fence result now hret
    obtain ⟨hcall, hrun⟩ := h.returned hret
    have hcomplete : Runs (Go.complete json op fence result now) (traceOf i cfg.history) (.ok .Ok) :=
      hrun
    rw [Go.complete] at hcomplete
    cases hencode : Go.encodeMeta json result with
    | error err =>
        rw [hencode] at hcomplete
        obtain ⟨-, hfalse⟩ := runs_ret_iff.mp hcomplete
        cases hfalse
    | ok text =>
        rw [hencode] at hcomplete
        refine complete_truthful (fun e he => h.history.obj_of_mem he) (fun e he hcmd => ?_)
          hcomplete
        obtain ⟨h₁, hallowed⟩ := h.history.allowed_of_mem he
        rw [hcmd] at hallowed
        exact hallowed op fence result now hcall rfl

/-- The operation of the calls below. -/
def lateOp : Operation := ⟨js "orders", js "k1", js "p"⟩

/-- A claim and two completions under its fence. -/
def twiceCalls : ℕ → StoreCall Operation BeginOptions Completion
  | 0 => .Begin lateOp ⟨10, 100, 0⟩
  | 1 => .Complete lateOp 1 (.Stored { kind := .Http, status := some 201 }) 5
  | _ => .Complete lateOp 1 (.Stored { kind := .Http, status := some 500 }) 6

/-- The second completion is refused and reads the result of the first. -/
def twice := sqlRun (SqlDialect.Postgres.program (X := Unit)) twiceCalls Table.empty [0, 1, 2, 2]

/-- What Go's JSON makes of the metadata of the result below. -/
def Go.createdJson : Go.MetaJson where
  marshal _ := .ok (ascii "\x7b\"kind\":\"http\",\"status\":201\x7d")
  unmarshal _ := .ok ⟨.Http, some 201, none, none, none⟩

/-- A claim and its completion on the Go store. -/
def Go.onceCalls : ℕ → StoreCall Go.Operation Go.BeginOptions Go.StoredResult
  | 0 => .Begin ⟨ascii "orders", ascii "k1", ascii "p"⟩ ⟨10000000, 100000000, 0⟩
  | _ => .Complete ⟨ascii "orders", ascii "k1", ascii "p"⟩ 1 { kind := .Http, status := 201 } 5000000

def Go.once := sqlRun (Go.program Go.createdJson) Go.onceCalls Table.empty [0, 1]

theorem complete_truthful_unless_reclaimed_twice :
    CompletedDuring 2 (lateOp.scope, lateOp.key) 1 twice.history
      ∧ CompletedDuring 1 (Go.ascii "orders", Go.ascii "k1") 1 Go.once.history := by
  have hreads : ∀ e ∈ twice.history, (match e.cmd.2 with
      | .Select _ _ => e.pre.rows.all fun row => row.state = .Completed
      | _ => true) = true := by
    decide +kernel
  have hguard : Interleave (NoneReclaimed twiceCalls) sqlObj Table.empty
      (poolOf (SqlDialect.Postgres.program (X := Unit)) twiceCalls) twice := by
    refine (interleave_sqlRun _ _ _ _).guard fun e he op fence result now _ hsel => ?_
    rintro ⟨row, hrow, -, -, hst⟩
    have hall := hreads e he
    rw [hsel] at hall
    have hdone := List.all_eq_true.mp hall row (Table.mem_of_lookup hrow)
    rw [decide_eq_true_eq, hst] at hdone
    cases hdone
  have hnoread : ∀ e ∈ Go.once.history, (match e.cmd.2 with
      | .Select _ _ => false
      | _ => true) = true := by
    decide +kernel
  have hgo : Interleave (Go.NoneReclaimed Go.onceCalls) sqlObj Table.empty
      (poolOf (Go.program Go.createdJson) Go.onceCalls) Go.once := by
    refine (interleave_sqlRun _ _ _ _).guard fun e he op fence result now _ hsel => ?_
    have hnone := hnoread e he
    rw [hsel] at hnone
    cases hnone
  exact ⟨complete_truthful_unless_reclaimed.1 Unit .Postgres twiceCalls Table.empty twice hguard 2
      lateOp 1 _ 6 rfl,
    complete_truthful_unless_reclaimed.2 Go.createdJson Go.onceCalls Table.empty Go.once hgo 1
      ⟨_, _, _⟩ 1 _ _ rfl⟩

/-- A claim that expires and is purged, its late completion, and a claim of another payload. -/
def lateCalls : ℕ → StoreCall Operation BeginOptions Completion
  | 0 => .Begin lateOp ⟨5, 10, 0⟩
  | 1 => .Purge 10
  | 2 => .Complete lateOp 1 (.Stored { kind := .Http, status := some 201 }) 12
  | _ => .Begin { lateOp with fingerprint := js "q" } ⟨5, 10, 12⟩

/-- The new claim falls between the refused completion and its read. -/
def late := sqlRun (SqlDialect.Postgres.program (X := Unit)) lateCalls Table.empty [0, 1, 2, 3, 2]

/-- **A refused `complete` may say `ok`.**  The late completion finds no row, the next claim of the
key gets the restarted fence 1, and the read that classifies the refusal takes it for the caller's
own: `ok`, while nothing was stored at any time. -/
theorem refused_complete_says_ok :
    ¬ ∀ (calls : ℕ → StoreCall Operation BeginOptions Completion) cfg,
      Interleave (fun _ _ _ => True) sqlObj Table.empty
        (poolOf (SqlDialect.Postgres.program (X := Unit)) calls) cfg →
      ∀ i op fence result now, cfg.pool i = .Ret ⟨.Complete op fence result now, .ok .Ok⟩ →
        CompletedDuring i (op.scope, op.key) fence cfg.history := by
  intro hall
  obtain ⟨h₁, e, h₂, hsplit, -, -, hdone⟩ :=
    hall lateCalls late (interleave_sqlRun _ _ _ _) 2 lateOp 1 _ 12 rfl
  have hinFlight : ∀ e ∈ late.history,
      (∀ row ∈ e.pre.rows, row.state = .InFlight) ∧ ∀ row ∈ e.post.rows, row.state = .InFlight := by
    decide +kernel
  have he := hinFlight e (by simp [hsplit])
  rcases hdone with ⟨row, hrow, hst, -⟩ | ⟨row, hrow, hst, -⟩
  · rw [he.1 row (Table.mem_of_lookup hrow)] at hst
    cases hst
  · rw [he.2 row (Table.mem_of_lookup hrow)] at hst
    cases hst

end Anyonce
