import Anyonce.Claim.Store
import Anyonce.Core.Table
import Anyonce.Key

/-!
# The TypeScript memory store

`MemoryStore` of `packages/core/src/memory.ts`: a map from `scope ␀ key` to records.  Each method
reads and writes without yielding, so each is one atomic step.  The methods are written as the
source writes them; `memoryModel` and `memoryClaims` then show that, seen from one map key, they are
the cell operations of `Claim/Model.lean`.
-/

namespace Anyonce

open Relational

/-- The key of the map: the scope and the key with a U+0000 between them. -/
def mapKey (scope key : JsString) : JsString := scope ++ 0x00 :: key

/-- Keys that `validateKey` admits keep different operations at different map keys. -/
lemma mapKey_inj {scope scope' key key' : JsString} (hkey : 0x00 ∉ key) (hkey' : 0x00 ∉ key')
    (h : mapKey scope key = mapKey scope' key') : scope = scope' ∧ key = key' :=
  append_separator_inj hkey hkey' h

def copyResult (result : StoredResult) : StoredResult where
  kind := result.kind
  status := result.status
  headers := result.headers.map fun hs => hs.map fun (n, v) => (n, v)
  body := result.body
  outcome := result.outcome
  error := result.error.map fun e => ⟨e.name, e.message⟩

/-- The result kept for an omitted body: kind, status and headers survive, the body, outcome and error do not. -/
def omittedToStored (result : OmittedResult) : StoredResult where
  kind := result.kind
  status := result.status
  headers := result.headers.map fun hs => hs.map fun (n, v) => (n, v)

def copyRecord (record : IdempotencyRecord) : IdempotencyRecord where
  scope := record.scope
  key := record.key
  fingerprint := record.fingerprint
  state := record.state
  fence := record.fence
  leaseUntil := record.leaseUntil
  createdAt := record.createdAt
  expiresAt := record.expiresAt
  result := record.result.map copyResult
  resultOmitted := record.resultOmitted

/-- A copy of a result has the same content; only its identity differs, which values do not show. -/
@[simp] lemma copyResult_eq (result : StoredResult) : copyResult result = result := by
  obtain ⟨kind, status, headers, body, outcome, error⟩ := result
  simp [copyResult]

@[simp] lemma copyRecord_eq (record : IdempotencyRecord) : copyRecord record = record := by
  have hcopy : copyResult = id := funext copyResult_eq
  simp [copyRecord, hcopy]

/-- REQ-CORE-6: the in-process store. -/
structure MemoryStore where
  records : OrderedMap JsString IdempotencyRecord

namespace MemoryStore

/-- The store a process starts with. -/
def empty : MemoryStore := ⟨Table.empty⟩

/-- The record `begin` writes for a new claim. -/
def newRecord (op : Operation) (opts : BeginOptions) (fence : ℤ) : IdempotencyRecord where
  scope := op.scope
  key := op.key
  fingerprint := op.fingerprint
  state := .InFlight
  fence := fence
  leaseUntil := opts.now + opts.leaseMs
  createdAt := opts.now
  expiresAt := opts.now + opts.ttlMs

/-- The claim in nested conditions: an absent or expired row is taken, a live one is a mismatch, a replay or a wait, and a
live claim of the same payload whose lease has lapsed is taken over.  The fence goes on from the row while there is one. -/
def begin (s : MemoryStore) (op : Operation) (opts : BeginOptions) :
    BeginOutcome IdempotencyRecord × MemoryStore :=
  let key := mapKey op.scope op.key
  let existing := s.records.get key
  -- the claim itself, reached when no early return applies
  let acquire : BeginOutcome IdempotencyRecord × MemoryStore :=
    let fence := match existing with
      | none => 1
      | some row => row.fence + 1
    (.Acquired fence, ⟨s.records.set key (newRecord op opts fence)⟩)
  match existing with
  | none => acquire
  | some row =>
      if row.expiresAt > opts.now then
        if row.fingerprint ≠ op.fingerprint then (.Mismatch (copyRecord row), s)
        else if row.state = .Completed then (.Completed (copyRecord row), s)
        else if row.leaseUntil > opts.now then (.InFlight row.leaseUntil, s)
        else acquire
      else acquire

/-- The record after its result is stored; a full result leaves `resultOmitted` as it was. -/
def storeCompletion (row : IdempotencyRecord) : Completion → IdempotencyRecord
  | .Omitted result =>
      { row with
        state := .Completed
        result := some (omittedToStored result)
        resultOmitted := some true }
  | .Stored result => { row with state := .Completed, result := some (copyResult result) }

/-- Stores a result under the fence of a live row.  A row that is completed already keeps its first result, and the caller
is told `ok` all the same. -/
def complete (s : MemoryStore) (op : Operation) (fence : ℤ) (result : Completion) (now : ℤ) :
    CompleteStatus × MemoryStore :=
  let key := mapKey op.scope op.key
  match s.records.get key with
  | none => (.NotFound, s)
  | some row =>
      if row.expiresAt ≤ now then (.NotFound, s)
      else if row.fence ≠ fence then (.StaleFence, s)
      else if row.state = .Completed then (.Ok, s)
      else (.Ok, ⟨s.records.set key (storeCompletion row result)⟩)

/-- Deletes a row in flight under its fence, so that the next claim starts again at fence 1. -/
def abandon (s : MemoryStore) (op : Operation) (fence : ℤ) : CompleteStatus × MemoryStore :=
  let key := mapKey op.scope op.key
  match s.records.get key with
  | none => (.NotFound, s)
  | some row =>
      if row.state ≠ .InFlight then (.NotFound, s)
      else if row.fence ≠ fence then (.StaleFence, s)
      else (.Ok, ⟨s.records.delete key⟩)

/-- A copy of the live record; the row of an expired one is left for the purge. -/
def get (s : MemoryStore) (op : Operation) (now : ℤ) : Option IdempotencyRecord :=
  match s.records.get (mapKey op.scope op.key) with
  | none => none
  | some row => if row.expiresAt ≤ now then none else some (copyRecord row)

/-- The loop deletes the expired entries while it iterates. -/
def purge (s : MemoryStore) (now : ℤ) : ℕ × MemoryStore :=
  let (removed, records) := s.records.sweep fun record => record.expiresAt ≤ now
  (removed, ⟨records⟩)

/-- Test-only: simulates a native TTL sweep deleting the row. -/
def physicallyRemove (s : MemoryStore) (op : Operation) : MemoryStore :=
  ⟨s.records.delete (mapKey op.scope op.key)⟩

/-- **What `purge` does**: it removes exactly the expired records and returns how many there were. -/
lemma purge_eq (s : MemoryStore) (now : ℤ) :
    s.purge now = (s.records.rows.countP fun e => e.2.expiresAt ≤ now,
      ⟨Table.remove s.records fun e => e.2.expiresAt ≤ now⟩) := by
  simp only [purge, OrderedMap.sweep_eq]

end MemoryStore

/-! ## The memory store is a store of claims -/

/-- The accessors of `IdempotencyRecord`, and the two ways `MemoryStore` writes one. -/
@[simps]
def memoryModel : ClaimModel JsString Operation BeginOptions IdempotencyRecord Completion where
  opFingerprint := Operation.fingerprint
  now := BeginOptions.now
  leaseEnd o := o.now + o.leaseMs
  expiry o := o.now + o.ttlMs
  fingerprint := IdempotencyRecord.fingerprint
  state := IdempotencyRecord.state
  fence := IdempotencyRecord.fence
  leaseUntil := IdempotencyRecord.leaseUntil
  expiresAt := IdempotencyRecord.expiresAt
  fresh := MemoryStore.newRecord
  finish p r := MemoryStore.storeCompletion r p
  fingerprint_fresh _ _ _ := rfl
  state_fresh _ _ _ := rfl
  fence_fresh _ _ _ := rfl
  leaseUntil_fresh _ _ _ := rfl
  expiresAt_fresh _ _ _ := rfl
  fingerprint_finish p _ := by cases p <;> rfl
  state_finish p _ := by cases p <;> rfl
  fence_finish p _ := by cases p <;> rfl
  leaseUntil_finish p _ := by cases p <;> rfl
  expiresAt_finish p _ := by cases p <;> rfl

namespace MemoryStore

variable (s : MemoryStore) (op : Operation)

/-- The cell an operation goes to. -/
abbrev cell : Option IdempotencyRecord := s.records.get (mapKey op.scope op.key)

/-- The store with that cell written. -/
abbrev withCell (c : Option IdempotencyRecord) : MemoryStore :=
  ⟨s.records.setCell (mapKey op.scope op.key) c⟩

lemma withCell_cell : s.withCell op (s.cell op) = s := by
  rw [withCell, OrderedMap.setCell_get]

/-- `begin` is the cell operation at the operation's map key. -/
lemma begin_eq (opts : BeginOptions) : s.begin op opts
    = ((memoryModel.begin op opts (s.cell op)).1,
      s.withCell op (memoryModel.begin op opts (s.cell op)).2) := by
  rcases memoryModel.begin_cases op opts (s.cell op) with ⟨hc, hb⟩ | ⟨hc, row, hrow, hlive, hb⟩
  · rw [hb]
    cases hrow : s.cell op with
    | none =>
        simp only [begin, hrow]
        rfl
    | some row =>
        rw [hrow, ClaimModel.claimable_some] at hc
        simp only [memoryModel_expiresAt, memoryModel_now, memoryModel_fingerprint,
          memoryModel_opFingerprint, memoryModel_state, memoryModel_leaseUntil] at hc
        simp only [begin, hrow, gt_iff_lt]
        rcases hc with hexp | ⟨hfp, hst, hlease⟩
        · rw [if_neg (not_lt.mpr hexp)]
          rfl
        · simp only [ne_eq, hfp, not_true_eq_false, hst, reduceCtorEq, if_neg (not_lt.mpr hlease),
            if_false, ite_self]
          rfl
  · rw [hb, ← hrow, withCell_cell]
    rw [hrow, ← Bool.not_eq_true, ClaimModel.claimable_some, not_or, not_and, not_and] at hc
    simp only [memoryModel_fingerprint, memoryModel_opFingerprint, memoryModel_state,
      memoryModel_leaseUntil, memoryModel_now, not_le] at hc
    simp only [memoryModel_now, memoryModel_expiresAt] at hlive
    simp only [begin, hrow, ClaimModel.classify, gt_iff_lt, if_pos hlive, copyRecord_eq,
      memoryModel_fingerprint, memoryModel_opFingerprint, memoryModel_state,
      memoryModel_leaseUntil]
    by_cases hfp : row.fingerprint = op.fingerprint
    · by_cases hst : row.state = .Completed
      · simp [hfp, hst]
      · have hin : row.state = .InFlight := memoryModel.state_eq_inFlight_of_ne hst
        simp [hfp, hin, hc.2 hfp hin]
    · simp [hfp]

/-- `complete` is the cell operation at the operation's map key. -/
lemma complete_eq (fence : ℤ) (result : Completion) (now : ℤ) :
    s.complete op fence result now
      = ((memoryModel.complete fence result now (s.cell op)).1,
        s.withCell op (memoryModel.complete fence result now (s.cell op)).2) := by
  have hself := s.withCell_cell op
  cases hrow : s.cell op with
  | none =>
      rw [hrow] at hself
      simp only [complete, hrow, ClaimModel.complete, hself]
  | some row =>
      rw [hrow] at hself
      simp only [complete, hrow, ClaimModel.complete, memoryModel_expiresAt, memoryModel_fence,
        memoryModel_state, memoryModel_finish]
      by_cases hexp : row.expiresAt ≤ now
      · simp only [if_pos hexp, hself]
      · by_cases hf : row.fence = fence
        · by_cases hst : row.state = .Completed
          · simp [hexp, hf, hst, hself]
          · simp [hexp, hf, hst, OrderedMap.setCell]
        · simp [hexp, hf, hself]

/-- `abandon` is the cell operation at the operation's map key. -/
lemma abandon_eq (fence : ℤ) : s.abandon op fence
    = ((memoryModel.abandon fence (s.cell op)).1,
      s.withCell op (memoryModel.abandon fence (s.cell op)).2) := by
  have hself := s.withCell_cell op
  cases hrow : s.cell op with
  | none =>
      rw [hrow] at hself
      simp only [abandon, hrow, ClaimModel.abandon, hself]
  | some row =>
      rw [hrow] at hself
      simp only [abandon, hrow, ClaimModel.abandon, memoryModel_fence, memoryModel_state]
      by_cases hst : row.state = .InFlight
      · by_cases hf : row.fence = fence
        · simp [hf, hst, OrderedMap.setCell]
        · simp [hf, hst, hself]
      · simp [hst, hself]

/-- `get` shows the row while it is live. -/
lemma get_eq (now : ℤ) : s.get op now = memoryModel.live now (s.cell op) := by
  cases hrow : s.cell op with
  | none => simp only [get, hrow, ClaimModel.live, Option.filter_none]
  | some row =>
      simp only [get, hrow, ClaimModel.live, memoryModel_expiresAt, copyRecord_eq]
      by_cases hexp : row.expiresAt ≤ now
      · simp [hexp, Option.filter]
      · simp [Option.filter, not_le.mp hexp]

end MemoryStore

/-- **The memory store acts on single cells as the contract says.** -/
def memoryClaims : ClaimStore memoryModel MemoryStore JsString where
  addr op := mapKey op.scope op.key
  lookup s k := s.records.get k
  begin := MemoryStore.begin
  complete := MemoryStore.complete
  abandon := MemoryStore.abandon
  get := MemoryStore.get
  purge := MemoryStore.purge
  physicallyRemove := MemoryStore.physicallyRemove
  begin_reply s op o := by rw [MemoryStore.begin_eq]
  begin_lookup s op o a := by
    rw [MemoryStore.begin_eq, OrderedMap.get_setCell]
    split_ifs with ha
    · rw [ha]
    · rfl
  complete_reply s op f p now := by rw [MemoryStore.complete_eq]
  complete_lookup s op f p now a := by
    rw [MemoryStore.complete_eq, OrderedMap.get_setCell]
    split_ifs with ha
    · rw [ha]
    · rfl
  abandon_reply s op f := by rw [MemoryStore.abandon_eq]
  abandon_lookup s op f a := by
    rw [MemoryStore.abandon_eq, OrderedMap.get_setCell]
    split_ifs with ha
    · rw [ha]
    · rfl
  get_reply s op now := MemoryStore.get_eq s op now
  purge_lookup s now a := by
    rw [MemoryStore.purge_eq]
    have hrem := OrderedMap.get_remove s.records (fun row => decide (row.expiresAt ≤ now)) a
    rw [hrem, ClaimModel.live]
    simp only [memoryModel_expiresAt, ← decide_not, not_le]
  remove_lookup s op a := by
    rw [MemoryStore.physicallyRemove, OrderedMap.get_delete]

end Anyonce
