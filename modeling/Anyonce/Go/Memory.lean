import Anyonce.Claim.Store
import Anyonce.Core.Table
import Anyonce.Go.Types

/-!
# The Go memory store

`memory.Store` of `go/store/memory/memory.go`: a map guarded by one mutex, so every method is one
atomic step.  Each method first asks the caller's context; `ctxErr` is `ctx.Err()`, and a dead
context is answered with its error before the map is touched.  The rest of each method is the
in-process store of `packages/core/src/memory.ts` over again, and `memoryClaims` shows that it is:
with a live context it acts on single cells as the same contract says.
-/

namespace Anyonce.Go

open Relational

/-- The key of the map, as in the TypeScript store. -/
def mapKey (scope key : GoString) : GoString := scope ++ 0x00 :: key

/-- Records in a map, guarded by one mutex. -/
structure MemoryStore where
  records : OrderedMap GoString Record

namespace MemoryStore

/-- The store `New` returns. -/
def empty : MemoryStore := ⟨Table.empty⟩

/-- The record `Begin` writes for a new claim. -/
def newRecord (op : Operation) (opts : BeginOptions) (fence : ℤ) : Record where
  scope := op.scope
  key := op.key
  fingerprint := op.fingerprint
  state := .InFlight
  fence := fence
  leaseUntil := opts.now + opts.lease
  createdAt := opts.now
  expiresAt := opts.now + opts.ttl

/-- `Begin` with a live context. -/
def beginLive (s : MemoryStore) (op : Operation) (opts : BeginOptions) :
    BeginOutcome Record × MemoryStore :=
  let k := mapKey op.scope op.key
  let existing := s.records.get k
  let acquire : BeginOutcome Record × MemoryStore :=
    let fence := match existing with
      | none => 1
      | some row => row.fence + 1
    (.Acquired fence, ⟨s.records.set k (newRecord op opts fence)⟩)
  match existing with
  | none => acquire
  | some row =>
      if row.expiresAt > opts.now then
        if row.fingerprint ≠ op.fingerprint then (.Mismatch row.clone, s)
        else if row.state = .Completed then (.Completed row.clone, s)
        else if row.leaseUntil > opts.now then (.InFlight row.leaseUntil, s)
        else acquire
      else acquire

/-- The record after its result is stored; the omitted form keeps everything but the body. -/
def storeResult (row : Record) (result : StoredResult) : Record :=
  let stored := result.clone
  if result.omitted then
    { row with
      state := .Completed
      result := some { stored with body := none }
      resultOmitted := true }
  else { row with state := .Completed, result := some stored }

/-- `Complete` with a live context. -/
def completeLive (s : MemoryStore) (op : Operation) (fence : ℤ) (result : StoredResult) (now : ℤ) :
    CompleteStatus × MemoryStore :=
  let k := mapKey op.scope op.key
  match s.records.get k with
  | none => (.NotFound, s)
  | some row =>
      if ¬ row.expiresAt > now then (.NotFound, s)
      else if row.fence ≠ fence then (.StaleFence, s)
      else if row.state = .Completed then (.Ok, s)
      else (.Ok, ⟨s.records.set k (storeResult row result)⟩)

/-- `Abandon` with a live context. -/
def abandonLive (s : MemoryStore) (op : Operation) (fence : ℤ) : CompleteStatus × MemoryStore :=
  let k := mapKey op.scope op.key
  match s.records.get k with
  | none => (.NotFound, s)
  | some row =>
      if row.state ≠ .InFlight then (.NotFound, s)
      else if row.fence ≠ fence then (.StaleFence, s)
      else (.Ok, ⟨s.records.delete k⟩)

/-- `Get` with a live context. -/
def getLive (s : MemoryStore) (op : Operation) (now : ℤ) : Option Record :=
  match s.records.get (mapKey op.scope op.key) with
  | none => none
  | some row => if ¬ row.expiresAt > now then none else some row.clone

/-- `Purge` with a live context. -/
def purgeLive (s : MemoryStore) (now : ℤ) : ℕ × MemoryStore :=
  let (removed, records) := s.records.sweep fun rec => ¬ rec.expiresAt > now
  (removed, ⟨records⟩)

/-- `PhysicallyRemove` with a live context. -/
def physicallyRemoveLive (s : MemoryStore) (op : Operation) : MemoryStore :=
  ⟨s.records.delete (mapKey op.scope op.key)⟩

/-! ## The methods

Each asks its context first: `ctxErr` is what `ctx.Err()` returned.
-/

variable {E : Type}

/-- A method under a context: a dead context returns its error and leaves the map alone. -/
def underContext {α : Type} (s : MemoryStore) (ctxErr : Option E) (live : α × MemoryStore) :
    Except E α × MemoryStore :=
  match ctxErr with
  | some err => (.error err, s)
  | none => (.ok live.1, live.2)

/-- `Begin`: the context is asked before the lock is taken. -/
def begin (s : MemoryStore) (ctxErr : Option E) (op : Operation) (opts : BeginOptions) :
    Except E (BeginOutcome Record) × MemoryStore :=
  s.underContext ctxErr (s.beginLive op opts)

/-- `Complete` under a context; the map is touched by `completeLive` only. -/
def complete (s : MemoryStore) (ctxErr : Option E) (op : Operation) (fence : ℤ)
    (result : StoredResult) (now : ℤ) : Except E CompleteStatus × MemoryStore :=
  s.underContext ctxErr (s.completeLive op fence result now)

/-- `Abandon` under a context; a dead one leaves the claim to its lease. -/
def abandon (s : MemoryStore) (ctxErr : Option E) (op : Operation) (fence : ℤ) :
    Except E CompleteStatus × MemoryStore :=
  s.underContext ctxErr (s.abandonLive op fence)

/-- `Get` under a context.  A reading leaves the map as it was. -/
def get (s : MemoryStore) (ctxErr : Option E) (op : Operation) (now : ℤ) :
    Except E (Option Record) × MemoryStore :=
  s.underContext ctxErr (s.getLive op now, s)

/-- `Purge` under a context. -/
def purge (s : MemoryStore) (ctxErr : Option E) (now : ℤ) : Except E ℕ × MemoryStore :=
  s.underContext ctxErr (s.purgeLive now)

/-- Test-only: what a sweep does to one record. -/
def physicallyRemove (s : MemoryStore) (ctxErr : Option E) (op : Operation) :
    Except E Unit × MemoryStore :=
  s.underContext ctxErr ((), s.physicallyRemoveLive op)

/-- One call of the interface under a context. -/
def apply (s : MemoryStore) (ctxErr : Option E) :
    (c : StoreCall Operation BeginOptions StoredResult) →
      Except E (StoreReply Record c) × MemoryStore
  | .Begin op opts => s.begin ctxErr op opts
  | .Complete op fence result now => s.complete ctxErr op fence result now
  | .Abandon op fence => s.abandon ctxErr op fence
  | .Get op now => s.get ctxErr op now
  | .Purge now => s.purge ctxErr now
  | .PhysicallyRemove op => s.physicallyRemove ctxErr op

/-- Calls one after another, each under its own context, with their replies. -/
def runCalls (s : MemoryStore) :
    List (Option E × StoreCall Operation BeginOptions StoredResult) →
      List ((c : StoreCall Operation BeginOptions StoredResult) × Except E (StoreReply Record c))
        × MemoryStore
  | [] => ([], s)
  | (ctxErr, c) :: rest =>
      let (reply, s') := s.apply ctxErr c
      let (replies, s'') := s'.runCalls rest
      (⟨c, reply⟩ :: replies, s'')

/-! ## The cells -/

end MemoryStore

/-- The accessors of `Record`, and the two ways the store writes one. -/
@[simps]
def memoryModel : ClaimModel GoString Operation BeginOptions Record StoredResult where
  opFingerprint := Operation.fingerprint
  now := BeginOptions.now
  leaseEnd o := o.now + o.lease
  expiry o := o.now + o.ttl
  fingerprint := Record.fingerprint
  state := Record.state
  fence := Record.fence
  leaseUntil := Record.leaseUntil
  expiresAt := Record.expiresAt
  fresh := MemoryStore.newRecord
  finish p r := MemoryStore.storeResult r p
  fingerprint_fresh _ _ _ := rfl
  state_fresh _ _ _ := rfl
  fence_fresh _ _ _ := rfl
  leaseUntil_fresh _ _ _ := rfl
  expiresAt_fresh _ _ _ := rfl
  fingerprint_finish p _ := by unfold MemoryStore.storeResult; split_ifs <;> rfl
  state_finish p _ := by unfold MemoryStore.storeResult; split_ifs <;> rfl
  fence_finish p _ := by unfold MemoryStore.storeResult; split_ifs <;> rfl
  leaseUntil_finish p _ := by unfold MemoryStore.storeResult; split_ifs <;> rfl
  expiresAt_finish p _ := by unfold MemoryStore.storeResult; split_ifs <;> rfl

namespace MemoryStore

variable (s : MemoryStore) (op : Operation)

/-- The cell an operation goes to. -/
abbrev cell : Option Record := s.records.get (mapKey op.scope op.key)

/-- The store with that cell written. -/
abbrev withCell (c : Option Record) : MemoryStore :=
  ⟨s.records.setCell (mapKey op.scope op.key) c⟩

lemma withCell_cell : s.withCell op (s.cell op) = s := by
  rw [withCell, OrderedMap.setCell_get]

lemma beginLive_eq (opts : BeginOptions) : s.beginLive op opts
    = ((memoryModel.begin op opts (s.cell op)).1,
      s.withCell op (memoryModel.begin op opts (s.cell op)).2) := by
  rcases memoryModel.begin_cases op opts (s.cell op) with ⟨hc, hb⟩ | ⟨hc, row, hrow, hlive, hb⟩
  · rw [hb]
    cases hrow : s.cell op with
    | none =>
        simp only [beginLive, hrow]
        rfl
    | some row =>
        rw [hrow, ClaimModel.claimable_some] at hc
        simp only [memoryModel_expiresAt, memoryModel_now, memoryModel_fingerprint,
          memoryModel_opFingerprint, memoryModel_state, memoryModel_leaseUntil] at hc
        simp only [beginLive, hrow, gt_iff_lt]
        rcases hc with hexp | ⟨hfp, hst, hlease⟩
        · rw [if_neg (not_lt.mpr hexp)]
          rfl
        · simp only [ne_eq, hfp, not_true_eq_false, hst, reduceCtorEq, if_neg (not_lt.mpr hlease),
            if_false, ite_self]
          rfl
  · rw [hb, ← hrow, withCell_cell]
    rw [hrow, ← Bool.not_eq_true, ClaimModel.claimable_some, not_or, not_and, not_and] at hc
    simp only [memoryModel_fingerprint, memoryModel_opFingerprint, memoryModel_state,
      memoryModel_leaseUntil, memoryModel_now, not_le] at hc
    simp only [memoryModel_now, memoryModel_expiresAt] at hlive
    simp only [beginLive, hrow, ClaimModel.classify, gt_iff_lt, if_pos hlive, Record.clone_eq,
      memoryModel_fingerprint, memoryModel_opFingerprint, memoryModel_state,
      memoryModel_leaseUntil]
    by_cases hfp : row.fingerprint = op.fingerprint
    · by_cases hst : row.state = .Completed
      · simp [hfp, hst]
      · have hin : row.state = .InFlight := memoryModel.state_eq_inFlight_of_ne hst
        simp [hfp, hin, hc.2 hfp hin]
    · simp [hfp]

lemma completeLive_eq (fence : ℤ) (result : StoredResult) (now : ℤ) :
    s.completeLive op fence result now
      = ((memoryModel.complete fence result now (s.cell op)).1,
        s.withCell op (memoryModel.complete fence result now (s.cell op)).2) := by
  have hself := s.withCell_cell op
  cases hrow : s.cell op with
  | none =>
      rw [hrow] at hself
      simp only [completeLive, hrow, ClaimModel.complete, hself]
  | some row =>
      rw [hrow] at hself
      simp only [completeLive, hrow, ClaimModel.complete, memoryModel_expiresAt,
        memoryModel_fence, memoryModel_state, memoryModel_finish, gt_iff_lt, not_lt]
      by_cases hexp : row.expiresAt ≤ now
      · simp only [if_pos hexp, hself]
      · by_cases hf : row.fence = fence
        · by_cases hst : row.state = .Completed
          · simp [hexp, hf, hst, hself]
          · simp [hexp, hf, hst, OrderedMap.setCell]
        · simp [hexp, hf, hself]

lemma abandonLive_eq (fence : ℤ) : s.abandonLive op fence
    = ((memoryModel.abandon fence (s.cell op)).1,
      s.withCell op (memoryModel.abandon fence (s.cell op)).2) := by
  have hself := s.withCell_cell op
  cases hrow : s.cell op with
  | none =>
      rw [hrow] at hself
      simp only [abandonLive, hrow, ClaimModel.abandon, hself]
  | some row =>
      rw [hrow] at hself
      simp only [abandonLive, hrow, ClaimModel.abandon, memoryModel_fence, memoryModel_state]
      by_cases hst : row.state = .InFlight
      · by_cases hf : row.fence = fence
        · simp [hf, hst, OrderedMap.setCell]
        · simp [hf, hst, hself]
      · simp [hst, hself]

lemma getLive_eq (now : ℤ) : s.getLive op now = memoryModel.live now (s.cell op) := by
  cases hrow : s.cell op with
  | none => simp only [getLive, hrow, ClaimModel.live, Option.filter_none]
  | some row =>
      simp only [getLive, hrow, ClaimModel.live, memoryModel_expiresAt, Record.clone_eq]
      by_cases hexp : row.expiresAt ≤ now
      · simp [hexp, Option.filter]
      · simp [Option.filter, not_le.mp hexp]

end MemoryStore

/-- **With a live context the Go store acts on single cells as the contract says.** -/
def memoryClaims : ClaimStore memoryModel MemoryStore GoString where
  addr op := mapKey op.scope op.key
  lookup s k := s.records.get k
  begin := MemoryStore.beginLive
  complete := MemoryStore.completeLive
  abandon := MemoryStore.abandonLive
  get := MemoryStore.getLive
  purge := MemoryStore.purgeLive
  physicallyRemove := MemoryStore.physicallyRemoveLive
  begin_reply s op o := by rw [MemoryStore.beginLive_eq]
  begin_lookup s op o a := by
    rw [MemoryStore.beginLive_eq, OrderedMap.get_setCell]
    split_ifs with ha
    · rw [ha]
    · rfl
  complete_reply s op f p now := by rw [MemoryStore.completeLive_eq]
  complete_lookup s op f p now a := by
    rw [MemoryStore.completeLive_eq, OrderedMap.get_setCell]
    split_ifs with ha
    · rw [ha]
    · rfl
  abandon_reply s op f := by rw [MemoryStore.abandonLive_eq]
  abandon_lookup s op f a := by
    rw [MemoryStore.abandonLive_eq, OrderedMap.get_setCell]
    split_ifs with ha
    · rw [ha]
    · rfl
  get_reply s op now := MemoryStore.getLive_eq s op now
  purge_lookup s now a := by
    simp only [MemoryStore.purgeLive, OrderedMap.sweep_eq]
    have hrem := OrderedMap.get_remove s.records (fun row => decide (¬ row.expiresAt > now)) a
    rw [hrem, ClaimModel.live]
    simp only [memoryModel_expiresAt, ← decide_not, gt_iff_lt, not_not]
  remove_lookup s op a := by
    rw [MemoryStore.physicallyRemoveLive, OrderedMap.get_delete]

namespace MemoryStore

variable {E : Type} (s : MemoryStore)

/-- A call under a dead context returns its error and leaves the store as it was. -/
@[simp] lemma apply_dead (err : E) (c : StoreCall Operation BeginOptions StoredResult) :
    s.apply (some err) c = (.error err, s) := by
  cases c <;> rfl

/-- A call under a live context is the call of the contract. -/
@[simp] lemma apply_live (c : StoreCall Operation BeginOptions StoredResult) :
    s.apply (none : Option E) c = (.ok (memoryClaims.apply s c).1, (memoryClaims.apply s c).2) := by
  cases c <;> rfl

end MemoryStore

end Anyonce.Go
