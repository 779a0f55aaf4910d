import Anyonce.Claim.MutualExclusion
import Anyonce.Claim.Stability
import Anyonce.Go.Memory
import Anyonce.Store.Memory

/-!
# Whole runs of the memory stores

The two in-process stores, TypeScript and Go, over arbitrary runs.

* `memory_runs_exclusive` — mutual exclusion of claims, in the runs in which no late `abandon` meets
  a foreign row under its own fence number.  Without that condition it fails
  (`late_abandon_opens_claim`): the fence restarts at 1 when `abandon` has deleted the row, and an
  old holder's fence then fits the new holder's row.
* `completed_record_stable` — a completed record does not change while it is live.
-/

namespace Anyonce

open Interaction Relational

/-! ## Mutual exclusion -/

/-- Of two claims granted on one `(scope, key)`, the first holder has settled before the second
grant, or the second comes at or after the end of the first one's lease or TTL. -/
def ClaimsExclude {ι : Type} (h : List (memoryClaims.StoreEntry ι)) : Prop :=
  ∀ h₁ eA h₂ eB h₃, h = h₁ ++ eA :: (h₂ ++ eB :: h₃) →
    ∀ opA oA fA opB oB fB, grantOf eA.cmd.2 eA.reply = some (opA, oA, fA) →
      grantOf eB.cmd.2 eB.reply = some (opB, oB, fB) →
      opA.scope = opB.scope → opA.key = opB.key →
        memoryClaims.Settled h₂ eA.cmd.1 ∨ oA.now + min oA.leaseMs oA.ttlMs ≤ oB.now

/-- The same of the Go store. -/
def Go.ClaimsExclude {ι : Type} (h : List (Go.memoryClaims.StoreEntry ι)) : Prop :=
  ∀ h₁ eA h₂ eB h₃, h = h₁ ++ eA :: (h₂ ++ eB :: h₃) →
    ∀ opA oA fA opB oB fB, grantOf eA.cmd.2 eA.reply = some (opA, oA, fA) →
      grantOf eB.cmd.2 eB.reply = some (opB, oB, fB) →
      opA.scope = opB.scope → opA.key = opB.key →
        Go.memoryClaims.Settled h₂ eA.cmd.1 ∨ oA.now + min oA.lease oA.ttl ≤ oB.now

/-- **Mutual exclusion of claims.**  In every run of disciplined callers in which no `abandon` of a
holder whose row was deleted meets an in-flight row under its fence number, a live unsettled claim is
never granted a second time. -/
theorem memory_runs_exclusive {ι : Type} :
    (∀ (h : List (memoryClaims.StoreEntry ι)) (s : MemoryStore),
        memoryClaims.GuardedRun MemoryStore.empty h s → ClaimsExclude h)
      ∧ ∀ (h : List (Go.memoryClaims.StoreEntry ι)) (s : Go.MemoryStore),
        Go.memoryClaims.GuardedRun Go.MemoryStore.empty h s → Go.ClaimsExclude h := by
  constructor
  · intro h s hh h₁ eA h₂ eB h₃ hsplit opA oA fA opB oB fB hA hB hscope hkey
    have haddr : memoryClaims.addr opA = memoryClaims.addr opB := by
      show mapKey opA.scope opA.key = mapKey opB.scope opB.key
      rw [hscope, hkey]
    rcases ClaimStore.exclusion hh h₁ eA h₂ eB h₃ hsplit opA oA fA opB oB fB hA hB haddr with
      hset | hterm
    · exact Or.inl hset
    · rw [memoryModel_leaseEnd, memoryModel_expiry, memoryModel_now] at hterm
      exact Or.inr (by omega)
  · intro h s hh h₁ eA h₂ eB h₃ hsplit opA oA fA opB oB fB hA hB hscope hkey
    have haddr : Go.memoryClaims.addr opA = Go.memoryClaims.addr opB := by
      show Go.mapKey opA.scope opA.key = Go.mapKey opB.scope opB.key
      rw [hscope, hkey]
    rcases ClaimStore.exclusion hh h₁ eA h₂ eB h₃ hsplit opA oA fA opB oB fB hA hB haddr with
      hset | hterm
    · exact Or.inl hset
    · rw [Go.memoryModel_leaseEnd, Go.memoryModel_expiry, Go.memoryModel_now] at hterm
      exact Or.inr (by omega)

/-- One key, one payload. -/
def orderOp : Operation := ⟨js "orders", js "k1", js "p"⟩

/-- A claim that is abandoned by its holder and taken by the next caller at once. -/
def handedOver : List (ℕ × StoreCall Operation BeginOptions Completion) :=
  [(0, .Begin orderOp ⟨10, 100, 0⟩), (0, .Abandon orderOp 1), (1, .Begin orderOp ⟨10, 100, 1⟩)]

/-- The same calls of the Go store, in nanoseconds. -/
def Go.handedOver : List (ℕ × StoreCall Go.Operation Go.BeginOptions Go.StoredResult) :=
  let op : Go.Operation := ⟨ascii "orders", ascii "k1", ascii "p"⟩
  [(0, .Begin op ⟨10000000, 100000000, 0⟩), (0, .Abandon op 1), (1, .Begin op ⟨10000000, 100000000, 1000000⟩)]

theorem memory_runs_exclusive_handedOver :
    ClaimsExclude (memoryClaims.record MemoryStore.empty handedOver)
      ∧ Go.ClaimsExclude (Go.memoryClaims.record Go.MemoryStore.empty Go.handedOver) := by
  refine ⟨memory_runs_exclusive.1 _ (memoryClaims.reached MemoryStore.empty handedOver) ?_,
    memory_runs_exclusive.2 _ (Go.memoryClaims.reached Go.MemoryStore.empty Go.handedOver) ?_⟩
  · exact ClaimStore.history_record History.start handedOver ⟨⟨by decide +kernel, trivial⟩,
      ⟨by decide +kernel, fun hlost => absurd hlost ClaimStore.not_rowLost_single⟩,
      ⟨by decide +kernel, trivial⟩, trivial⟩
  · exact ClaimStore.history_record History.start Go.handedOver ⟨⟨by decide +kernel, trivial⟩,
      ⟨by decide +kernel, fun hlost => absurd hlost ClaimStore.not_rowLost_single⟩,
      ⟨by decide +kernel, trivial⟩, trivial⟩

/-- Caller 0 outlives its lease; caller 1 takes over and abandons, which deletes the row; caller 2
claims the key afresh, again with fence 1; the late abandon of caller 0 then deletes caller 2's live
claim, and caller 3 is granted the key beside caller 2. -/
def lateAbandon : List (ℕ × StoreCall Operation BeginOptions Completion) :=
  [(0, .Begin orderOp ⟨10, 100, 0⟩), (1, .Begin orderOp ⟨10, 100, 10⟩), (1, .Abandon orderOp 2),
    (2, .Begin orderOp ⟨10, 100, 11⟩), (0, .Abandon orderOp 1), (3, .Begin orderOp ⟨10, 100, 12⟩)]

/-- **A late abandon opens a live claim to a second handler.** -/
theorem late_abandon_opens_claim :
    ¬ ∀ (h : List (memoryClaims.StoreEntry ℕ)) (s : MemoryStore),
      memoryClaims.DisciplinedRun MemoryStore.empty h s → ClaimsExclude h := by
  intro hall
  have hrun : memoryClaims.DisciplinedRun MemoryStore.empty
      (memoryClaims.record MemoryStore.empty lateAbandon)
      (memoryClaims.reached MemoryStore.empty lateAbandon) :=
    ClaimStore.history_record History.start lateAbandon (by decide +kernel)
  have hex := hall _ _ hrun ((memoryClaims.record MemoryStore.empty lateAbandon).take 3) _
    [memoryClaims.entry _ (0, .Abandon orderOp 1)] _ [] rfl orderOp ⟨10, 100, 11⟩ 1 orderOp
    ⟨10, 100, 12⟩ 1 rfl rfl rfl rfl
  revert hex
  decide +kernel

/-! ## Replay stability -/

/-- Calls under contexts of their own: those under a dead one do nothing, so the record stays. -/
lemma Go.stable_run_context {E : Type} {a : Go.GoString} {r : Go.Record} (hs : r.state = .Completed) :
    ∀ (calls : List (Option E × StoreCall Go.Operation Go.BeginOptions Go.StoredResult))
      {s : Go.MemoryStore}, s.records.get a = some r →
      (∀ c ∈ calls, c.2.ClocksBelow Go.BeginOptions.now r.expiresAt) →
      (s.runCalls calls).2.records.get a = some r
        ∧ ∀ op o out, ⟨.Begin op o, .ok out⟩ ∈ (s.runCalls calls).1 →
          Go.memoryClaims.addr op = a → out = ClaimStore.replay Go.memoryModel op r
  | [], s, hrow, _ => ⟨hrow, by simp [Go.MemoryStore.runCalls]⟩
  | (ctxErr, c) :: rest, s, hrow, hbelow => by
      have hc := hbelow (ctxErr, c) (by simp)
      have hbelow' : ∀ c' ∈ rest, c'.2.ClocksBelow Go.BeginOptions.now r.expiresAt :=
        fun c' hc' => hbelow c' (by simp [hc'])
      cases ctxErr with
      | some err =>
          obtain ⟨hend, hreplies⟩ := stable_run_context hs rest hrow hbelow'
          simp only [Go.MemoryStore.runCalls, Go.MemoryStore.apply_dead]
          refine ⟨hend, ?_⟩
          intro op o out hmem ha
          rcases List.mem_cons.mp hmem with heq | hrest
          · cases heq
          · exact hreplies op o out hrest ha
      | none =>
          have hnext : (Go.memoryClaims.apply s c).2.records.get a = some r :=
            ClaimStore.stable_step (S := Go.memoryClaims) rfl hrow hs hc
          obtain ⟨hend, hreplies⟩ := stable_run_context hs rest hnext hbelow'
          simp only [Go.MemoryStore.runCalls, Go.MemoryStore.apply_live]
          refine ⟨hend, ?_⟩
          intro op o out hmem ha
          rcases List.mem_cons.mp hmem with heq | hrest
          · cases heq
            subst ha
            exact ClaimStore.begin_completed (S := Go.memoryClaims) hrow hs hc
          · exact hreplies op o out hrest ha

/-- **A completed record does not change while it is live.**  Whatever calls follow, with any fences,
fingerprints, results, leases, TTLs and any clock readings below its expiry, in any order, the record
is exactly the one it was, and every `begin` on it is answered with it: as a replay under its own
fingerprint, as a mismatch under another.  In Go the calls may also fail with their context. -/
theorem completed_record_stable :
    (∀ (s : MemoryStore) (scope key : JsString) (r : IdempotencyRecord),
        s.records.get (mapKey scope key) = some r → r.state = .Completed →
        ∀ calls : List (StoreCall Operation BeginOptions Completion),
          (∀ c ∈ calls, c.ClocksBelow BeginOptions.now r.expiresAt) →
          (memoryClaims.runCalls s calls).2.records.get (mapKey scope key) = some r
            ∧ ∀ op o out, ⟨.Begin op o, out⟩ ∈ (memoryClaims.runCalls s calls).1 →
              op.scope = scope → op.key = key →
              out = if r.fingerprint = op.fingerprint then .Completed r else .Mismatch r)
      ∧ ∀ (E : Type) (s : Go.MemoryStore) (scope key : Go.GoString) (r : Go.Record),
        s.records.get (Go.mapKey scope key) = some r → r.state = .Completed →
        ∀ calls : List (Option E × StoreCall Go.Operation Go.BeginOptions Go.StoredResult),
          (∀ c ∈ calls, c.2.ClocksBelow Go.BeginOptions.now r.expiresAt) →
          (s.runCalls calls).2.records.get (Go.mapKey scope key) = some r
            ∧ ∀ op o out, ⟨.Begin op o, .ok out⟩ ∈ (s.runCalls calls).1 →
              op.scope = scope → op.key = key →
              out = if r.fingerprint = op.fingerprint then .Completed r else .Mismatch r := by
  constructor
  · intro s scope key r hrow hs calls hbelow
    obtain ⟨hend, hreplies⟩ := ClaimStore.stable_run (S := memoryClaims) hs calls hrow hbelow
    refine ⟨hend, ?_⟩
    rintro op o out hmem rfl rfl
    exact hreplies op o out hmem rfl
  · intro E s scope key r hrow hs calls hbelow
    obtain ⟨hend, hreplies⟩ := Go.stable_run_context hs calls hrow hbelow
    refine ⟨hend, ?_⟩
    rintro op o out hmem rfl rfl
    exact hreplies op o out hmem rfl

/-- The record of `orderOp`, completed under fence 2. -/
def completedOrder : IdempotencyRecord where
  scope := orderOp.scope
  key := orderOp.key
  fingerprint := orderOp.fingerprint
  state := .Completed
  fence := 2
  leaseUntil := 20
  createdAt := 10
  expiresAt := 110
  result := some { kind := .Http, status := some 201 }

/-- Calls that try to change it: another result and an abandon under its own fence, a purge just
before it expires, and a claim at a clock reading that went backwards. -/
def meddling : List (StoreCall Operation BeginOptions Completion) :=
  [.Complete orderOp 2 (.Stored { kind := .Message }) 50, .Abandon orderOp 2, .Purge 109,
    .Begin { orderOp with fingerprint := js "q" } ⟨10, 100, 5⟩]

/-- A completed record of the Go store. -/
def Go.completedOrder : Go.Record where
  scope := [111]
  key := [107]
  fingerprint := [112]
  state := .Completed
  fence := 1
  leaseUntil := 10
  createdAt := 0
  expiresAt := 100
  result := some { kind := .Http, status := 201 }

theorem completed_record_stable_meddling :
    (memoryClaims.runCalls ⟨Table.empty.put (mapKey orderOp.scope orderOp.key, completedOrder)⟩
        meddling).2.records.get (mapKey orderOp.scope orderOp.key) = some completedOrder
      ∧ ((⟨Table.empty.put (Go.mapKey [111] [107], Go.completedOrder)⟩ : Go.MemoryStore).runCalls
        [(some (), .Purge 50), (none, .Begin ⟨[111], [107], [113]⟩ ⟨10, 100, 99⟩)]).2.records.get
          (Go.mapKey [111] [107]) = some Go.completedOrder := by
  refine ⟨(completed_record_stable.1 _ orderOp.scope orderOp.key completedOrder (by decide +kernel)
      rfl meddling ?_).1,
    (completed_record_stable.2 Unit _ [111] [107] Go.completedOrder (by decide +kernel) rfl _ ?_).1⟩
  · simp [meddling, StoreCall.ClocksBelow, completedOrder]
  · simp [StoreCall.ClocksBelow, Go.completedOrder]

end Anyonce
