import Anyonce.Types

/-!
# One claim, abstractly

A store is a family of independent cells, one per `(scope, key)`, each empty or holding one row.
This file says what the operations do to a single cell, for any kind of row: the in-memory record,
the SQL row and the decoded hash all have a fingerprint, a state, a fence, a lease and an expiry,
and that is all the contract speaks of.

`ClaimModel` collects those accessors with the two ways a row is written: `fresh`, the row of a new
claim, and `finish`, the row after its result is stored.  `begin` is stated in the shape the
contract gives it: a row is `claimable` (absent, expired, or a lapsed lease of the same
fingerprint), in which case it is taken with the next fence, or it is not, in which case `classify`
says why.  `begin_cases` is the only thing later proofs use about it.
-/

namespace Anyonce

/-- The accessors of a row of claims, and the two ways one is written. -/
structure ClaimModel (F Op Opts Row P : Type) where
  opFingerprint : Op → F
  now : Opts → ℤ
  leaseEnd : Opts → ℤ
  expiry : Opts → ℤ
  fingerprint : Row → F
  state : Row → RecordState
  fence : Row → ℤ
  leaseUntil : Row → ℤ
  expiresAt : Row → ℤ
  fresh : Op → Opts → ℤ → Row
  finish : P → Row → Row
  fingerprint_fresh : ∀ op o f, fingerprint (fresh op o f) = opFingerprint op
  state_fresh : ∀ op o f, state (fresh op o f) = .InFlight
  fence_fresh : ∀ op o f, fence (fresh op o f) = f
  leaseUntil_fresh : ∀ op o f, leaseUntil (fresh op o f) = leaseEnd o
  expiresAt_fresh : ∀ op o f, expiresAt (fresh op o f) = expiry o
  fingerprint_finish : ∀ p r, fingerprint (finish p r) = fingerprint r
  state_finish : ∀ p r, state (finish p r) = .Completed
  fence_finish : ∀ p r, fence (finish p r) = fence r
  leaseUntil_finish : ∀ p r, leaseUntil (finish p r) = leaseUntil r
  expiresAt_finish : ∀ p r, expiresAt (finish p r) = expiresAt r

namespace ClaimModel

attribute [simp] fingerprint_fresh state_fresh fence_fresh leaseUntil_fresh expiresAt_fresh
  fingerprint_finish state_finish fence_finish leaseUntil_finish expiresAt_finish

variable {F Op Opts Row P : Type} (M : ClaimModel F Op Opts Row P)

/-- The fence a new claim gets: it continues from the row while there is one. -/
def nextFence : Option Row → ℤ
  | none => 1
  | some r => M.fence r + 1

/-- A cell may be claimed when it is empty, when its row has expired, or when its row is a claim of
the same fingerprint whose lease has lapsed. -/
def claimable [DecidableEq F] (op : Op) (o : Opts) : Option Row → Bool
  | none => true
  | some r => M.expiresAt r ≤ M.now o
      ∨ (M.fingerprint r = M.opFingerprint op ∧ M.state r = .InFlight ∧ M.leaseUntil r ≤ M.now o)

/-- Why a row was not claimed. -/
def classify [DecidableEq F] (op : Op) (r : Row) : BeginOutcome Row :=
  if M.fingerprint r ≠ M.opFingerprint op then .Mismatch r
  else if M.state r = .Completed then .Completed r
  else .InFlight (M.leaseUntil r)

/-- `begin` on one cell. -/
def begin [DecidableEq F] (op : Op) (o : Opts) (c : Option Row) : BeginOutcome Row × Option Row :=
  if M.claimable op o c then (.Acquired (M.nextFence c), some (M.fresh op o (M.nextFence c)))
  else
    match c with
    | none => (.Acquired 1, none)
    | some r => (M.classify op r, some r)

/-- `complete` on one cell. -/
def complete (fence : ℤ) (p : P) (now : ℤ) : Option Row → CompleteStatus × Option Row
  | none => (.NotFound, none)
  | some r =>
      if M.expiresAt r ≤ now then (.NotFound, some r)
      else if M.fence r ≠ fence then (.StaleFence, some r)
      else if M.state r = .Completed then (.Ok, some r)
      else (.Ok, some (M.finish p r))

/-- `abandon` on one cell. -/
def abandon (fence : ℤ) : Option Row → CompleteStatus × Option Row
  | none => (.NotFound, none)
  | some r =>
      if M.state r ≠ .InFlight then (.NotFound, some r)
      else if M.fence r ≠ fence then (.StaleFence, some r)
      else (.Ok, none)

/-- The row as a reader at `now` sees it; also what a purge at `now` leaves. -/
def live (now : ℤ) (c : Option Row) : Option Row := c.filter fun r => now < M.expiresAt r

variable {M}

lemma state_eq_inFlight_of_ne {r : Row} (h : M.state r ≠ .Completed) : M.state r = .InFlight := by
  cases hs : M.state r with
  | InFlight => rfl
  | Completed => exact absurd hs h

section Begin

variable [DecidableEq F]

lemma claimable_some {op : Op} {o : Opts} {r : Row} : M.claimable op o (some r) = true
    ↔ M.expiresAt r ≤ M.now o ∨ (M.fingerprint r = M.opFingerprint op ∧ M.state r = .InFlight
      ∧ M.leaseUntil r ≤ M.now o) := by
  simp [claimable]

/-- A refused row is live, and it is another payload's, completed, or under a running lease. -/
lemma not_claimable {op : Op} {o : Opts} {c : Option Row} (h : M.claimable op o c = false) :
    ∃ r, c = some r ∧ M.now o < M.expiresAt r
      ∧ (M.fingerprint r ≠ M.opFingerprint op ∨ M.state r = .Completed
        ∨ M.now o < M.leaseUntil r) := by
  cases c with
  | none => simp [claimable] at h
  | some r =>
      simp only [claimable, decide_eq_false_iff_not, not_or, not_le, not_and] at h
      refine ⟨r, rfl, h.1, ?_⟩
      by_cases hf : M.fingerprint r = M.opFingerprint op
      · by_cases hs : M.state r = .Completed
        · exact Or.inr (Or.inl hs)
        · exact Or.inr (Or.inr (h.2 hf (state_eq_inFlight_of_ne hs)))
      · exact Or.inl hf

/-- **What `begin` can do.**  It takes the cell with the next fence, or it leaves a live row as it
was and says which row stood in the way. -/
lemma begin_cases (op : Op) (o : Opts) (c : Option Row) :
    (M.claimable op o c = true
        ∧ M.begin op o c = (.Acquired (M.nextFence c), some (M.fresh op o (M.nextFence c))))
      ∨ (M.claimable op o c = false ∧ ∃ r, c = some r ∧ M.now o < M.expiresAt r
        ∧ M.begin op o c = (M.classify op r, some r)) := by
  cases hc : M.claimable op o c with
  | true => exact Or.inl ⟨rfl, by simp [begin, hc]⟩
  | false =>
      obtain ⟨r, rfl, hlive, -⟩ := not_claimable hc
      exact Or.inr ⟨rfl, r, rfl, hlive, by simp [begin, hc]⟩

lemma classify_ne_acquired {op : Op} {r : Row} {f : ℤ} : M.classify op r ≠ .Acquired f := by
  unfold classify
  split_ifs <;> simp

/-- A replay shows the row that is there: completed, and of the same fingerprint. -/
lemma begin_completed {op : Op} {o : Opts} {c : Option Row} {r : Row}
    (h : (M.begin op o c).1 = .Completed r) :
    c = some r ∧ M.state r = .Completed ∧ M.fingerprint r = M.opFingerprint op := by
  rcases M.begin_cases op o c with ⟨-, hb⟩ | ⟨-, r', rfl, -, hb⟩
  · rw [hb] at h
    cases h
  · rw [hb, classify] at h
    split_ifs at h with hne hs
    cases h
    exact ⟨rfl, hs, not_not.mp hne⟩

end Begin

/-- **What `complete` can do.**  It stores the result in a live row in flight under its fence, or
it leaves the cell as it was. -/
lemma complete_cases (fence : ℤ) (p : P) (now : ℤ) (c : Option Row) :
    (∃ r, c = some r ∧ now < M.expiresAt r ∧ M.fence r = fence ∧ M.state r = .InFlight
        ∧ M.complete fence p now c = (.Ok, some (M.finish p r)))
      ∨ (M.complete fence p now c).2 = c := by
  cases c with
  | none => exact Or.inr rfl
  | some r =>
      by_cases he : M.expiresAt r ≤ now
      · exact Or.inr (by simp [complete, he])
      · by_cases hf : M.fence r = fence
        · by_cases hs : M.state r = .Completed
          · exact Or.inr (by simp [complete, he, hf, hs])
          · exact Or.inl ⟨r, rfl, not_le.mp he, hf, state_eq_inFlight_of_ne hs,
              by simp [complete, he, hf, hs]⟩
        · exact Or.inr (by simp [complete, he, hf])

/-- A `complete` answered `ok` found a live row under its fence. -/
lemma complete_ok {fence now : ℤ} {p : P} {c : Option Row}
    (h : (M.complete fence p now c).1 = .Ok) :
    ∃ r, c = some r ∧ now < M.expiresAt r ∧ M.fence r = fence := by
  cases c with
  | none => simp [complete] at h
  | some r =>
      simp only [complete] at h
      split_ifs at h with he hf <;> simp_all

/-- A `complete` under another fence than the row's is refused and changes nothing. -/
lemma complete_other_fence {fence now : ℤ} {p : P} {r : Row} (h : M.fence r ≠ fence) :
    ((M.complete fence p now (some r)).1 = .StaleFence
        ∨ (M.complete fence p now (some r)).1 = .NotFound)
      ∧ (M.complete fence p now (some r)).2 = some r := by
  by_cases he : M.expiresAt r ≤ now
  · simp [complete, he]
  · simp [complete, he, h]

/-- An `abandon` under another fence than the row's is refused and changes nothing. -/
lemma abandon_other_fence {fence : ℤ} {r : Row} (h : M.fence r ≠ fence) :
    ((M.abandon fence (some r)).1 = .StaleFence ∨ (M.abandon fence (some r)).1 = .NotFound)
      ∧ (M.abandon fence (some r)).2 = some r := by
  by_cases hs : M.state r = .InFlight
  · simp [abandon, hs, h]
  · simp [abandon, hs]

/-- **What `abandon` can do.**  It empties a cell that is in flight under its fence, or it leaves
the cell as it was. -/
lemma abandon_cases (fence : ℤ) (c : Option Row) :
    (∃ r, c = some r ∧ M.state r = .InFlight ∧ M.fence r = fence
        ∧ M.abandon fence c = (.Ok, none))
      ∨ (M.abandon fence c).2 = c := by
  cases c with
  | none => exact Or.inr rfl
  | some r =>
      by_cases hs : M.state r = .InFlight
      · by_cases hf : M.fence r = fence
        · exact Or.inl ⟨r, rfl, hs, hf, by simp [abandon, hs, hf]⟩
        · exact Or.inr (by simp [abandon, hs, hf])
      · exact Or.inr (by simp [abandon, hs])

lemma live_eq_some {now : ℤ} {c : Option Row} {r : Row} :
    M.live now c = some r ↔ c = some r ∧ now < M.expiresAt r := by
  simp [live, Option.filter_eq_some_iff]

lemma live_eq_none {now : ℤ} {c : Option Row} :
    M.live now c = none ↔ ∀ r, c = some r → M.expiresAt r ≤ now := by
  simp [live, Option.filter_eq_none_iff]

end ClaimModel

end Anyonce
