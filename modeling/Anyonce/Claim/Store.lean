import Anyonce.Claim.Model
import Anyonce.Core.Interleaving

/-!
# Stores of claims

`StoreCall` lists the calls of the `Store` interface and `StoreReply` what each returns.  A
`ClaimStore` is an implementation whose calls act on single cells as `ClaimModel` says: it comes
with the address an operation goes to, with what is found at an address, and with one law per
method.  Everything about runs is proved for any `ClaimStore`; the in-memory stores of both
languages are instances.

`ClaimStore.cell_step` turns the laws into the one case analysis the run proofs need: seen from a
fixed address, a call leaves the cell alone, grants it, finishes it, or empties it.
-/

namespace Anyonce

open Interaction

/-- The calls of the store interface. -/
inductive StoreCall (Op Opts P : Type)
  | Begin (op : Op) (opts : Opts)
  | Complete (op : Op) (fence : ℤ) (result : P) (now : ℤ)
  | Abandon (op : Op) (fence : ℤ)
  | Get (op : Op) (now : ℤ)
  | Purge (now : ℤ)
  | PhysicallyRemove (op : Op)

/-- What each call returns. -/
abbrev StoreReply {Op Opts P : Type} (Row : Type) : StoreCall Op Opts P → Type
  | .Begin _ _ => BeginOutcome Row
  | .Complete _ _ _ _ => CompleteStatus
  | .Abandon _ _ => CompleteStatus
  | .Get _ _ => Option Row
  | .Purge _ => ℕ
  | .PhysicallyRemove _ => Unit

/-- The claim a call granted, if it granted one: its operation, options and fence. -/
def grantOf {Op Opts P Row : Type} :
    (c : StoreCall Op Opts P) → StoreReply Row c → Option (Op × Opts × ℤ)
  | .Begin op o, .Acquired f => some (op, o, f)
  | _, _ => none

@[simp] lemma grantOf_begin_eq_some {Op Opts P Row : Type} {op op' : Op} {o o' : Opts} {f : ℤ}
    {out : BeginOutcome Row} :
    grantOf (P := P) (.Begin op o) out = some (op', o', f) ↔ op = op' ∧ o = o' ∧ out = .Acquired f := by
  cases out <;> simp [grantOf]

/-- Only a `begin` grants a claim. -/
lemma begin_of_grantOf {Op Opts P Row : Type} {c : StoreCall Op Opts P} {r : StoreReply Row c}
    {op : Op} {o : Opts} {f : ℤ} (h : grantOf c r = some (op, o, f)) : c = .Begin op o := by
  cases c with
  | Begin op' o' =>
      obtain ⟨rfl, rfl, -⟩ := grantOf_begin_eq_some.mp h
      rfl
  | Complete => cases h
  | Abandon => cases h
  | Get => cases h
  | Purge => cases h
  | PhysicallyRemove => cases h

/-- The settlement calls: `complete` and `abandon`. -/
def StoreCall.isSettlement {Op Opts P : Type} : StoreCall Op Opts P → Bool
  | .Complete _ _ _ _ => true
  | .Abandon _ _ => true
  | _ => false

section

variable {F Op Opts Row P : Type} [DecidableEq F]

/-- An implementation of the store interface whose calls act on single cells as `M` says. -/
structure ClaimStore (M : ClaimModel F Op Opts Row P) (σ A : Type) [DecidableEq A] where
  addr : Op → A
  lookup : σ → A → Option Row
  begin : σ → Op → Opts → BeginOutcome Row × σ
  complete : σ → Op → ℤ → P → ℤ → CompleteStatus × σ
  abandon : σ → Op → ℤ → CompleteStatus × σ
  get : σ → Op → ℤ → Option Row
  purge : σ → ℤ → ℕ × σ
  physicallyRemove : σ → Op → σ
  begin_reply : ∀ s op o, (begin s op o).1 = (M.begin op o (lookup s (addr op))).1
  begin_lookup : ∀ s op o a, lookup (begin s op o).2 a
    = if a = addr op then (M.begin op o (lookup s a)).2 else lookup s a
  complete_reply : ∀ s op f p now,
    (complete s op f p now).1 = (M.complete f p now (lookup s (addr op))).1
  complete_lookup : ∀ s op f p now a, lookup (complete s op f p now).2 a
    = if a = addr op then (M.complete f p now (lookup s a)).2 else lookup s a
  abandon_reply : ∀ s op f, (abandon s op f).1 = (M.abandon f (lookup s (addr op))).1
  abandon_lookup : ∀ s op f a, lookup (abandon s op f).2 a
    = if a = addr op then (M.abandon f (lookup s a)).2 else lookup s a
  get_reply : ∀ s op now, get s op now = M.live now (lookup s (addr op))
  purge_lookup : ∀ s now a, lookup (purge s now).2 a = M.live now (lookup s a)
  remove_lookup : ∀ s op a, lookup (physicallyRemove s op) a
    = if a = addr op then none else lookup s a

namespace ClaimStore

variable {M : ClaimModel F Op Opts Row P} {σ A : Type} [DecidableEq A] (S : ClaimStore M σ A)

/-- One call, whichever it is. -/
def apply (s : σ) : (c : StoreCall Op Opts P) → StoreReply Row c × σ
  | .Begin op o => S.begin s op o
  | .Complete op f p now => S.complete s op f p now
  | .Abandon op f => S.abandon s op f
  | .Get op now => (S.get s op now, s)
  | .Purge now => S.purge s now
  | .PhysicallyRemove op => ((), S.physicallyRemove s op)

/-- The store as an atomic object shared by callers `ι`. -/
def obj {ι : Type} (s : σ) (p : ι × StoreCall Op Opts P)
    (r : Tagged ι (StoreReply Row) p) (s' : σ) : Prop :=
  S.apply s p.2 = (r, s')

/-- Run calls one after another and collect their replies. -/
def runCalls (s : σ) :
    List (StoreCall Op Opts P) → List ((c : StoreCall Op Opts P) × StoreReply Row c) × σ
  | [] => ([], s)
  | c :: rest =>
      let (r, s') := S.apply s c
      let (out, s'') := runCalls s' rest
      (⟨c, r⟩ :: out, s'')

/-- A call seen from the address `a`: what it may do to the cell there. -/
inductive CellStep (s : σ) (a : A) :
    (c : StoreCall Op Opts P) → StoreReply Row c → Option Row → Prop
  | keep (c : StoreCall Op Opts P) (r : StoreReply Row c)
      (hg : ∀ op o f, grantOf c r = some (op, o, f) → S.addr op ≠ a) :
      CellStep s a c r (S.lookup s a)
  | grant (op : Op) (o : Opts) (ha : S.addr op = a)
      (hc : M.claimable op o (S.lookup s a) = true) :
      CellStep s a (.Begin op o) (.Acquired (M.nextFence (S.lookup s a)))
        (some (M.fresh op o (M.nextFence (S.lookup s a))))
  | finish (op : Op) (f : ℤ) (p : P) (now : ℤ) (row : Row) (ha : S.addr op = a)
      (hrow : S.lookup s a = some row) (hlive : now < M.expiresAt row) (hf : M.fence row = f)
      (hs : M.state row = .InFlight) :
      CellStep s a (.Complete op f p now) .Ok (some (M.finish p row))
  | abandon (op : Op) (f : ℤ) (row : Row) (ha : S.addr op = a)
      (hrow : S.lookup s a = some row) (hs : M.state row = .InFlight) (hf : M.fence row = f) :
      CellStep s a (.Abandon op f) .Ok none
  | purge (now : ℤ) (n : ℕ) (row : Row) (hrow : S.lookup s a = some row)
      (hdead : M.expiresAt row ≤ now) : CellStep s a (.Purge now) n none
  | remove (op : Op) (ha : S.addr op = a) : CellStep s a (.PhysicallyRemove op) () none

variable {S}

/-- **Every call acts on every cell in one of these ways.** -/
theorem cell_step {s s' : σ} {c : StoreCall Op Opts P} {r : StoreReply Row c}
    (h : S.apply s c = (r, s')) (a : A) : S.CellStep s a c r (S.lookup s' a) := by
  obtain rfl : (S.apply s c).1 = r := congrArg Prod.fst h
  obtain rfl : (S.apply s c).2 = s' := congrArg Prod.snd h
  cases c with
  | Begin op o =>
      show S.CellStep s a (.Begin op o) (S.begin s op o).1 (S.lookup (S.begin s op o).2 a)
      rw [S.begin_lookup, S.begin_reply]
      split_ifs with ha
      · subst ha
        rcases M.begin_cases op o (S.lookup s (S.addr op)) with ⟨hc, hb⟩ | ⟨-, row, hrow, -, hb⟩
        · rw [hb]
          exact CellStep.grant op o rfl hc
        · rw [hb, ← hrow]
          refine CellStep.keep _ _ fun op' o' f hg => ?_
          rw [grantOf_begin_eq_some] at hg
          exact absurd hg.2.2 M.classify_ne_acquired
      · refine CellStep.keep _ _ fun op' o' f hg => ?_
        rw [grantOf_begin_eq_some] at hg
        rw [← hg.1]
        exact Ne.symm ha
  | Complete op f p now =>
      show S.CellStep s a (.Complete op f p now) (S.complete s op f p now).1
        (S.lookup (S.complete s op f p now).2 a)
      rw [S.complete_lookup, S.complete_reply]
      split_ifs with ha
      · subst ha
        rcases M.complete_cases f p now (S.lookup s (S.addr op)) with
          ⟨row, hrow, hlive, hf, hs, hb⟩ | hb
        · rw [hb]
          exact CellStep.finish op f p now row rfl hrow hlive hf hs
        · rw [hb]
          exact CellStep.keep _ _ fun _ _ _ hg => by simp [grantOf] at hg
      · exact CellStep.keep _ _ fun _ _ _ hg => by simp [grantOf] at hg
  | Abandon op f =>
      show S.CellStep s a (.Abandon op f) (S.abandon s op f).1 (S.lookup (S.abandon s op f).2 a)
      rw [S.abandon_lookup, S.abandon_reply]
      split_ifs with ha
      · subst ha
        rcases M.abandon_cases f (S.lookup s (S.addr op)) with ⟨row, hrow, hs, hf, hb⟩ | hb
        · rw [hb]
          exact CellStep.abandon op f row rfl hrow hs hf
        · rw [hb]
          exact CellStep.keep _ _ fun _ _ _ hg => by simp [grantOf] at hg
      · exact CellStep.keep _ _ fun _ _ _ hg => by simp [grantOf] at hg
  | Get op now => exact CellStep.keep _ _ fun _ _ _ hg => by simp [grantOf] at hg
  | Purge now =>
      show S.CellStep s a (.Purge now) (S.purge s now).1 (S.lookup (S.purge s now).2 a)
      rw [S.purge_lookup]
      cases hl : M.live now (S.lookup s a) with
      | none =>
          rw [M.live_eq_none] at hl
          cases hrow : S.lookup s a with
          | none =>
              rw [← hrow]
              exact CellStep.keep _ _ fun _ _ _ hg => by simp [grantOf] at hg
          | some row => exact CellStep.purge now _ row hrow (hl row hrow)
      | some row =>
          rw [← (M.live_eq_some.mp hl).1]
          exact CellStep.keep _ _ fun _ _ _ hg => by simp [grantOf] at hg
  | PhysicallyRemove op =>
      show S.CellStep s a (.PhysicallyRemove op) () (S.lookup (S.physicallyRemove s op) a)
      rw [S.remove_lookup]
      split_ifs with ha
      · exact CellStep.remove op ha.symm
      · exact CellStep.keep _ _ fun _ _ _ hg => by simp [grantOf] at hg

/-- **A granted claim.**  The call was a `begin`, the cell was claimable, and it now holds the fresh
row under the next fence. -/
lemma grant_step {s s' : σ} {c : StoreCall Op Opts P} {r : StoreReply Row c}
    (h : S.apply s c = (r, s')) {op : Op} {o : Opts} {f : ℤ} (hg : grantOf c r = some (op, o, f)) :
    c = .Begin op o ∧ M.claimable op o (S.lookup s (S.addr op)) = true
      ∧ f = M.nextFence (S.lookup s (S.addr op))
      ∧ S.lookup s' (S.addr op) = some (M.fresh op o f) := by
  have hcell := cell_step h (S.addr op)
  generalize hpost : S.lookup s' (S.addr op) = post at hcell
  cases hcell with
  | keep c r hk => exact absurd rfl (hk op o f hg)
  | grant op' o' ha hc =>
      obtain ⟨rfl, rfl, hf⟩ := grantOf_begin_eq_some.mp hg
      cases hf
      exact ⟨rfl, hc, rfl, rfl⟩
  | finish => cases hg
  | abandon => cases hg
  | purge => cases hg
  | remove => cases hg

end ClaimStore

end

end Anyonce
