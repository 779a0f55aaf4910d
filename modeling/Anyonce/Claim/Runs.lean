import Anyonce.Claim.Store
import Anyonce.Core.Fencing

/-!
# Runs of a store of claims

Vocabulary for whole runs of a `ClaimStore` shared by callers: which fence a step granted at an
address, who was granted an address last, and whether the row of a claim has been deleted since its
grant.  A caller is a number given to one claim holder, so "the caller of the grant" is the holder.

The fences of every `ClaimStore` obey the law of `Core/Fencing.lean` (`fence_step`).  Its consequence
for ownership is `lastGrant_of_fence`: as long as its row was never deleted, a holder that finds its
own fence number in the row was the last to be granted the address.
-/

namespace Anyonce

open Interaction

namespace ClaimStore

variable {F Op Opts Row P : Type} [DecidableEq F] {M : ClaimModel F Op Opts Row P}
variable {σ A : Type} [DecidableEq A] (S : ClaimStore M σ A) {ι : Type}

/-- One recorded call of a caller. -/
abbrev StoreEntry (_ : ClaimStore M σ A) (ι : Type) : Type :=
  Entry (ι × StoreCall Op Opts P) (Tagged ι (StoreReply Row)) σ

/-- The fence of the row at an address. -/
def fenceAt (a : A) (s : σ) : Option ℤ := (S.lookup s a).map M.fence

/-- The fence a step granted at an address. -/
def grantedAt (a : A) (e : S.StoreEntry ι) : Option ℤ :=
  (grantOf e.cmd.2 e.reply).bind fun g => if S.addr g.1 = a then some g.2.2 else none

/-- The last step that granted an address. -/
def lastGrant (a : A) (h : List (S.StoreEntry ι)) : Option (S.StoreEntry ι) :=
  (h.filter fun e => (S.grantedAt a e).isSome).getLast?

/-- The caller settled: it called `complete` or `abandon`. -/
def Settled (h : List (S.StoreEntry ι)) (i : ι) : Prop :=
  ∃ e ∈ h, e.cmd.1 = i ∧ e.cmd.2.isSettlement = true

/-- The row at `a` was deleted after it was granted to the caller `i`. -/
def RowLost (h : List (S.StoreEntry ι)) (i : ι) (a : A) : Prop :=
  ∃ h₁ e h₂, h = h₁ ++ e :: h₂ ∧ e.cmd.1 = i ∧ S.grantedAt a e ≠ none
    ∧ ∃ e' ∈ h₂, S.lookup e'.post a = none

/-- The record of one call made in state `s`. -/
def entry (s : σ) (p : ι × StoreCall Op Opts P) : S.StoreEntry ι :=
  ⟨s, p, (S.apply s p.2).1, (S.apply s p.2).2⟩

/-- The records of calls made one after another from state `s`. -/
def record (s : σ) : List (ι × StoreCall Op Opts P) → List (S.StoreEntry ι)
  | [] => []
  | p :: rest => S.entry s p :: record (S.entry s p).post rest

/-- The state those calls lead to. -/
def reached (s : σ) : List (ι × StoreCall Op Opts P) → σ
  | [] => s
  | p :: rest => reached (S.entry s p).post rest

/-- Each of the calls is allowed when its turn comes. -/
def Follows (allowed : List (S.StoreEntry ι) → σ → ι × StoreCall Op Opts P → Prop) :
    List (S.StoreEntry ι) → σ → List (ι × StoreCall Op Opts P) → Prop
  | _, _, [] => True
  | h, s, p :: rest => allowed h s p ∧ Follows allowed (h ++ [S.entry s p]) (S.entry s p).post rest

instance [DecidableEq ι] (h : List (S.StoreEntry ι)) (i : ι) : Decidable (S.Settled h i) :=
  inferInstanceAs (Decidable (∃ e ∈ h, _))

/-- Whether calls are allowed in their turn can be checked when each single promise can. -/
def decidableFollows {allowed : List (S.StoreEntry ι) → σ → ι × StoreCall Op Opts P → Prop}
    [∀ h s p, Decidable (allowed h s p)] :
    ∀ (h : List (S.StoreEntry ι)) (s : σ) (calls : List (ι × StoreCall Op Opts P)),
      Decidable (S.Follows allowed h s calls)
  | _, _, [] => inferInstanceAs (Decidable True)
  | h, s, p :: rest =>
      @instDecidableAnd _ _ (inferInstanceAs (Decidable (allowed h s p)))
        (decidableFollows (h ++ [S.entry s p]) (S.entry s p).post rest)

instance {allowed : List (S.StoreEntry ι) → σ → ι × StoreCall Op Opts P → Prop}
    [∀ h s p, Decidable (allowed h s p)] (h : List (S.StoreEntry ι)) (s : σ)
    (calls : List (ι × StoreCall Op Opts P)) : Decidable (S.Follows allowed h s calls) :=
  S.decidableFollows h s calls

variable {S}

lemma grantedAt_eq_some {a : A} {e : S.StoreEntry ι} {f : ℤ} :
    S.grantedAt a e = some f
      ↔ ∃ op o, grantOf e.cmd.2 e.reply = some (op, o, f) ∧ S.addr op = a := by
  simp [grantedAt, Option.bind_eq_some_iff]

lemma grantedAt_of_grantOf {e : S.StoreEntry ι} {op : Op} {o : Opts} {f : ℤ}
    (h : grantOf e.cmd.2 e.reply = some (op, o, f)) : S.grantedAt (S.addr op) e = some f :=
  grantedAt_eq_some.mpr ⟨op, o, h, rfl⟩

/-- In a run of one step no row has been deleted since a grant. -/
lemma not_rowLost_single {e : S.StoreEntry ι} {i : ι} {a : A} : ¬ S.RowLost [e] i a := by
  rintro ⟨h₁, e₁, h₂, hsplit, -, -, e', he', -⟩
  have hlen := congrArg List.length hsplit
  have hpos := List.length_pos_of_mem he'
  simp only [List.length_append, List.length_cons, List.length_nil] at hlen
  omega

lemma lastGrant_snoc_of_none {a : A} {h : List (S.StoreEntry ι)} {e : S.StoreEntry ι}
    (he : S.grantedAt a e = none) : S.lastGrant a (h ++ [e]) = S.lastGrant a h := by
  simp [lastGrant, he]

lemma lastGrant_append {a : A} {h₁ h₂ : List (S.StoreEntry ι)} {e : S.StoreEntry ι} {f : ℤ}
    (he : S.grantedAt a e = some f) (h₂none : h₂.filterMap (S.grantedAt a) = []) :
    S.lastGrant a (h₁ ++ e :: h₂) = some e := by
  have hfilter : (h₂.filter fun e => (S.grantedAt a e).isSome) = [] := by
    rw [List.filter_eq_nil_iff]
    intro e' he'
    simp [List.filterMap_eq_nil_iff.mp h₂none e' he']
  simp [lastGrant, he, hfilter]

/-- A step that grants an address is recorded as its last grant. -/
lemma lastGrant_snoc {a : A} {h : List (S.StoreEntry ι)} {e : S.StoreEntry ι} {f : ℤ}
    (he : S.grantedAt a e = some f) : S.lastGrant a (h ++ [e]) = some e :=
  lastGrant_append he rfl

/-- **The fences of a store obey the law of fencing tokens.** -/
lemma fence_step (a : A) (e : S.StoreEntry ι) (h : S.obj e.pre e.cmd e.reply e.post) :
    FenceStep (S.fenceAt a) (S.grantedAt a) e := by
  obtain ⟨s, ⟨i, c⟩, r, s'⟩ := e
  have hcell : S.CellStep s a c r (S.lookup s' a) := cell_step h a
  generalize hpost : S.lookup s' a = post at hcell
  have hpost' : S.fenceAt a s' = post.map M.fence := by rw [fenceAt, hpost]
  cases hcell with
  | keep c r hg =>
      cases hgr : S.grantedAt a ⟨s, (i, c), r, s'⟩ with
      | none => exact .of_not_granted hgr (Or.inr hpost')
      | some f =>
          obtain ⟨op, o, hgrant, ha⟩ := grantedAt_eq_some.mp hgr
          exact absurd ha (hg op o f hgrant)
  | grant op o ha hc =>
      refine .of_granted (grantedAt_eq_some.mpr ⟨op, o, rfl, ha⟩) ?_ (by rw [hpost']; simp)
      cases hl : S.lookup s a with
      | none => simp [fenceAt, hl, nextToken, ClaimModel.nextFence]
      | some row => simp [fenceAt, hl, nextToken, ClaimModel.nextFence]
  | finish op f p now row ha hrow hlive hf hs =>
      refine .of_not_granted rfl (Or.inr ?_)
      rw [hpost']
      simp [fenceAt, hrow]
  | abandon op f row ha hrow hs hf => exact .of_not_granted rfl (Or.inl hpost')
  | purge now n row hrow hdead => exact .of_not_granted rfl (Or.inl hpost')
  | remove op ha => exact .of_not_granted rfl (Or.inl hpost')

section

variable {allowed : List (S.StoreEntry ι) → σ → ι × StoreCall Op Opts P → Prop} {s₀ : σ}

/-- **A holder whose row was never deleted and that finds its own fence was granted last.** -/
lemma lastGrant_of_fence {h : List (S.StoreEntry ι)} {s : σ} (hh : History allowed S.obj s₀ h s)
    {e : S.StoreEntry ι} (he : e ∈ h) {a : A} {f : ℤ} (hg : S.grantedAt a e = some f)
    (hkept : ¬ S.RowLost h e.cmd.1 a) (hf : S.fenceAt a s = some f) :
    S.lastGrant a h = some e := by
  obtain ⟨h₁, h₂, rfl⟩ := List.append_of_mem he
  refine lastGrant_append hg (fence_unique (fence_step a) hh hg ?_ hf)
  intro e' he' hnone
  refine hkept ⟨h₁, e, h₂, rfl, rfl, by simp [hg], e', he', ?_⟩
  simpa [fenceAt] using hnone

/-- Calls made one after another from a state that is reached are a history. -/
lemma history_record {h : List (S.StoreEntry ι)} {s : σ} (hh : History allowed S.obj s₀ h s)
    (calls : List (ι × StoreCall Op Opts P)) (hf : S.Follows allowed h s calls) :
    History allowed S.obj s₀ (h ++ S.record s calls) (S.reached s calls) := by
  induction calls generalizing h s with
  | nil => simpa [record, reached] using hh
  | cons p rest ih =>
      have hnext : History allowed S.obj s₀ (h ++ [S.entry s p]) (S.entry s p).post :=
        History.step p _ _ hh hf.1 rfl
      have hrest := ih hnext hf.2
      rwa [List.append_assoc, List.singleton_append] at hrest

end

end ClaimStore

end Anyonce
