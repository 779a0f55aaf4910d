import Anyonce.Claim.Runs

/-!
# Where a stored result comes from

Callers share a store; caller `i` only ever acts on the operation `opOf i`, and completes only with a
fence it was granted (`ActsOn`).  `CompletesOwn` excludes the one harmful encounter: a holder whose
row was deleted finds, with a `complete`, a live row that carries its fence number again.

Then every row is the one its last grant wrote, either untouched or finished with a payload that
same caller passed (`Sourced`), and a `complete` that is answered `ok` has met its caller's own row
(`complete_own`).
-/

namespace Anyonce

open Interaction

namespace ClaimStore

variable {F Op Opts Row P : Type} [DecidableEq F] {M : ClaimModel F Op Opts Row P}
variable {σ A : Type} [DecidableEq A] (S : ClaimStore M σ A) {ι : Type} (opOf : ι → Op)

/-- A caller acts on its own operation, and completes with a fence it was granted. -/
def ActsOn (h : List (S.StoreEntry ι)) (i : ι) (c : StoreCall Op Opts P) : Prop :=
  match c with
  | .Begin op _ => op = opOf i
  | .Complete op f _ _ =>
      op = opOf i ∧ ∃ e ∈ h, e.cmd.1 = i ∧ S.grantedAt (S.addr op) e = some f
  | _ => True

/-- A `complete` of a holder whose row was deleted finds no live row under its fence number. -/
def CompletesOwn (h : List (S.StoreEntry ι)) (s : σ) (i : ι) (c : StoreCall Op Opts P) : Prop :=
  match c with
  | .Complete op f _ now => S.RowLost h i (S.addr op) →
      ∀ row, S.lookup s (S.addr op) = some row → now < M.expiresAt row → M.fence row ≠ f
  | _ => True

/-- The runs of such callers. -/
abbrev OwnRun (s₀ : σ) (h : List (S.StoreEntry ι)) (s : σ) : Prop :=
  History (fun h s p => S.ActsOn opOf h p.1 p.2 ∧ S.CompletesOwn h s p.1 p.2) S.obj s₀ h s

/-- The caller passed this payload to `complete`. -/
def Passed (h : List (S.StoreEntry ι)) (i : ι) (op : Op) (p : P) : Prop :=
  ∃ e ∈ h, ∃ f now, e.cmd = (i, .Complete op f p now)

/-- Every row was written by the last grant of its address, and finished, if it is finished, with a
payload the holder of that grant passed. -/
def Sourced (h : List (S.StoreEntry ι)) (s : σ) : Prop :=
  ∀ a row, S.lookup s a = some row → ∃ e o f, S.lastGrant a h = some e
    ∧ grantOf e.cmd.2 e.reply = some (opOf e.cmd.1, o, f) ∧ S.addr (opOf e.cmd.1) = a
    ∧ (row = M.fresh (opOf e.cmd.1) o f
      ∨ ∃ p, S.Passed h e.cmd.1 (opOf e.cmd.1) p ∧ row = M.finish p (M.fresh (opOf e.cmd.1) o f))

variable {S opOf}

lemma Passed.mono {h h' : List (S.StoreEntry ι)} {i : ι} {op : Op} {p : P} (hp : S.Passed h i op p)
    (hsub : h ⊆ h') : S.Passed h' i op p := by
  obtain ⟨e, he, hcmd⟩ := hp
  exact ⟨e, hsub he, hcmd⟩

/-- Such a run goes on with any call its callers may make next. -/
lemma OwnRun.snoc {s₀ s : σ} {h : List (S.StoreEntry ι)} (hh : S.OwnRun opOf s₀ h s) (i : ι)
    (c : StoreCall Op Opts P) (hd : S.ActsOn opOf h i c) (hown : S.CompletesOwn h s i c) :
    S.OwnRun opOf s₀ (h ++ [S.entry s (i, c)]) (S.apply s c).2 :=
  History.step (i, c) _ _ hh ⟨hd, hown⟩ rfl

/-- A `complete` that finds its fence in a live row finds the row of its own grant. -/
lemma completes_own {s₀ s : σ} {h : List (S.StoreEntry ι)} (hh : S.OwnRun opOf s₀ h s) {i : ι}
    {op : Op} {f : ℤ} {p : P} {now : ℤ} (hd : S.ActsOn opOf h i (.Complete op f p now))
    (hown : S.CompletesOwn h s i (.Complete op f p now)) {row : Row}
    (hrow : S.lookup s (S.addr op) = some row) (hlive : now < M.expiresAt row)
    (hf : M.fence row = f) : ∃ e, S.lastGrant (S.addr op) h = some e ∧ e.cmd.1 = i := by
  obtain ⟨-, e, he, rfl, hgrant⟩ := hd
  have hkept : ¬ S.RowLost h e.cmd.1 (S.addr op) := by
    intro hlost
    exact hown hlost row hrow hlive hf
  exact ⟨e, lastGrant_of_fence hh he hgrant hkept (by rw [fenceAt, hrow, Option.map, hf]), rfl⟩

/-- **One step keeps every row sourced.** -/
lemma sourced_step {s₀ s : σ} {h : List (S.StoreEntry ι)} (hh : S.OwnRun opOf s₀ h s)
    (hsrc : S.Sourced opOf h s) {i : ι} {c : StoreCall Op Opts P} {r : StoreReply Row c} {s' : σ}
    (hd : S.ActsOn opOf h i c) (hown : S.CompletesOwn h s i c) (ho : S.apply s c = (r, s')) :
    S.Sourced opOf (h ++ [⟨s, (i, c), r, s'⟩]) s' := by
  intro a row hpost
  have hsub : h ⊆ h ++ [⟨s, (i, c), r, s'⟩] := List.subset_append_left _ _
  have hcell : S.CellStep s a c r (S.lookup s' a) := cell_step ho a
  rw [hpost] at hcell
  generalize hafter : some row = post at hcell
  cases hcell with
  | keep c r hk =>
      have hnone : S.grantedAt a (⟨s, (i, c), r, s'⟩ : S.StoreEntry ι) = none := by
        rw [Option.eq_none_iff_forall_not_mem]
        intro g hmem
        obtain ⟨op', o', hgrant, ha⟩ := grantedAt_eq_some.mp hmem
        exact hk op' o' g hgrant ha
      obtain ⟨e, o, f, hlast, hgrant, haddr, hform⟩ := hsrc a row hafter.symm
      refine ⟨e, o, f, by rw [lastGrant_snoc_of_none hnone, hlast], hgrant, haddr, ?_⟩
      rcases hform with hfresh | ⟨p, hpassed, hfin⟩
      · exact Or.inl hfresh
      · exact Or.inr ⟨p, hpassed.mono hsub, hfin⟩
  | grant op o ha hc =>
      obtain rfl : op = opOf i := hd
      refine ⟨_, o, M.nextFence (S.lookup s a),
        lastGrant_snoc (grantedAt_eq_some.mpr ⟨opOf i, o, rfl, ha⟩), rfl, ha, ?_⟩
      exact Or.inl (Option.some.inj hafter)
  | finish op f p now row₀ ha hrow hlive hf hs =>
      subst ha
      -- the row is in flight, so it is the untouched row of its last grant: this caller's
      obtain ⟨e, he, hi⟩ := completes_own hh hd hown hrow hlive hf
      obtain ⟨e', o, f', hlast, hgrant, haddr, hform⟩ := hsrc _ _ hrow
      obtain rfl : e = e' := Option.some.inj (he.symm.trans hlast)
      subst hi
      obtain rfl : op = opOf e.cmd.1 := hd.1
      refine ⟨e, o, f', by rw [lastGrant_snoc_of_none rfl, hlast], hgrant, haddr,
        Or.inr ⟨p, ?_, ?_⟩⟩
      · exact ⟨_, List.mem_append_right _ (List.mem_singleton_self _), f, now, rfl⟩
      · rcases hform with rfl | ⟨p', -, rfl⟩
        · exact Option.some.inj hafter
        · rw [M.state_finish] at hs
          cases hs
  | abandon op f row' ha hrow hs hf => cases hafter
  | purge now n row' hrow hdead => cases hafter
  | remove op ha => cases hafter

/-- **Every row of every such run is sourced.** -/
theorem sourced_run {s₀ s : σ} (hempty : ∀ a, S.lookup s₀ a = none) {h : List (S.StoreEntry ι)}
    (hh : S.OwnRun opOf s₀ h s) : S.Sourced opOf h s := by
  refine History.invariant (P := S.Sourced opOf) ?_ ?_ hh
  · intro a row hrow
    rw [hempty] at hrow
    cases hrow
  · rintro h s ⟨i, c⟩ r s' hh ih ⟨hd, hown⟩ ho
    exact sourced_step hh ih hd hown ho

end ClaimStore

end Anyonce
