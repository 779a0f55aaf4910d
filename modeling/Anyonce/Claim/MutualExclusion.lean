import Anyonce.Claim.Runs

/-!
# Mutual exclusion of claims

Callers share a store.  Each holds at most one claim, settles it at most once, and settles it with
the fence its own `begin` returned, at any later time (`Disciplined`); the clock readings that reach
the store do not go backwards.  The question is when the address of an unsettled claim can be
granted again before the claim's lease or TTL has run out.

The fence is a number inside the row, and the row is deleted by `abandon` and `purge`, so a new row
may reach a fence number that an old holder still carries.  `AbandonsOwn` excludes exactly the
harmful encounter: a holder whose row was deleted meets, with an `abandon`, an in-flight row that
carries its fence number again.  (A late `complete` in the same position leaves the row in place,
so it opens the address to nobody.)

* `Standing` — the invariant for one grant: settled, or past its term, or still the last grant with
  its row in place.
* `standing_run` — it holds of every grant of every run.
* `exclusion` — the theorem about two grants of one address.
-/

namespace Anyonce

open Interaction

namespace ClaimStore

variable {F Op Opts Row P : Type} [DecidableEq F] {M : ClaimModel F Op Opts Row P}
variable {σ A : Type} [DecidableEq A] (S : ClaimStore M σ A) {ι : Type}

/-- The clock reading a call carries; `abandon` carries none. -/
def clock (_ : ClaimStore M σ A) : StoreCall Op Opts P → Option ℤ
  | .Begin _ o => some (M.now o)
  | .Complete _ _ _ now => some now
  | .Abandon _ _ => none
  | .Get _ now => some now
  | .Purge now => some now
  | .PhysicallyRemove _ => none

/-- Clock readings do not go backwards. -/
def ClockMonotone (h : List (S.StoreEntry ι)) (c : StoreCall Op Opts P) : Prop :=
  ∀ t ∈ S.clock c, ∀ e ∈ h, ∀ t' ∈ S.clock e.cmd.2, t' ≤ t

/-- The caller was granted the address of `op` with fence `f` and has not settled. -/
def Holds (h : List (S.StoreEntry ι)) (i : ι) (op : Op) (f : ℤ) : Prop :=
  (∃ e ∈ h, e.cmd.1 = i ∧ S.grantedAt (S.addr op) e = some f) ∧ ¬ S.Settled h i

/-- What callers promise: one claim each, settled at most once and with its own fence. -/
def Disciplined (h : List (S.StoreEntry ι)) (i : ι) (c : StoreCall Op Opts P) : Prop :=
  S.ClockMonotone h c ∧
    match c with
    | .Begin _ _ => ∀ e ∈ h, e.cmd.1 ≠ i
    | .Complete op f _ _ => S.Holds h i op f
    | .Abandon op f => S.Holds h i op f
    | .Get _ _ => True
    | .Purge _ => True
    | .PhysicallyRemove _ => False

section Decidable

variable [DecidableEq ι]

instance (h : List (S.StoreEntry ι)) (c : StoreCall Op Opts P) :
    Decidable (S.ClockMonotone h c) :=
  inferInstanceAs (Decidable (∀ t ∈ S.clock c, ∀ e ∈ h, ∀ t' ∈ S.clock e.cmd.2, t' ≤ t))

instance (h : List (S.StoreEntry ι)) (i : ι) (op : Op) (f : ℤ) : Decidable (S.Holds h i op f) :=
  inferInstanceAs (Decidable ((∃ e ∈ h, _) ∧ _))

instance (h : List (S.StoreEntry ι)) (i : ι) :
    (c : StoreCall Op Opts P) → Decidable (S.Disciplined h i c)
  | .Begin _ _ => inferInstanceAs (Decidable (_ ∧ ∀ e ∈ h, e.cmd.1 ≠ i))
  | .Complete op f _ _ => inferInstanceAs (Decidable (_ ∧ S.Holds h i op f))
  | .Abandon op f => inferInstanceAs (Decidable (_ ∧ S.Holds h i op f))
  | .Get _ _ => inferInstanceAs (Decidable (_ ∧ True))
  | .Purge _ => inferInstanceAs (Decidable (_ ∧ True))
  | .PhysicallyRemove _ => inferInstanceAs (Decidable (_ ∧ False))

end Decidable

/-- An `abandon` of a holder whose row was deleted finds no in-flight row under its fence number. -/
def AbandonsOwn (h : List (S.StoreEntry ι)) (s : σ) (i : ι) (c : StoreCall Op Opts P) : Prop :=
  match c with
  | .Abandon op f => S.RowLost h i (S.addr op) →
      ∀ row, S.lookup s (S.addr op) = some row → M.state row = .InFlight → M.fence row ≠ f
  | _ => True

/-- The runs of disciplined callers. -/
abbrev DisciplinedRun (s₀ : σ) (h : List (S.StoreEntry ι)) (s : σ) : Prop :=
  History (fun h _ p => S.Disciplined h p.1 p.2) S.obj s₀ h s

/-- The disciplined runs in which no abandon meets a foreign row under its own fence number. -/
abbrev GuardedRun (s₀ : σ) (h : List (S.StoreEntry ι)) (s : σ) : Prop :=
  History (fun h s p => S.Disciplined h p.1 p.2 ∧ S.AbandonsOwn h s p.1 p.2) S.obj s₀ h s

/-- Mutual exclusion in a run: of two grants of one address, the first holder has settled before the
second grant, or the second grant is not earlier than the first claim's lease or TTL ends. -/
def Exclusive (h : List (S.StoreEntry ι)) : Prop :=
  ∀ h₁ eA h₂ eB h₃, h = h₁ ++ eA :: (h₂ ++ eB :: h₃) →
    ∀ opA oA fA opB oB fB, grantOf eA.cmd.2 eA.reply = some (opA, oA, fA) →
      grantOf eB.cmd.2 eB.reply = some (opB, oB, fB) → S.addr opA = S.addr opB →
        S.Settled h₂ eA.cmd.1 ∨ min (M.leaseEnd oA) (M.expiry oA) ≤ M.now oB

/-- Where the claim granted by `e` stands: settled, past its term, or in place as the last grant. -/
def Standing (h : List (S.StoreEntry ι)) (s : σ) (e : S.StoreEntry ι) : Prop :=
  ∀ op o f, grantOf e.cmd.2 e.reply = some (op, o, f) →
    S.Settled h e.cmd.1
    ∨ (∃ e' ∈ h, ∃ t ∈ S.clock e'.cmd.2, min (M.leaseEnd o) (M.expiry o) ≤ t)
    ∨ (S.lastGrant (S.addr op) h = some e ∧ ∃ row, S.lookup s (S.addr op) = some row
        ∧ M.leaseUntil row = M.leaseEnd o ∧ M.expiresAt row = M.expiry o)

variable {S}

lemma Settled.mono {h h' : List (S.StoreEntry ι)} {i : ι} (hs : S.Settled h i) (hsub : h ⊆ h') :
    S.Settled h' i := by
  obtain ⟨e, he, hi, hset⟩ := hs
  exact ⟨e, hsub he, hi, hset⟩

/-- The step that grants an address puts the row of the claim in place. -/
lemma standing_grant {h : List (S.StoreEntry ι)} {e : S.StoreEntry ι}
    (ho : S.obj e.pre e.cmd e.reply e.post) : S.Standing (h ++ [e]) e.post e := by
  intro op o f hg
  obtain ⟨-, -, -, hrow⟩ := grant_step ho hg
  exact Or.inr (Or.inr ⟨lastGrant_snoc (grantedAt_of_grantOf hg), _, hrow,
    M.leaseUntil_fresh _ _ _, M.expiresAt_fresh _ _ _⟩)

/-- **No step moves a claim out of its standing.** -/
lemma standing_step {s₀ s : σ} {h : List (S.StoreEntry ι)} (hh : S.GuardedRun s₀ h s)
    {e : S.StoreEntry ι} (hst : S.Standing h s e) {i : ι} {c : StoreCall Op Opts P}
    {r : StoreReply Row c} {s' : σ} (hd : S.Disciplined h i c) (hown : S.AbandonsOwn h s i c)
    (ho : S.apply s c = (r, s')) : S.Standing (h ++ [⟨s, (i, c), r, s'⟩]) s' e := by
  intro op o f hg
  have hsub : h ⊆ h ++ [⟨s, (i, c), r, s'⟩] := List.subset_append_left _ _
  have hnew : (⟨s, (i, c), r, s'⟩ : S.StoreEntry ι) ∈ h ++ [⟨s, (i, c), r, s'⟩] := by simp
  rcases hst op o f hg with hset | ⟨e', he', ht⟩ | ⟨hlast, row, hrow, hlease, hexp⟩
  · exact Or.inl (hset.mono hsub)
  · exact Or.inr (Or.inl ⟨e', hsub he', ht⟩)
  have hcell : S.CellStep s (S.addr op) c r (S.lookup s' (S.addr op)) := cell_step ho _
  generalize hpost : S.lookup s' (S.addr op) = post at hcell
  cases hcell with
  | keep c r hk =>
      have hnone : S.grantedAt (S.addr op) (⟨s, (i, c), r, s'⟩ : S.StoreEntry ι) = none := by
        rw [Option.eq_none_iff_forall_not_mem]
        intro g hmem
        obtain ⟨op', o', hgrant, ha⟩ := grantedAt_eq_some.mp hmem
        exact hk op' o' g hgrant ha
      rw [lastGrant_snoc_of_none hnone]
      exact Or.inr (Or.inr ⟨hlast, row, by rw [hrow], hlease, hexp⟩)
  | grant op' o' ha hc =>
      -- the cell was claimable, so the lease or the TTL of the row has run out
      refine Or.inr (Or.inl ⟨_, hnew, M.now o', rfl, ?_⟩)
      rw [hrow, ClaimModel.claimable_some] at hc
      rw [← hlease, ← hexp]
      rcases hc with hdead | ⟨-, -, hlapsed⟩
      · exact (min_le_right _ _).trans hdead
      · exact (min_le_left _ _).trans hlapsed
  | finish op' f' p now row' ha hrow' hlive hf hs =>
      rw [lastGrant_snoc_of_none rfl]
      rw [hrow, Option.some.injEq] at hrow'
      subst hrow'
      exact Or.inr (Or.inr ⟨hlast, _, rfl, by rw [M.leaseUntil_finish, hlease],
        by rw [M.expiresAt_finish, hexp]⟩)
  | abandon op' f' row' ha hrow' hs hf =>
      -- the abandoning caller finds its own fence, so it is the last one granted: this holder
      obtain ⟨⟨e', he', rfl, hgrant⟩, -⟩ := hd.2
      rw [ha] at hgrant
      have hkept : ¬ S.RowLost h e'.cmd.1 (S.addr op) := by
        intro hlost
        exact hown (ha ▸ hlost) row' (ha ▸ hrow') hs hf
      have hmine := lastGrant_of_fence hh he' hgrant hkept (by rw [fenceAt, hrow', Option.map, hf])
      rw [hlast, Option.some.injEq] at hmine
      subst hmine
      exact Or.inl ⟨_, hnew, rfl, rfl⟩
  | purge now n row' hrow' hdead =>
      rw [hrow, Option.some.injEq] at hrow'
      subst hrow'
      refine Or.inr (Or.inl ⟨_, hnew, now, rfl, ?_⟩)
      rw [← hexp]
      exact (min_le_right _ _).trans hdead
  | remove op' ha => exact hd.2.elim

/-- **Every grant of a guarded run is in standing.** -/
lemma standing_run {s₀ s : σ} {h : List (S.StoreEntry ι)} (hh : S.GuardedRun s₀ h s) :
    ∀ e ∈ h, S.Standing h s e := by
  refine History.invariant (P := fun h s => ∀ e ∈ h, S.Standing h s e) (by simp) ?_ hh
  rintro h s ⟨i, c⟩ r s' hh ih ⟨hd, hown⟩ ho e he
  rcases List.mem_append.mp he with hold | hnew
  · exact standing_step hh (ih e hold) hd hown ho
  · rw [List.mem_singleton.mp hnew]
    exact standing_grant ho

/-- A caller that settled did so after its grant. -/
lemma settled_after_grant {s₀ s : σ} {h₁ h₂ : List (S.StoreEntry ι)} {e : S.StoreEntry ι}
    (hh : S.GuardedRun s₀ (h₁ ++ e :: h₂) s) {op : Op} {o : Opts} {f : ℤ}
    (hg : grantOf e.cmd.2 e.reply = some (op, o, f)) (hset : S.Settled (h₁ ++ e :: h₂) e.cmd.1) :
    S.Settled h₂ e.cmd.1 := by
  obtain ⟨-, ⟨hd, -⟩, ho⟩ := hh.at_entry
  obtain ⟨hcmd, -⟩ := grant_step ho hg
  rw [hcmd] at hd
  obtain ⟨e', he', hi, hsettles⟩ := hset
  rcases List.mem_append.mp he' with hbefore | hrest
  · exact absurd hi (hd.2 e' hbefore)
  · rcases List.mem_cons.mp hrest with rfl | hafter
    · rw [hcmd] at hsettles
      cases hsettles
    · exact ⟨e', hafter, hi, hsettles⟩

/-- **Mutual exclusion.**  In a guarded run an address is granted again only after its holder has
settled or its lease or TTL has run out. -/
theorem exclusion {s₀ s : σ} {h : List (S.StoreEntry ι)} (hh : S.GuardedRun s₀ h s) :
    S.Exclusive h := by
  rintro h₁ eA h₂ eB h₃ rfl opA oA fA opB oB fB hA hB haddr
  rw [← List.cons_append, ← List.append_assoc] at hh
  obtain ⟨hpast, ⟨hd, -⟩, ho⟩ := hh.at_entry
  obtain ⟨hcmd, hc, -, -⟩ := grant_step ho hB
  rcases standing_run hpast eA (by simp) opA oA fA hA with
    hset | ⟨e', he', t, ht, hterm⟩ | ⟨-, row, hrow, hlease, hexp⟩
  · exact Or.inl (settled_after_grant hpast hA hset)
  · rw [hcmd] at hd
    exact Or.inr (hterm.trans (hd.1 _ rfl e' he' t ht))
  · rw [← haddr, hrow, ClaimModel.claimable_some, hlease, hexp] at hc
    rcases hc with hdead | ⟨-, -, hlapsed⟩
    · exact Or.inr ((min_le_right _ _).trans hdead)
    · exact Or.inr ((min_le_left _ _).trans hlapsed)

end ClaimStore

end Anyonce
