import Anyonce.Core.Interleaving
import Mathlib.Data.Int.Order.Basic
import Mathlib.Data.List.Range

/-!
# Fencing tokens

A cell hands out numbered grants.  Each grant takes the successor of the number the cell carries, or
`1` when the cell is empty; every other step leaves the number alone or empties the cell.  Nothing
else is assumed, neither who asks nor when a grant is given.

* `FenceStep` — the law of one step, about the number before and after it.
* `fences_consecutive` — while the cell is never emptied after a grant `f`, the later grants are
  `f + 1, f + 2, …` and the cell carries the number of the latest.
* `fences_continue` — the same as one fact about the later grants, `Continues`.
* `fence_unique` — so a cell that still carries `f` has granted nothing since.
-/

namespace Interaction

/-- The number of the next grant. -/
def nextToken : Option ℤ → ℤ
  | none => 1
  | some f => f + 1

section

variable {C : Type} {R : C → Type} {σ : Type}

/-- What one step does to the number of a cell: a grant installs the next one, any other step keeps
the number or empties the cell. -/
def FenceStep (fenceAt : σ → Option ℤ) (granted : Entry C R σ → Option ℤ)
    (e : Entry C R σ) : Prop :=
  match granted e with
  | some f => f = nextToken (fenceAt e.pre) ∧ fenceAt e.post = some f
  | none => fenceAt e.post = none ∨ fenceAt e.post = fenceAt e.pre

section

variable {fenceAt : σ → Option ℤ} {granted : Entry C R σ → Option ℤ} {e : Entry C R σ}

lemma FenceStep.of_granted {f : ℤ} (hg : granted e = some f) (hnext : f = nextToken (fenceAt e.pre))
    (hpost : fenceAt e.post = some f) : FenceStep fenceAt granted e := by
  rw [FenceStep, hg]
  exact ⟨hnext, hpost⟩

lemma FenceStep.of_not_granted (hg : granted e = none)
    (hpost : fenceAt e.post = none ∨ fenceAt e.post = fenceAt e.pre) :
    FenceStep fenceAt granted e := by
  rw [FenceStep, hg]
  exact hpost

end

/-- Grants that continue from `f`: each number is the successor of the one before, so all are
larger than `f`, and the cell carries the number of the latest. -/
structure Continues (f : ℤ) (later : List ℤ) (current : Option ℤ) : Prop where
  consecutive : later = (List.range later.length).map fun n => f + 1 + ↑n
  larger : ∀ g ∈ later, f < g
  latest : current = some (later.getLastD f)

variable {allowed : List (Entry C R σ) → σ → C → Prop} {obj : σ → (c : C) → R c → σ → Prop} {s₀ : σ}
variable {fenceAt : σ → Option ℤ} {granted : Entry C R σ → Option ℤ}

/-- **Grants are numbered consecutively while the cell is never emptied.** -/
theorem fences_consecutive
    (hlaw : ∀ e : Entry C R σ, obj e.pre e.cmd e.reply e.post → FenceStep fenceAt granted e)
    {h : List (Entry C R σ)} {s : σ} (hh : History allowed obj s₀ h s)
    {h₁ h₂ : List (Entry C R σ)} {e : Entry C R σ} (hsplit : h = h₁ ++ e :: h₂) {f : ℤ}
    (he : granted e = some f) (hkept : ∀ e' ∈ h₂, fenceAt e'.post ≠ none) :
    h₂.filterMap granted = (List.range (h₂.filterMap granted).length).map (fun n => f + 1 + ↑n)
      ∧ fenceAt s = some (f + ↑(h₂.filterMap granted).length) := by
  induction hh generalizing h₂ with
  | start => simp at hsplit
  | @step h s c r s' _ _ ho ih =>
      have hstep := hlaw ⟨s, c, r, s'⟩ ho
      rcases snoc_split hsplit with ⟨-, rfl, rfl⟩ | ⟨h₃, rfl, rfl⟩
      · rw [FenceStep, he] at hstep
        exact ⟨rfl, by simpa using hstep.2⟩
      · obtain ⟨hgrants, hcell⟩ := ih rfl fun e' he' => hkept e' (List.mem_append_left _ he')
        have hpresent : fenceAt s' ≠ none := hkept ⟨s, c, r, s'⟩ (by simp)
        cases hg : granted ⟨s, c, r, s'⟩ with
        | none =>
            rw [FenceStep, hg] at hstep
            rw [List.filterMap_append, List.filterMap_cons_none hg, List.filterMap_nil,
              List.append_nil]
            rcases hstep with hnone | hsame
            · exact absurd hnone hpresent
            · exact ⟨hgrants, hsame.trans hcell⟩
        | some g =>
            rw [FenceStep, hg] at hstep
            have hg' : g = f + 1 + ↑(h₃.filterMap granted).length := by
              rw [hstep.1]
              show nextToken (fenceAt s) = _
              rw [hcell, nextToken]
              omega
            rw [List.filterMap_append, List.filterMap_cons_some hg, List.filterMap_nil,
              List.length_append, List.length_singleton, List.range_succ, List.map_append,
              List.map_singleton, ← hgrants, ← hg']
            refine ⟨rfl, ?_⟩
            rw [hstep.2, hg']
            congr 1
            push_cast
            omega

/-- Consecutive numbers are larger than the one they start from, and the last of them is as far
from it as there are numbers. -/
lemma continues_of_consecutive {f : ℤ} {later : List ℤ} {current : Option ℤ}
    (hlater : later = (List.range later.length).map fun n => f + 1 + ↑n)
    (hcell : current = some (f + ↑later.length)) : Continues f later current where
  consecutive := hlater
  larger := by
    intro g hg
    rw [hlater] at hg
    obtain ⟨n, -, rfl⟩ := List.mem_map.mp hg
    omega
  latest := by
    rw [hcell, hlater]
    congr 1
    cases later.length with
    | zero => simp
    | succ n =>
        simp [List.range_succ]
        omega

/-- **The grants after a grant continue from it** while the cell is never emptied. -/
theorem fences_continue
    (hlaw : ∀ e : Entry C R σ, obj e.pre e.cmd e.reply e.post → FenceStep fenceAt granted e)
    {h₁ h₂ : List (Entry C R σ)} {e : Entry C R σ} {s : σ}
    (hh : History allowed obj s₀ (h₁ ++ e :: h₂) s) {f : ℤ} (he : granted e = some f)
    (hkept : ∀ e' ∈ h₂, fenceAt e'.post ≠ none) :
    Continues f (h₂.filterMap granted) (fenceAt s) := by
  obtain ⟨hlater, hcell⟩ := fences_consecutive hlaw hh rfl he hkept
  exact continues_of_consecutive hlater hcell

/-- A cell that was not emptied since the grant `f` and still carries `f` granted nothing since. -/
lemma fence_unique
    (hlaw : ∀ e : Entry C R σ, obj e.pre e.cmd e.reply e.post → FenceStep fenceAt granted e)
    {h₁ h₂ : List (Entry C R σ)} {e : Entry C R σ} {s : σ}
    (hh : History allowed obj s₀ (h₁ ++ e :: h₂) s) {f : ℤ} (he : granted e = some f)
    (hkept : ∀ e' ∈ h₂, fenceAt e'.post ≠ none) (hf : fenceAt s = some f) :
    h₂.filterMap granted = [] := by
  have hcell := (fences_consecutive hlaw hh rfl he hkept).2
  rw [hf, Option.some.injEq] at hcell
  exact List.length_eq_zero_iff.mp (by omega)

/-- After a later grant the cell carries a larger number. -/
lemma fence_lt
    (hlaw : ∀ e : Entry C R σ, obj e.pre e.cmd e.reply e.post → FenceStep fenceAt granted e)
    {h₁ h₂ : List (Entry C R σ)} {e : Entry C R σ} {s : σ}
    (hh : History allowed obj s₀ (h₁ ++ e :: h₂) s) {f : ℤ} (he : granted e = some f)
    (hkept : ∀ e' ∈ h₂, fenceAt e'.post ≠ none) (hlater : h₂.filterMap granted ≠ []) :
    ∃ g, fenceAt s = some g ∧ f < g := by
  have hcell := (fences_consecutive hlaw hh rfl he hkept).2
  have hpos : 0 < (h₂.filterMap granted).length := List.length_pos_iff.mpr hlater
  exact ⟨_, hcell, by omega⟩

end

end Interaction
