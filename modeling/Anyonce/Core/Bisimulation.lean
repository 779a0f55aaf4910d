import Anyonce.Core.Program
import Mathlib.Data.List.Forall2

/-!
# Two programs that make corresponding calls

Programs over different sets of commands, compared along a `Correspondence`: which commands correspond,
and which replies to corresponding commands do.  `Bisim` says that the two programs issue corresponding
commands and, as long as these are answered with corresponding replies, go on doing so until both
return, with results that are related.

An environment answers each call knowing the calls before it.  `Bisim.play` is what a bisimulation is
for: in corresponding environments the two programs make corresponding calls in the same order and
return related results.
-/

namespace Interaction

open Prog

/-- Which commands of two programs correspond, and which replies to them. -/
structure Correspondence (C : Type) (R : C → Type) (C' : Type) (R' : C' → Type) where
  cmd : C → C' → Prop
  reply : (c : C) → (c' : C') → R c → R' c' → Prop

section

variable {C C' : Type} {R : C → Type} {R' : C' → Type} {α α' β β' : Type}

/-- Corresponding commands with corresponding replies. -/
def Correspondence.event (M : Correspondence C R C' R') (e : Event C R) (e' : Event C' R') : Prop :=
  M.cmd e.1 e'.1 ∧ M.reply e.1 e'.1 e.2 e'.2

variable (M : Correspondence C R C' R')

/-- The programs make corresponding calls and return related results. -/
inductive Bisim (res : α → β → Prop) : Prog C R α → Prog C' R' β → Prop
  | ret {a : α} {b : β} : res a b → Bisim res (Ret a) (Ret b)
  | call {c : C} {c' : C'} {k : R c → Prog C R α} {k' : R' c' → Prog C' R' β} :
      M.cmd c c' → (∀ r r', M.reply c c' r r' → Bisim res (k r) (k' r')) →
      Bisim res (Call c k) (Call c' k')

variable {M}

/-- **Bisimilar programs, sequenced.** -/
theorem Bisim.bind {res : α → β → Prop} {res' : α' → β' → Prop} {p : Prog C R α} {p' : Prog C' R' β}
    {f : α → Prog C R α'} {f' : β → Prog C' R' β'} (h : Bisim M res p p')
    (hf : ∀ a b, res a b → Bisim M res' (f a) (f' b)) : Bisim M res' (p >>= f) (p' >>= f') := by
  induction h with
  | ret hab => exact hf _ _ hab
  | call hc _ ih => exact Bisim.call hc ih

/-! ## In an environment -/

/-- How the surroundings answer: from the calls so far, the reply to the next. -/
abbrev Env (C : Type) (R : C → Type) : Type := List (Event C R) → (c : C) → R c

/-- The run of a program in an environment: its calls after those of `past`, and what it returns. -/
def Prog.play (env : Env C R) : Prog C R α → List (Event C R) → List (Event C R) × α
  | Ret a, past => (past, a)
  | Call c k, past => (k (env past c)).play env (past ++ [⟨c, env past c⟩])

/-- Environments that give corresponding replies to corresponding calls after corresponding calls. -/
def Correspondence.env (M : Correspondence C R C' R') (env : Env C R) (env' : Env C' R') : Prop :=
  ∀ past past', List.Forall₂ M.event past past' → ∀ c c', M.cmd c c' →
    M.reply c c' (env past c) (env' past' c')

/-- **In corresponding environments bisimilar programs make corresponding calls in the same order, and
return related results.** -/
theorem Bisim.play {res : α → β → Prop} {p : Prog C R α} {p' : Prog C' R' β} (h : Bisim M res p p')
    {env : Env C R} {env' : Env C' R'} (henv : M.env env env') {past : List (Event C R)}
    {past' : List (Event C' R')} (hpast : List.Forall₂ M.event past past') :
    List.Forall₂ M.event (p.play env past).1 (p'.play env' past').1
      ∧ res (p.play env past).2 (p'.play env' past').2 := by
  induction h generalizing past past' with
  | ret hab => exact ⟨hpast, hab⟩
  | @call c c' k k' hc _ ih =>
      have hreply := henv past past' hpast c c' hc
      refine ih _ _ hreply ?_
      exact List.rel_append hpast (List.Forall₂.cons ⟨hc, hreply⟩ List.Forall₂.nil)

end

end Interaction
