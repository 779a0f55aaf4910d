import Anyonce.Core.Interpret

/-!
# Commands that have to be allowed

A rule `P : List (Event C R) → C → Prop` says which command may be issued after which calls and replies.  A program
is `Guarded P` when it issues none that is not allowed, whoever answers and wherever it stands.

* `Everywhere P t` — every call of `t` was allowed by the calls before it.
* `Steps.guarded` — soundness: so it is for every partial run of a guarded program.
* `guarded_bind`, `Interpreted.everywhere` — the rules for sequencing and for programs inside programs.
* `guarded_of_only`, `guarded_of_runs` — programs that make no call with a rule, and programs whose runs are known.
-/

namespace Interaction

open Prog

variable {C C' : Type} {R : C → Type} {R' : C' → Type} {S α β : Type}

/-! ## Traces -/

/-- Every call of a trace is allowed by the calls before it. -/
def Everywhere (P : List (Event C R) → C → Prop) (t : List (Event C R)) : Prop :=
  ∀ t₁ e t₂, t = t₁ ++ e :: t₂ → P t₁ e.1

section

variable {P : List (Event C R) → C → Prop}

@[simp] lemma everywhere_nil : Everywhere P [] := by
  intro t₁ e t₂ ht
  simp at ht

lemma everywhere_cons_iff {e : Event C R} {t : List (Event C R)} :
    Everywhere P (e :: t) ↔ P [] e.1 ∧ Everywhere (fun u => P (e :: u)) t := by
  constructor
  · intro h
    exact ⟨h [] e t rfl, fun t₁ e' t₂ ht => h (e :: t₁) e' t₂ (by simp [ht])⟩
  · rintro ⟨hfirst, hrest⟩ t₁ e' t₂ ht
    rcases t₁ with _ | ⟨e₁, t₁⟩
    · obtain ⟨rfl, -⟩ := List.cons.inj ht
      exact hfirst
    · obtain ⟨rfl, htail⟩ := List.cons.inj ht
      exact hrest t₁ e' t₂ htail

lemma everywhere_append_iff {t t' : List (Event C R)} :
    Everywhere P (t ++ t') ↔ Everywhere P t ∧ Everywhere (fun u => P (t ++ u)) t' := by
  induction t generalizing P with
  | nil => simp
  | cons e t ih => simp only [List.cons_append, everywhere_cons_iff, ih, and_assoc]

/-- What is always allowed. -/
lemma everywhere_of_forall {t : List (Event C R)} (h : ∀ e ∈ t, ∀ u, P u e.1) : Everywhere P t := by
  intro t₁ e t₂ ht
  exact h e (by simp [ht]) t₁

end

/-! ## Programs -/

/-- Every command is allowed by the calls and replies before it. -/
def Prog.Guarded : (List (Event C R) → C → Prop) → Prog C R α → Prop
  | _, Ret _ => True
  | P, Call c k => P [] c ∧ ∀ r, (k r).Guarded fun u => P (⟨c, r⟩ :: u)

section

variable {P : List (Event C R) → C → Prop}

@[simp] lemma guarded_ret (a : α) : (Ret a : Prog C R α).Guarded P := trivial

@[simp] lemma guarded_call_iff {c : C} {k : R c → Prog C R α} :
    (Call c k).Guarded P ↔ P [] c ∧ ∀ r, (k r).Guarded fun u => P (⟨c, r⟩ :: u) := Iff.rfl

/-- **What a partial run of a guarded program has issued was allowed.** -/
lemma Steps.guarded {p q : Prog C R α} {t : List (Event C R)} (h : Steps p t q) (hp : p.Guarded P) : Everywhere P t := by
  induction h generalizing P with
  | refl p => exact everywhere_nil
  | call r _ ih => exact everywhere_cons_iff.mpr ⟨hp.1, ih (hp.2 r)⟩

lemma guarded_bind {p : Prog C R α} {f : α → Prog C R β} (hp : p.Guarded P)
    (hf : ∀ t a, Runs p t a → (f a).Guarded fun u => P (t ++ u)) : (p >>= f).Guarded P := by
  induction p generalizing P with
  | Ret a => exact hf [] a (Steps.refl _)
  | Call c k ih => exact ⟨hp.1, fun r => ih r (hp.2 r) fun t a ht => hf (⟨c, r⟩ :: t) a (Steps.call r ht)⟩

/-- The commands of a program are allowed when they are always. -/
lemma guarded_of_only {Q : C → Prop} {p : Prog C R α} (hp : p.Only Q) (hQ : ∀ t c, Q c → P t c) : p.Guarded P := by
  induction p generalizing P with
  | Ret a => trivial
  | Call c k ih => exact ⟨hQ [] c hp.1, fun r => ih r (hp.2 r) fun t c' hc' => hQ _ c' hc'⟩

/-- When every command can be answered, complete runs tell. -/
lemma guarded_of_runs [∀ c, Nonempty (R c)] {p : Prog C R α}
    (hp : ∀ t a, Runs p t a → Everywhere P t) : p.Guarded P := by
  induction p generalizing P with
  | Ret a => trivial
  | Call c k ih =>
      refine ⟨?_, fun r => ih r fun t a ht => (everywhere_cons_iff.mp (hp _ a (Steps.call r ht))).2⟩
      obtain ⟨r⟩ := (inferInstance : Nonempty (R c))
      obtain ⟨t, a, ht⟩ := exists_runs (k r)
      exact (everywhere_cons_iff.mp (hp _ a (Steps.call r ht))).1

/-- **A guarded program among programs that answer**: each of these may rely on its command having been allowed. -/
lemma Interpreted.everywhere {Q : List (Event C' R') → C' → Prop} {h : (c : C) → StateT S (Prog C' R') (R c)} {s s' : S}
    {u : List (Event C R)} {t : List (Event C' R')} (hu : Interpreted h s u t s') (hP : Everywhere P u)
    (hh : ∀ u t s' c, Interpreted h s u t s' → P u c → (h c s').Guarded fun v => Q (t ++ v)) : Everywhere Q t := by
  induction hu generalizing P Q with
  | nil s => exact everywhere_nil
  | @cons s s₁ s₂ c r t₁ t₂ u hcall hrest ih =>
      obtain ⟨hallowed, hP⟩ := everywhere_cons_iff.mp hP
      refine everywhere_append_iff.mpr ⟨hcall.guarded (hh [] [] s c (Interpreted.nil s) hallowed), ?_⟩
      refine ih hP fun u t' s' c' hu hallowed' => ?_
      simpa only [List.append_assoc] using hh (⟨c, r⟩ :: u) (t₁ ++ t') s' c' (Interpreted.cons hcall hu) hallowed'

end

end Interaction
