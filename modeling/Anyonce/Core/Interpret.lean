import Anyonce.Core.Program

/-!
# Programs inside programs

`Prog.interpret h p` runs `p` where other commands are answered: each command of `p` becomes the program
that `h` has for it, beside a state that these programs share.

* `interpret_bind`, `interpret_call` — interpretation respects sequencing, so a program that is built from
  its commands alone can be read in the other monad line by line.
* `Interpreted h s u t s'` — the commands `u` were answered by the calls `t`, and the state went from `s` to
  `s'`.
* `runs_interpret_iff` — **a run of the interpretation is a run of the program, call by call.**  What holds of
  every run of the program holds of what the interpretation answered it.
* `Interpreted.mem`, `Interpreted.split` — from a call back to the command that made it.
-/

namespace Interaction

open Prog

variable {C C' : Type} {R : C → Type} {R' : C' → Type} {S α β : Type}

lemma prog_id_map (p : Prog C R α) : id <$> p = p := by
  induction p with
  | Ret a => rfl
  | Call c k ih => exact congrArg (Call c) (funext ih)

lemma prog_bind_assoc {γ : Type} (p : Prog C R α) (f : α → Prog C R β) (g : β → Prog C R γ) :
    p >>= f >>= g = p >>= fun a => f a >>= g := by
  induction p with
  | Ret a => rfl
  | Call c k ih => exact congrArg (Call c) (funext ih)

namespace Lawful

/-- For the modules that interpret programs in programs. -/
scoped instance : LawfulMonad (Prog C R) := LawfulMonad.mk' _ prog_id_map (fun _ _ => rfl) prog_bind_assoc

end Lawful

/-- Run a program where `h` answers its commands. -/
def Prog.interpret {m : Type → Type} [Monad m] (h : (c : C) → m (R c)) : Prog C R α → m α
  | Ret a => pure a
  | Call c k => h c >>= fun r => (k r).interpret h

section

variable {m : Type → Type} [Monad m] (h : (c : C) → m (R c))

@[simp] lemma interpret_ret (a : α) : (Ret a : Prog C R α).interpret h = pure a := rfl

variable [LawfulMonad m]

@[simp] lemma interpret_call (c : C) : (Prog.call c : Prog C R (R c)).interpret h = h c := bind_pure _

@[simp] lemma interpret_bind (p : Prog C R α) (f : α → Prog C R β) :
    (p >>= f).interpret h = p.interpret h >>= fun a => (f a).interpret h := by
  induction p with
  | Ret a => rw [ret_bind, interpret_ret, pure_bind]
  | Call c k ih =>
      rw [call_node_bind, Prog.interpret, Prog.interpret, bind_assoc]
      exact congrArg (h c >>= ·) (funext ih)

end

/-! ## Programs beside a state -/

section

variable {s s' : S} {t : List (Event C R)} {a : α}

@[simp] lemma runs_prog_call_iff {c : C} {r : R c} : Runs (Prog.call c : Prog C R (R c)) t r ↔ t = [⟨c, r⟩] := by
  simp [Prog.call]

@[simp] lemma runs_state_pure_iff {b : α} : Runs ((pure b : StateT S (Prog C R) α) s) t (a, s')
    ↔ t = [] ∧ b = a ∧ s = s' := by
  refine runs_ret_iff.trans ?_
  rw [Prod.mk.injEq]

@[simp] lemma runs_get_iff {s₁ : S} : Runs ((get : StateT S (Prog C R) S) s) t (s₁, s')
    ↔ t = [] ∧ s = s₁ ∧ s = s' := by
  refine runs_ret_iff.trans ?_
  rw [Prod.mk.injEq]

@[simp] lemma runs_modify_iff {f : S → S} {u : Unit} : Runs ((modify f : StateT S (Prog C R) Unit) s) t (u, s')
    ↔ t = [] ∧ f s = s' := by
  refine runs_ret_iff.trans ?_
  simp

@[simp] lemma runs_lift_iff {p : Prog C R α} : Runs ((StateT.lift p : StateT S (Prog C R) α) s) t (a, s')
    ↔ Runs p t a ∧ s = s' := by
  refine runs_bind_iff.trans ?_
  constructor
  · rintro ⟨t₁, t₂, b, rfl, h₁, h₂⟩
    obtain ⟨rfl, heq⟩ := runs_ret_iff.mp h₂
    obtain ⟨rfl, rfl⟩ := Prod.mk.inj heq
    exact ⟨by simpa using h₁, rfl⟩
  · rintro ⟨h, rfl⟩
    exact ⟨t, [], a, (List.append_nil t).symm, h, Steps.refl _⟩

lemma runs_state_bind_iff {x : StateT S (Prog C R) α} {f : α → StateT S (Prog C R) β} {b : β} :
    Runs ((x >>= f) s) t (b, s')
      ↔ ∃ t₁ t₂ a s₁, t = t₁ ++ t₂ ∧ Runs (x s) t₁ (a, s₁) ∧ Runs (f a s₁) t₂ (b, s') := by
  refine runs_bind_iff.trans ?_
  constructor
  · rintro ⟨t₁, t₂, ⟨a, s₁⟩, rfl, h₁, h₂⟩
    exact ⟨t₁, t₂, a, s₁, rfl, h₁, h₂⟩
  · rintro ⟨t₁, t₂, a, s₁, rfl, h₁, h₂⟩
    exact ⟨t₁, t₂, (a, s₁), rfl, h₁, h₂⟩

end

/-! ## Runs of an interpretation -/

variable {h : (c : C) → StateT S (Prog C' R') (R c)}

/-- `Interpreted h s u t s'`: the commands and replies `u`, one after another, from the calls `t`. -/
inductive Interpreted (h : (c : C) → StateT S (Prog C' R') (R c)) :
    S → List (Event C R) → List (Event C' R') → S → Prop
  | nil (s : S) : Interpreted h s [] [] s
  | cons {s s₁ s₂ : S} {c : C} {r : R c} {t₁ t₂ : List (Event C' R')} {u : List (Event C R)}
      (hcall : Runs (h c s) t₁ (r, s₁)) (hrest : Interpreted h s₁ u t₂ s₂) :
      Interpreted h s (⟨c, r⟩ :: u) (t₁ ++ t₂) s₂

/-- **A run of the interpretation is a run of the program, call by call.** -/
lemma runs_interpret_iff {p : Prog C R α} {s s' : S} {t : List (Event C' R')} {a : α} :
    Runs (p.interpret h s) t (a, s') ↔ ∃ u, Runs p u a ∧ Interpreted h s u t s' := by
  induction p generalizing s t with
  | Ret b =>
      constructor
      · intro hrun
        obtain ⟨rfl, heq⟩ := runs_ret_iff.mp hrun
        obtain ⟨rfl, rfl⟩ := Prod.mk.inj heq
        exact ⟨[], Steps.refl _, Interpreted.nil s⟩
      · rintro ⟨u, hrun, hu⟩
        obtain ⟨rfl, rfl⟩ := runs_ret_iff.mp hrun
        cases hu
        exact Steps.refl _
  | Call c k ih =>
      constructor
      · intro hrun
        obtain ⟨t₁, t₂, ⟨r, s₁⟩, rfl, h₁, h₂⟩ := runs_bind_iff.mp hrun
        obtain ⟨u, hu, hrest⟩ := (ih r).mp h₂
        exact ⟨⟨c, r⟩ :: u, Steps.call r hu, Interpreted.cons h₁ hrest⟩
      · rintro ⟨u, hrun, hu⟩
        obtain ⟨r, u', rfl, hu'⟩ := runs_call_iff.mp hrun
        cases hu with
        | cons hcall hrest => exact runs_bind_iff.mpr ⟨_, _, _, rfl, hcall, (ih r).mpr ⟨u', hu', hrest⟩⟩

/-- The same without a state. -/
lemma interpret_lift (h : (c : C) → Prog C' R' (R c)) (p : Prog C R α) (s : S) :
    p.interpret (fun c => (StateT.lift (h c) : StateT S (Prog C' R') (R c))) s = p.interpret h >>= fun a => Ret (a, s) := by
  induction p with
  | Ret a => rfl
  | Call c k ih =>
      refine (prog_bind_assoc (h c) _ _).trans ?_
      rw [Prog.interpret, prog_bind_assoc]
      exact congrArg (h c >>= ·) (funext ih)

lemma runs_interpret_lift_iff {h : (c : C) → Prog C' R' (R c)} {p : Prog C R α} {t : List (Event C' R')} {a : α} :
    Runs (p.interpret h) t a
      ↔ ∃ u, Runs p u a ∧ Interpreted (fun c => (StateT.lift (h c) : StateT Unit (Prog C' R') (R c))) () u t () := by
  rw [← runs_interpret_iff, interpret_lift, runs_bind_iff]
  constructor
  · intro hrun
    exact ⟨t, [], a, (List.append_nil t).symm, hrun, Steps.refl _⟩
  · rintro ⟨t₁, t₂, b, rfl, h₁, h₂⟩
    obtain ⟨rfl, heq⟩ := runs_ret_iff.mp h₂
    obtain ⟨rfl, -⟩ := Prod.mk.inj heq
    rwa [List.append_nil]

/-- Answers of answers. -/
lemma interpret_interpret {m : Type → Type} [Monad m] [LawfulMonad m] (g : (c : C') → m (R' c)) (p : Prog C R α)
    (s : S) : (p.interpret h s).interpret g = (p.interpret fun c s => (h c s).interpret g : StateT S m α) s := by
  induction p generalizing s with
  | Ret a => rfl
  | Call c k ih =>
      refine (interpret_bind g (h c s) _).trans ?_
      exact congrArg ((h c s).interpret g >>= ·) (funext fun out => ih out.1 out.2)

/-- A call was made for a command. -/
lemma Interpreted.mem {s s' : S} {u : List (Event C R)} {t : List (Event C' R')} (hu : Interpreted h s u t s')
    {e : Event C' R'} (he : e ∈ t) :
    ∃ u₁ c r u₂ t₁ t₂ t₃ s₁ s₂, u = u₁ ++ ⟨c, r⟩ :: u₂ ∧ t = t₁ ++ t₂ ++ t₃ ∧ e ∈ t₂
      ∧ Interpreted h s u₁ t₁ s₁ ∧ Runs (h c s₁) t₂ (r, s₂) ∧ Interpreted h s₂ u₂ t₃ s' := by
  induction hu with
  | nil s => simp at he
  | @cons s s₁ s₂ c r t₁ t₂ u hcall hrest ih =>
      rcases List.mem_append.mp he with he | he
      · exact ⟨[], c, r, u, [], t₁, t₂, s, s₁, rfl, rfl, he, Interpreted.nil s, hcall, hrest⟩
      · obtain ⟨u₁, c', r', u₂, t₁', t₂', t₃', s₁', s₂', rfl, rfl, he', h₁, h₂, h₃⟩ := ih he
        exact ⟨⟨c, r⟩ :: u₁, c', r', u₂, t₁ ++ t₁', t₂', t₃', s₁', s₂', rfl, by simp, he',
          Interpreted.cons hcall h₁, h₂, h₃⟩

/-- A command was answered by some of the calls. -/
lemma Interpreted.split {s s' : S} {u₁ u₂ : List (Event C R)} {c : C} {r : R c} {t : List (Event C' R')}
    (hu : Interpreted h s (u₁ ++ ⟨c, r⟩ :: u₂) t s') :
    ∃ t₁ t₂ t₃ s₁ s₂, t = t₁ ++ t₂ ++ t₃ ∧ Interpreted h s u₁ t₁ s₁ ∧ Runs (h c s₁) t₂ (r, s₂)
      ∧ Interpreted h s₂ u₂ t₃ s' := by
  induction u₁ generalizing s t with
  | nil =>
      cases hu with
      | @cons _ s₁ _ _ _ t₁ t₂ _ hcall hrest =>
          exact ⟨[], t₁, t₂, s, s₁, rfl, Interpreted.nil s, hcall, hrest⟩
  | cons e u₁ ih =>
      cases hu with
      | cons hcall hrest =>
          obtain ⟨t₁', t₂', t₃', s₁', s₂', rfl, h₁, h₂, h₃⟩ := ih hrest
          exact ⟨_ ++ t₁', t₂', t₃', s₁', s₂', by simp, Interpreted.cons hcall h₁, h₂, h₃⟩

/-- **An invariant of an interpretation**: what every command keeps, a run keeps. -/
lemma Interpreted.invariant {inv : List (Event C R) → List (Event C' R') → S → Prop}
    (hstep : ∀ u t s c r t' s', inv u t s → Runs (h c s) t' (r, s') → inv (u ++ [⟨c, r⟩]) (t ++ t') s')
    {s s' : S} {u : List (Event C R)} {t : List (Event C' R')} (hu : Interpreted h s u t s')
    {u₀ : List (Event C R)} {t₀ : List (Event C' R')} (hinv : inv u₀ t₀ s) : inv (u₀ ++ u) (t₀ ++ t) s' := by
  induction hu generalizing u₀ t₀ with
  | nil s => simpa using hinv
  | cons hcall hrest ih => simpa using ih (hstep _ _ _ _ _ _ _ hinv hcall)

end Interaction
