import Anyonce.Core.Program
import Mathlib.Data.List.Basic

/-!
# Histories of an atomic object, and programs interleaved over one

An object is a relation `obj s c r s'`: in state `s` the command `c` may be answered with `r`,
leaving `s'`.  Each command is one atomic step.  A `History` is a finite run of such steps, kept
with the state before and after each of them, so that a statement about "the row at that instant"
can be made about any step of the past.

A history is relative to a predicate `allowed`, which sees the past, the state and the next
command.  It states what the callers promise (a clock that does not go backwards, a token used
only once); with `fun _ _ _ => True` every order of commands is a history.

`Interleave` is the run of any number of programs over one object.  Two facts reduce it to what
has been said before: its commands form a `History` (`Interleave.history`), and what each single
program did is a partial run of that program alone (`Interleave.steps`).
-/

namespace Interaction

open Prog

/-- One atomic step: the command, its reply, and the states before and after. -/
structure Entry (C : Type) (R : C → Type) (σ : Type) where
  pre : σ
  cmd : C
  reply : R cmd
  post : σ

section History

variable {C : Type} {R : C → Type} {σ : Type}
variable (allowed : List (Entry C R σ) → σ → C → Prop)
variable (obj : σ → (c : C) → R c → σ → Prop) (s₀ : σ)

/-- The finite runs of an object from `s₀`, newest step last. -/
inductive History : List (Entry C R σ) → σ → Prop
  | start : History [] s₀
  | step {h : List (Entry C R σ)} {s : σ} (c : C) (r : R c) (s' : σ) :
      History h s → allowed h s c → obj s c r s' → History (h ++ [⟨s, c, r, s'⟩]) s'

variable {allowed obj s₀}

/-- What holds at the start and is kept by every step holds after every history. -/
theorem History.invariant {P : List (Entry C R σ) → σ → Prop} (hstart : P [] s₀)
    (hstep : ∀ h s c r s', History allowed obj s₀ h s → P h s → allowed h s c → obj s c r s' →
      P (h ++ [⟨s, c, r, s'⟩]) s')
    {h : List (Entry C R σ)} {s : σ} (hh : History allowed obj s₀ h s) : P h s := by
  induction hh with
  | start => exact hstart
  | step c r s' hh ha ho ih => exact hstep _ _ c r s' hh ih ha ho

/-- Weaker promises, more histories. -/
lemma History.mono {allowed' : List (Entry C R σ) → σ → C → Prop}
    (hm : ∀ h s c, allowed h s c → allowed' h s c) {h : List (Entry C R σ)} {s : σ}
    (hh : History allowed obj s₀ h s) : History allowed' obj s₀ h s := by
  induction hh with
  | start => exact History.start
  | step c r s' _ ha ho ih => exact History.step c r s' ih (hm _ _ _ ha) ho

/-- A history with one more step, split at one of its steps: at the new one, or before. -/
lemma snoc_split {α : Type} {l h₁ h₂ : List α} {x e : α} (h : l ++ [x] = h₁ ++ e :: h₂) :
    (l = h₁ ∧ x = e ∧ h₂ = []) ∨ ∃ h₃, h₂ = h₃ ++ [x] ∧ l = h₁ ++ e :: h₃ := by
  rcases List.eq_nil_or_concat h₂ with rfl | ⟨h₃, y, rfl⟩
  · obtain ⟨rfl, he⟩ := List.append_inj' h rfl
    exact Or.inl ⟨rfl, List.singleton_inj.mp he, rfl⟩
  · rw [List.concat_eq_append, ← List.cons_append, ← List.append_assoc] at h
    obtain ⟨hl, hx⟩ := List.append_inj' h rfl
    obtain rfl := List.singleton_inj.mp hx
    exact Or.inr ⟨h₃, by rw [List.concat_eq_append], hl⟩

/-- Every step of the past: the history before it, the promise made for it, and its effect. -/
lemma History.at_entry {h₁ h₂ : List (Entry C R σ)} {e : Entry C R σ} {s : σ}
    (hh : History allowed obj s₀ (h₁ ++ e :: h₂) s) :
    History allowed obj s₀ h₁ e.pre ∧ allowed h₁ e.pre e.cmd
      ∧ obj e.pre e.cmd e.reply e.post := by
  generalize hl : h₁ ++ e :: h₂ = l at hh
  induction hh generalizing h₂ with
  | start => simp at hl
  | @step h s c r s' hh ha ho ih =>
      rcases snoc_split hl.symm with ⟨rfl, rfl, rfl⟩ | ⟨h₃, rfl, rfl⟩
      · exact ⟨hh, ha, ho⟩
      · exact ih rfl

/-- What holds at the start and is kept by every step held before each recorded step. -/
lemma History.before_of_mem {P : σ → Prop} (hstart : P s₀)
    (hstep : ∀ h s c r s', allowed h s c → obj s c r s' → P s → P s')
    {h : List (Entry C R σ)} {s : σ} (hh : History allowed obj s₀ h s) {e : Entry C R σ}
    (he : e ∈ h) : P e.pre := by
  obtain ⟨h₁, h₂, rfl⟩ := List.append_of_mem he
  refine History.invariant (P := fun _ s => P s) hstart ?_ hh.at_entry.1
  intro h s c r s' _ hs ha ho
  exact hstep h s c r s' ha ho hs

/-- Each recorded step was allowed when its turn came. -/
lemma History.allowed_of_mem {h : List (Entry C R σ)} {s : σ} (hh : History allowed obj s₀ h s)
    {e : Entry C R σ} (he : e ∈ h) : ∃ h₁, allowed h₁ e.pre e.cmd := by
  obtain ⟨h₁, h₂, rfl⟩ := List.append_of_mem he
  exact ⟨h₁, hh.at_entry.2.1⟩

/-- What no step after `e` changes is at the end what it was after `e`. -/
lemma History.kept {β : Type} (obs : σ → β) {h₁ h₂ : List (Entry C R σ)} {e : Entry C R σ} {s : σ}
    (hh : History allowed obj s₀ (h₁ ++ e :: h₂) s)
    (hkeep : ∀ e' ∈ h₂, obs e'.post = obs e'.pre) : obs s = obs e.post := by
  generalize hl : h₁ ++ e :: h₂ = l at hh
  induction hh generalizing h₂ with
  | start => simp at hl
  | @step h s c r s' _ _ _ ih =>
      rcases snoc_split hl.symm with ⟨-, rfl, -⟩ | ⟨h₃, rfl, rfl⟩
      · rfl
      · have hlast : obs s' = obs s := hkeep ⟨s, c, r, s'⟩ (by simp)
        exact hlast.trans (ih (fun e' he' => hkeep e' (by simp [he'])) rfl)

/-- Each recorded step is a step of the object. -/
lemma History.obj_of_mem {h : List (Entry C R σ)} {s : σ} (hh : History allowed obj s₀ h s)
    {e : Entry C R σ} (he : e ∈ h) : obj e.pre e.cmd e.reply e.post := by
  obtain ⟨h₁, h₂, rfl⟩ := List.append_of_mem he
  exact hh.at_entry.2.2

end History

/-! ## Programs over one object -/

section Interleave

variable {ι C : Type} {R : C → Type} {α σ : Type}

/-- The command `c` issued by the program `i`; its reply type is that of `c`. -/
abbrev Tagged (ι : Type) (R : C → Type) : ι × C → Type := fun p => R p.2

/-- The call and reply of an entry, without who issued it and the states around it. -/
def Entry.event (e : Entry (ι × C) (Tagged ι R) σ) : Event C R := ⟨e.cmd.2, e.reply⟩

/-- A system of programs: the shared state, what is left of each program, and the past. -/
structure Config (ι C : Type) (R : C → Type) (α σ : Type) where
  state : σ
  pool : ι → Prog C R α
  history : List (Entry (ι × C) (Tagged ι R) σ)

variable [DecidableEq ι]

/-- The steps program `i` made. -/
def entriesOf (i : ι) (h : List (Entry (ι × C) (Tagged ι R) σ)) :
    List (Entry (ι × C) (Tagged ι R) σ) :=
  h.filter fun e => e.cmd.1 = i

/-- The calls program `i` made, with their replies. -/
def traceOf (i : ι) (h : List (Entry (ι × C) (Tagged ι R) σ)) : List (Event C R) :=
  (entriesOf i h).map Entry.event

@[simp] lemma traceOf_nil (i : ι) :
    traceOf i ([] : List (Entry (ι × C) (Tagged ι R) σ)) = [] := rfl

/-- One more step extends the trace of the program that made it and no other. -/
lemma traceOf_snoc (i j : ι) (h : List (Entry (ι × C) (Tagged ι R) σ)) (s s' : σ) (c : C)
    (r : R c) : traceOf i (h ++ [⟨s, (j, c), r, s'⟩])
      = if j = i then traceOf i h ++ [⟨c, r⟩] else traceOf i h := by
  by_cases hij : j = i
  · simp [traceOf, entriesOf, hij, Entry.event]
  · simp [traceOf, entriesOf, hij]

lemma entriesOf_append (i : ι) (h h' : List (Entry (ι × C) (Tagged ι R) σ)) :
    entriesOf i (h ++ h') = entriesOf i h ++ entriesOf i h' :=
  List.filter_append ..

lemma entriesOf_cons {i : ι} {e : Entry (ι × C) (Tagged ι R) σ} (he : e.cmd.1 = i)
    (h : List (Entry (ι × C) (Tagged ι R) σ)) : entriesOf i (e :: h) = e :: entriesOf i h :=
  List.filter_cons_of_pos (by simp [he])

lemma mem_entriesOf {i : ι} {h : List (Entry (ι × C) (Tagged ι R) σ)}
    {e : Entry (ι × C) (Tagged ι R) σ} : e ∈ entriesOf i h ↔ e ∈ h ∧ e.cmd.1 = i := by
  simp [entriesOf]

/-- The last call of a program, as the step it was. -/
lemma entries_of_trace {i : ι} {h : List (Entry (ι × C) (Tagged ι R) σ)} {before : List (Event C R)}
    {ev : Event C R} (ht : traceOf i h = before ++ [ev]) :
    ∃ es e, entriesOf i h = es ++ [e] ∧ es.map Entry.event = before ∧ e.event = ev := by
  obtain ⟨es, last, hsplit, hes, hlast⟩ := List.map_eq_append_iff.mp ht
  obtain ⟨e, rfl, he⟩ := List.map_eq_singleton_iff.mp hlast
  exact ⟨es, e, hsplit, hes, he⟩

lemma mem_traceOf {i : ι} {h : List (Entry (ι × C) (Tagged ι R) σ)} {ev : Event C R} :
    ev ∈ traceOf i h ↔ ∃ e ∈ h, e.cmd.1 = i ∧ e.event = ev := by
  simp [traceOf, entriesOf, and_assoc]

variable (allowed : List (Entry (ι × C) (Tagged ι R) σ) → σ → ι × C → Prop)
variable (obj : σ → (p : ι × C) → Tagged ι R p → σ → Prop) (s₀ : σ)
variable (start : ι → Prog C R α)

/-- Every interleaving of the programs `start i`, each command one atomic step of the object. -/
inductive Interleave : Config ι C R α σ → Prop
  | start : Interleave ⟨s₀, start, []⟩
  | step {cfg : Config ι C R α σ} (i : ι) (c : C) (k : R c → Prog C R α) (r : R c) (s' : σ) :
      Interleave cfg → cfg.pool i = Call c k → allowed cfg.history cfg.state (i, c) →
      obj cfg.state (i, c) r s' →
      Interleave ⟨s', fun j => if j = i then k r else cfg.pool j,
        cfg.history ++ [⟨cfg.state, (i, c), r, s'⟩]⟩

variable {allowed obj s₀ start}

/-- One more step, of a given program and command. -/
lemma Interleave.next {cfg : Config ι C R α σ} (h : Interleave allowed obj s₀ start cfg) (i : ι)
    (c : C) (r : R c) {k : R c → Prog C R α} {s' : σ} (hpool : cfg.pool i = Call c k)
    (ha : allowed cfg.history cfg.state (i, c)) (ho : obj cfg.state (i, c) r s') :
    Interleave allowed obj s₀ start ⟨s', fun j => if j = i then k r else cfg.pool j,
      cfg.history ++ [⟨cfg.state, (i, c), r, s'⟩]⟩ :=
  Interleave.step i c k r s' h hpool ha ho

/-- A run all of whose steps satisfy a condition on the state and the command. -/
lemma Interleave.guard {Q : σ → ι × C → Prop} {cfg : Config ι C R α σ}
    (h : Interleave (fun _ _ _ => True) obj s₀ start cfg) (hq : ∀ e ∈ cfg.history, Q e.pre e.cmd) :
    Interleave (fun _ s p => Q s p) obj s₀ start cfg := by
  induction h with
  | start => exact Interleave.start
  | @step cfg i c k r s' _ hp _ ho ih =>
      refine Interleave.step i c k r s' (ih fun e he => hq e ?_) hp ?_ ho
      · exact List.mem_append_left _ he
      · exact hq ⟨cfg.state, (i, c), r, s'⟩ (by simp)

/-- The commands of an interleaving, whoever issued them, are a history of the object. -/
theorem Interleave.history {cfg : Config ι C R α σ}
    (h : Interleave allowed obj s₀ start cfg) :
    History allowed obj s₀ cfg.history cfg.state := by
  induction h with
  | start => exact History.start
  | step i c k r s' _ _ ha ho ih => exact History.step (i, c) r s' ih ha ho

/-- What one program of an interleaving did is a partial run of that program alone. -/
theorem Interleave.steps {cfg : Config ι C R α σ}
    (h : Interleave allowed obj s₀ start cfg) (i : ι) :
    Steps (start i) (traceOf i cfg.history) (cfg.pool i) := by
  induction h with
  | start => exact Steps.refl _
  | @step cfg j c k r s' _ hp _ _ ih =>
      show Steps (start i) (traceOf i (cfg.history ++ [⟨cfg.state, (j, c), r, s'⟩]))
        (if i = j then k r else cfg.pool i)
      rw [traceOf_snoc]
      by_cases hij : i = j
      · subst hij
        rw [hp] at ih
        simpa using ih.snoc r
      · simpa [hij, Ne.symm hij] using ih

variable (obj s₀ start) in
/-- Runs of one program after another: a program makes a step only while every other one has not begun or
has returned. -/
inductive OneByOne : Config ι C R α σ → Prop
  | start : OneByOne ⟨s₀, start, []⟩
  | step {cfg : Config ι C R α σ} (i : ι) (c : C) (k : R c → Prog C R α) (r : R c) (s' : σ) :
      OneByOne cfg → cfg.pool i = Call c k →
      (∀ j, j ≠ i → traceOf j cfg.history = [] ∨ ∃ a, cfg.pool j = Ret a) →
      obj cfg.state (i, c) r s' →
      OneByOne ⟨s', fun j => if j = i then k r else cfg.pool j,
        cfg.history ++ [⟨cfg.state, (i, c), r, s'⟩]⟩

lemma OneByOne.interleave {cfg : Config ι C R α σ} (h : OneByOne obj s₀ start cfg) :
    Interleave (fun _ _ _ => True) obj s₀ start cfg := by
  induction h with
  | start => exact Interleave.start
  | step i c k r s' _ hpool _ ho ih => exact Interleave.step i c k r s' ih hpool trivial ho

/-- When every program keeps to the commands of `Q`, so does the history. -/
theorem Interleave.history_only {Q : C → Prop} {cfg : Config ι C R α σ}
    (h : Interleave allowed obj s₀ start cfg) (honly : ∀ i, (start i).Only Q) :
    (∀ i, (cfg.pool i).Only Q)
      ∧ History (fun h s p => allowed h s p ∧ Q p.2) obj s₀ cfg.history cfg.state := by
  induction h with
  | start => exact ⟨honly, History.start⟩
  | @step cfg j c k r s' _ hp ha ho ih =>
      have hcall := ih.1 j
      rw [hp, only_call_iff] at hcall
      refine ⟨fun i => ?_, History.step (j, c) r s' ih.2 ⟨ha, hcall.1⟩ ho⟩
      show Prog.Only Q (if i = j then k r else cfg.pool i)
      split_ifs
      · exact hcall.2 r
      · exact ih.1 i

/-! ### Runs by a schedule

Against a machine that answers every command, a list of turns determines the run.
-/

section Schedule

variable (machine : (c : C) → σ → R c × σ)

/-- The next step of program `i`, if it has one. -/
def Config.turn (cfg : Config ι C R α σ) (i : ι) : Config ι C R α σ :=
  match cfg.pool i with
  | Ret _ => cfg
  | Call c k =>
      ⟨(machine c cfg.state).2, fun j => if j = i then k (machine c cfg.state).1 else cfg.pool j,
        cfg.history ++ [⟨cfg.state, (i, c), (machine c cfg.state).1, (machine c cfg.state).2⟩]⟩

/-- Turns one after another. -/
def Config.schedule (cfg : Config ι C R α σ) (turns : List ι) : Config ι C R α σ :=
  turns.foldl (Config.turn machine) cfg

variable {machine}

lemma Interleave.schedule
    (hm : ∀ s i c, obj s (i, c) (machine c s).1 (machine c s).2) (turns : List ι)
    {cfg : Config ι C R α σ} (h : Interleave (fun _ _ _ => True) obj s₀ start cfg) :
    Interleave (fun _ _ _ => True) obj s₀ start (cfg.schedule machine turns) := by
  induction turns generalizing cfg with
  | nil => exact h
  | cons i rest ih =>
      have hturn : Interleave (fun _ _ _ => True) obj s₀ start (cfg.turn machine i) := by
        unfold Config.turn
        split
        · exact h
        · exact h.next i _ _ ‹_› trivial (hm _ i _)
      exact ih hturn

end Schedule

/-! ### Concurrent calls of an interface -/

section Pool

variable {Call : Type} {Res : Call → Type}

/-- One program for each caller: the call it makes, returned together with its result. -/
def poolOf (program : (c : Call) → Prog C R (Res c)) (calls : ι → Call) (i : ι) :
    Prog C R ((c : Call) × Res c) :=
  program (calls i) >>= fun r => Ret ⟨calls i, r⟩

omit [DecidableEq ι] in
lemma poolOf_eq (program : (c : Call) → Prog C R (Res c)) {calls : ι → Call} {i : ι} {c : Call}
    (h : calls i = c) : poolOf program calls i = (program c >>= fun r => Ret ⟨c, r⟩) := by
  subst h
  rfl

omit [DecidableEq ι] in
lemma runs_poolOf {program : (c : Call) → Prog C R (Res c)} {calls : ι → Call} {i : ι}
    {t : List (Event C R)} {c : Call} {r : Res c} (h : Runs (poolOf program calls i) t ⟨c, r⟩) :
    calls i = c ∧ Runs (program c) t r := by
  obtain ⟨t₁, t₂, r', rfl, hrun, hret⟩ := runs_bind_iff.mp h
  obtain ⟨rfl, heq⟩ := runs_ret_iff.mp hret
  rw [List.append_nil]
  generalize calls i = c' at *
  cases heq
  exact ⟨rfl, hrun⟩

/-- A call that has returned made a complete run of its own program. -/
lemma Interleave.returned {program : (c : Call) → Prog C R (Res c)} {calls : ι → Call}
    {cfg : Config ι C R ((c : Call) × Res c) σ}
    (h : Interleave allowed obj s₀ (poolOf program calls) cfg) {i : ι} {c : Call} {r : Res c}
    (hret : cfg.pool i = Ret ⟨c, r⟩) :
    calls i = c ∧ Runs (program c) (traceOf i cfg.history) r := by
  have hsteps := h.steps i
  rw [hret] at hsteps
  exact runs_poolOf hsteps

end Pool

end Interleave

end Interaction
