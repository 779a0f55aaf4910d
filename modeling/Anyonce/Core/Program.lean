import Mathlib.Data.List.Basic
import Mathlib.Logic.Basic

/-!
# Programs that call an environment

A `Prog C R α` is a computation that issues commands `c : C`, receives a reply of type `R c` for
each, and finally returns a value.  It says nothing about who answers: the same program is run
against an adversary (any reply at all), against a state machine (`exec`), and interleaved with
other programs over one shared object (`Core/Interleaving.lean`).

* `Steps p t q` — after the calls and replies of `t`, the program `p` has become `q`.
* `Runs p t a` — the special case in which `q` has returned `a`.
* `exec` — the run against a deterministic state machine, as a function.
* `Prog.retry` — a bounded loop; `runs_retry` says what a run of it looks like.
* `visible`, `Hidden` — a trace without the calls one does not look at, and programs that make no
  others.

The three facts everything else uses: `runs_bind_iff` splits a run at a `>>=`, `Steps.exists_runs`
completes any partial run, and `exec_bind` does for functions what `runs_bind_iff` does for
relations.
-/

namespace Interaction

/-- A program over the commands `C`, where command `c` is answered by a value of type `R c`. -/
inductive Prog (C : Type) (R : C → Type) (α : Type) : Type
  | Ret (a : α) : Prog C R α
  | Call (c : C) (k : R c → Prog C R α) : Prog C R α

/-- One command together with the reply it received. -/
abbrev Event (C : Type) (R : C → Type) : Type := (c : C) × R c

variable {C : Type} {R : C → Type} {α β : Type}

namespace Prog

/-- Sequencing: every leaf of `p` is replaced by the program `f` gives for it. -/
protected def bind : Prog C R α → (α → Prog C R β) → Prog C R β
  | Ret a, f => f a
  | Call c k, f => Call c fun r => (k r).bind f

instance : Monad (Prog C R) where
  pure := Prog.Ret
  bind := Prog.bind

/-- Issue one command and return its reply. -/
def call (c : C) : Prog C R (R c) := Call c Ret

@[simp] lemma pure_eq (a : α) : (pure a : Prog C R α) = Ret a := rfl

@[simp] lemma ret_bind (a : α) (f : α → Prog C R β) : (Ret a >>= f) = f a := rfl

@[simp] lemma call_node_bind (c : C) (k : R c → Prog C R α) (f : α → Prog C R β) :
    (Call c k >>= f) = Call c fun r => k r >>= f := rfl

@[simp] lemma call_bind (c : C) (f : R c → Prog C R β) :
    ((call c : Prog C R (R c)) >>= f) = Call c f := rfl

end Prog

open Prog

/-- `Steps p t q`: answering the first calls of `p` as `t` records leaves `q` to be run. -/
inductive Steps : Prog C R α → List (Event C R) → Prog C R α → Prop
  | refl (p : Prog C R α) : Steps p [] p
  | call {c : C} {k : R c → Prog C R α} (r : R c) {t : List (Event C R)} {q : Prog C R α} :
      Steps (k r) t q → Steps (Call c k) (⟨c, r⟩ :: t) q

/-- A complete run: the calls `t` were made, then `a` was returned. -/
abbrev Runs (p : Prog C R α) (t : List (Event C R)) (a : α) : Prop := Steps p t (Ret a)

@[simp] lemma runs_ret_iff {a b : α} {t : List (Event C R)} :
    Runs (Ret a) t b ↔ t = [] ∧ a = b := by
  constructor
  · intro h
    cases h
    exact ⟨rfl, rfl⟩
  · rintro ⟨rfl, rfl⟩
    exact Steps.refl _

@[simp] lemma runs_call_iff {c : C} {k : R c → Prog C R α} {t : List (Event C R)} {a : α} :
    Runs (Call c k) t a ↔ ∃ r t', t = ⟨c, r⟩ :: t' ∧ Runs (k r) t' a := by
  constructor
  · intro h
    cases h with
    | call r h => exact ⟨r, _, rfl, h⟩
  · rintro ⟨r, t', rfl, h⟩
    exact Steps.call r h

lemma steps_cons_iff {c : C} {k : R c → Prog C R α} {ev : Event C R} {t : List (Event C R)}
    {q : Prog C R α} : Steps (Call c k) (ev :: t) q ↔ ∃ r, ev = ⟨c, r⟩ ∧ Steps (k r) t q := by
  constructor
  · intro h
    cases h with
    | call r h => exact ⟨r, rfl, h⟩
  · rintro ⟨r, rfl, h⟩
    exact Steps.call r h

/-- A program that has done nothing is as it was. -/
lemma Steps.of_nil {p q : Prog C R α} (h : Steps p [] q) : q = p := by
  generalize ht : ([] : List (Event C R)) = t at h
  cases h with
  | refl p => rfl
  | call r h => cases ht

/-- Partial runs compose. -/
lemma Steps.append {p q u : Prog C R α} {t t' : List (Event C R)} (h : Steps p t q)
    (h' : Steps q t' u) : Steps p (t ++ t') u := by
  induction h with
  | refl p => exact h'
  | call r _ ih => exact Steps.call r (ih h')

/-- One more answered call at the end of a partial run. -/
lemma Steps.snoc {p : Prog C R α} {t : List (Event C R)} {c : C} {k : R c → Prog C R α}
    (h : Steps p t (Call c k)) (r : R c) : Steps p (t ++ [⟨c, r⟩]) (k r) :=
  h.append (Steps.call r (Steps.refl _))

/-- **A run of a sequence is a run of its first part followed by one of the rest.** -/
lemma runs_bind_iff {p : Prog C R α} {f : α → Prog C R β} {t : List (Event C R)} {b : β} :
    Runs (p >>= f) t b ↔ ∃ t₁ t₂ a, t = t₁ ++ t₂ ∧ Runs p t₁ a ∧ Runs (f a) t₂ b := by
  induction p generalizing t with
  | Ret a =>
      constructor
      · intro h
        exact ⟨[], t, a, rfl, Steps.refl _, h⟩
      · rintro ⟨t₁, t₂, a', rfl, h₁, h₂⟩
        obtain ⟨rfl, rfl⟩ := runs_ret_iff.mp h₁
        exact h₂
  | Call c k ih =>
      rw [call_node_bind, runs_call_iff]
      constructor
      · rintro ⟨r, t', rfl, h⟩
        obtain ⟨t₁, t₂, a, rfl, h₁, h₂⟩ := (ih r).mp h
        exact ⟨⟨c, r⟩ :: t₁, t₂, a, rfl, Steps.call r h₁, h₂⟩
      · rintro ⟨t₁, t₂, a, rfl, h₁, h₂⟩
        obtain ⟨r, t', rfl, hk⟩ := runs_call_iff.mp h₁
        exact ⟨r, t' ++ t₂, rfl, (ih r).mpr ⟨t', t₂, a, rfl, hk, h₂⟩⟩

/-- A partial run of a sequence has not left its first part, or is a run of it and a partial run of the rest. -/
lemma Steps.of_bind {p : Prog C R α} {f : α → Prog C R β} {t : List (Event C R)} {q : Prog C R β}
    (h : Steps (p >>= f) t q) :
    (∃ p', Steps p t p') ∨ ∃ t₁ t₂ a, t = t₁ ++ t₂ ∧ Runs p t₁ a ∧ Steps (f a) t₂ q := by
  induction p generalizing t with
  | Ret a => exact Or.inr ⟨[], t, a, rfl, Steps.refl _, h⟩
  | Call c k ih =>
      rw [call_node_bind] at h
      cases h with
      | refl _ => exact Or.inl ⟨_, Steps.refl _⟩
      | call r h =>
          rcases ih r h with ⟨p', h'⟩ | ⟨t₁, t₂, a, rfl, h₁, h₂⟩
          · exact Or.inl ⟨p', Steps.call r h'⟩
          · exact Or.inr ⟨⟨c, r⟩ :: t₁, t₂, a, rfl, Steps.call r h₁, h₂⟩

/-- A run up to one of its calls, and from there. -/
lemma Steps.split {p q : Prog C R α} {t t' : List (Event C R)} {c : C} {r : R c}
    (h : Steps p (t ++ ⟨c, r⟩ :: t') q) : ∃ k, Steps p t (Call c k) ∧ Steps (k r) t' q := by
  induction t generalizing p with
  | nil =>
      cases h with
      | @call _ k _ _ _ h => exact ⟨k, Steps.refl _, h⟩
  | cons e t ih =>
      cases h with
      | call r' h =>
          obtain ⟨k', h₁, h₂⟩ := ih h
          exact ⟨k', Steps.call r' h₁, h₂⟩

/-- A program whose every command can be answered has a complete run. -/
lemma exists_runs [∀ c, Nonempty (R c)] (p : Prog C R α) : ∃ t a, Runs p t a := by
  induction p with
  | Ret a => exact ⟨[], a, Steps.refl _⟩
  | Call c k ih =>
      obtain ⟨r⟩ := (inferInstance : Nonempty (R c))
      obtain ⟨t, a, h⟩ := ih r
      exact ⟨⟨c, r⟩ :: t, a, Steps.call r h⟩

/-- A program has a complete run in which every command gets the reply that is chosen for it. -/
lemma exists_runs_replying (p : Prog C R α) (reply : ∀ c, R c) :
    ∃ t a, Runs p t a ∧ ∀ e ∈ t, e.2 = reply e.1 := by
  induction p with
  | Ret a => exact ⟨[], a, Steps.refl _, by simp⟩
  | Call c k ih =>
      obtain ⟨t, a, h, ht⟩ := ih (reply c)
      refine ⟨⟨c, reply c⟩ :: t, a, Steps.call _ h, ?_⟩
      simpa using ht

/-- **Any partial run can be completed.**  So a fact about complete runs that speaks of their
initial calls is a fact about a program that is still running. -/
lemma Steps.exists_runs [∀ c, Nonempty (R c)] {p q : Prog C R α} {t : List (Event C R)}
    (h : Steps p t q) : ∃ t' a, Runs p (t ++ t') a := by
  obtain ⟨t', a, h'⟩ := Interaction.exists_runs q
  exact ⟨t', a, h.append h'⟩

/-- A program that has returned makes no further calls. -/
lemma Runs.ends {p q : Prog C R α} {t t' : List (Event C R)} {a : α} (h : Runs p t a)
    (h' : Steps p (t ++ t') q) : t' = [] ∧ q = Ret a := by
  unfold Runs at h
  generalize hret : (Ret a : Prog C R α) = p' at h
  induction h with
  | refl p =>
      subst hret
      cases h'
      exact ⟨rfl, rfl⟩
  | call r _ ih =>
      cases h' with
      | call _ hrest => exact ih hrest hret

/-- A program all of whose commands satisfy `Q`, whatever the replies. -/
def Prog.Only (Q : C → Prop) : Prog C R α → Prop
  | Ret _ => True
  | Call c k => Q c ∧ ∀ r, (k r).Only Q

section Only

variable {Q : C → Prop}

@[simp] lemma only_ret (a : α) : (Ret a : Prog C R α).Only Q := trivial

@[simp] lemma only_call_iff {c : C} {k : R c → Prog C R α} :
    (Call c k).Only Q ↔ Q c ∧ ∀ r, (k r).Only Q := Iff.rfl

lemma only_bind {p : Prog C R α} {f : α → Prog C R β} (hp : p.Only Q) (hf : ∀ a, (f a).Only Q) :
    (p >>= f).Only Q := by
  induction p with
  | Ret a => exact hf a
  | Call c k ih => exact ⟨hp.1, fun r => ih r (hp.2 r)⟩

/-- What such a program has done satisfies `Q`. -/
lemma Steps.only {p q : Prog C R α} {t : List (Event C R)} (h : Steps p t q) (hp : p.Only Q) :
    ∀ ev ∈ t, Q ev.1 := by
  induction h with
  | refl p => simp
  | call r _ ih =>
      intro ev hev
      rcases List.mem_cons.mp hev with rfl | hev
      · exact hp.1
      · exact ih (hp.2 r) ev hev

end Only

/-! ## Bounded retries -/

/-- Try `attempt` up to `n` times, until it gives a result; `giveUp` when it never does. -/
def Prog.retry (attempt : Prog C R (Option α)) (giveUp : α) : ℕ → Prog C R α
  | 0 => Ret giveUp
  | n + 1 => attempt >>= fun
      | some a => Ret a
      | none => Prog.retry attempt giveUp n

/-- **A run of a retried attempt**: some attempts without a result, and then one with a result, or
the end of the tries. -/
lemma runs_retry {attempt : Prog C R (Option α)} {giveUp a : α} {n : ℕ} {t : List (Event C R)}
    (h : Runs (Prog.retry attempt giveUp n) t a) :
    ∃ (ts : List (List (Event C R))) (t' : List (Event C R)), t = ts.flatten ++ t'
      ∧ (∀ u ∈ ts, Runs attempt u none)
      ∧ ((t' = [] ∧ a = giveUp ∧ ts.length = n) ∨ (Runs attempt t' (some a) ∧ ts.length < n)) := by
  induction n generalizing t with
  | zero =>
      obtain ⟨rfl, rfl⟩ := runs_ret_iff.mp h
      exact ⟨[], [], rfl, by simp, Or.inl ⟨rfl, rfl, rfl⟩⟩
  | succ n ih =>
      obtain ⟨t₁, t₂, o, rfl, h₁, h₂⟩ := runs_bind_iff.mp h
      cases o with
      | some b =>
          obtain ⟨rfl, rfl⟩ := runs_ret_iff.mp h₂
          exact ⟨[], t₁, by simp, by simp, Or.inr ⟨h₁, Nat.succ_pos n⟩⟩
      | none =>
          obtain ⟨ts, t', rfl, hts, hend⟩ := ih h₂
          refine ⟨t₁ :: ts, t', by simp, ?_, ?_⟩
          · intro u hu
            rcases List.mem_cons.mp hu with rfl | hu
            · exact h₁
            · exact hts u hu
          · rcases hend with ⟨rfl, rfl, hlen⟩ | ⟨hrun, hlen⟩
            · exact Or.inl ⟨rfl, rfl, by simp [hlen]⟩
            · exact Or.inr ⟨hrun, by simpa using hlen⟩

lemma only_retry {Q : C → Prop} {attempt : Prog C R (Option α)} (h : attempt.Only Q) (giveUp : α) :
    ∀ n, (Prog.retry attempt giveUp n).Only Q
  | 0 => trivial
  | n + 1 => by
      refine only_bind h fun o => ?_
      cases o with
      | some a => exact only_ret a
      | none => exact only_retry h giveUp n

/-! ## Among more commands -/

section Embed

variable {C' : Type} {R' : C' → Type}

/-- The same program where there are more commands, with its result converted. -/
def Prog.embed (f : C → C') (g : α → β) : Prog C (fun c => R' (f c)) α → Prog C' R' β
  | Ret a => Ret (g a)
  | Call c k => Call (f c) fun r => (k r).embed f g

/-- The same event among more commands. -/
def Event.embed (f : C → C') (e : Event C fun c => R' (f c)) : Event C' R' := ⟨f e.1, e.2⟩

/-- An embedded program makes the calls of the program. -/
lemma only_embed {Q : C' → Prop} {f : C → C'} {g : α → β} {p : Prog C (fun c => R' (f c)) α}
    (h : p.Only fun c => Q (f c)) : (p.embed f g).Only Q := by
  induction p with
  | Ret a => exact trivial
  | Call c k ih => exact ⟨h.1, fun r => ih r (h.2 r)⟩

/-- What an embedded program did, the program itself did. -/
lemma Steps.of_embed {f : C → C'} {g : α → β} {p : Prog C (fun c => R' (f c)) α}
    {t : List (Event C' R')} {q : Prog C' R' β} (h : Steps (p.embed f g) t q) :
    ∃ t₀ q₀, Steps p t₀ q₀ ∧ q = q₀.embed f g ∧ t = t₀.map (Event.embed f) := by
  generalize hp : p.embed f g = p' at h
  induction h generalizing p with
  | refl p' => exact ⟨[], p, Steps.refl _, hp.symm, rfl⟩
  | call r h ih =>
      cases p with
      | Ret a => cases hp
      | Call c k =>
          simp only [Prog.embed, Call.injEq] at hp
          obtain ⟨rfl, rfl⟩ := hp
          obtain ⟨t₀, q₀, hsteps, hq, rfl⟩ := ih (p := k r) rfl
          exact ⟨⟨c, r⟩ :: t₀, q₀, Steps.call (R := fun c => R' (f c)) (c := c) (k := k) r hsteps, hq, rfl⟩

end Embed

/-! ## Looking at some of the calls only -/

/-- The calls of a trace that `vis` selects. -/
def visible (vis : C → Bool) (t : List (Event C R)) : List (Event C R) := t.filter fun e => vis e.1

/-- A program that makes no selected call. -/
def Hidden (vis : C → Bool) (p : Prog C R α) : Prop := ∀ t a, Runs p t a → visible vis t = []

section Hidden

variable {vis : C → Bool}

@[simp] lemma visible_nil : visible vis ([] : List (Event C R)) = [] := rfl

@[simp] lemma visible_append (t t' : List (Event C R)) :
    visible vis (t ++ t') = visible vis t ++ visible vis t' :=
  List.filter_append ..

lemma visible_cons {c : C} (hc : vis c = true) (r : R c) (t : List (Event C R)) :
    visible vis (⟨c, r⟩ :: t) = ⟨c, r⟩ :: visible vis t :=
  List.filter_cons_of_pos hc

lemma visible_cons_hidden {c : C} (hc : vis c = false) (r : R c) (t : List (Event C R)) :
    visible vis (⟨c, r⟩ :: t) = visible vis t :=
  List.filter_cons_of_neg (by simp [hc])

@[simp] lemma mem_visible {t : List (Event C R)} {c : C} {r : R c} :
    ⟨c, r⟩ ∈ visible vis t ↔ ⟨c, r⟩ ∈ t ∧ vis c = true := by
  simp [visible]

lemma hidden_ret (a : α) : Hidden vis (Ret a : Prog C R α) := by
  intro t b h
  obtain ⟨rfl, -⟩ := runs_ret_iff.mp h
  rfl

lemma hidden_call {c : C} (hc : vis c = false) : Hidden vis (Prog.call c : Prog C R (R c)) := by
  intro t a h
  obtain ⟨r, t', rfl, hret⟩ := runs_call_iff.mp h
  obtain ⟨rfl, -⟩ := runs_ret_iff.mp hret
  exact visible_cons_hidden hc r []

lemma hidden_bind {p : Prog C R α} {f : α → Prog C R β} (hp : Hidden vis p)
    (hf : ∀ a, Hidden vis (f a)) : Hidden vis (p >>= f) := by
  intro t b h
  obtain ⟨t₁, t₂, a, rfl, h₁, h₂⟩ := runs_bind_iff.mp h
  rw [visible_append, hp t₁ a h₁, hf a t₂ b h₂, List.append_nil]

/-- A hidden part drops out of what is seen of a sequence. -/
lemma runs_hidden_bind {p : Prog C R α} {f : α → Prog C R β} (hp : Hidden vis p)
    {t : List (Event C R)} {b : β} (h : Runs (p >>= f) t b) :
    ∃ t' a, visible vis t = visible vis t' ∧ Runs (f a) t' b := by
  obtain ⟨t₁, t₂, a, rfl, h₁, h₂⟩ := runs_bind_iff.mp h
  exact ⟨t₂, a, by rw [visible_append, hp t₁ a h₁, List.nil_append], h₂⟩

end Hidden

/-! ## Against a deterministic machine -/

variable {σ : Type}

/-- Run a program against a machine that answers each command and moves to a next state. -/
def exec (h : (c : C) → σ → R c × σ) : Prog C R α → σ → α × σ
  | Ret a, s => (a, s)
  | Call c k, s => exec h (k (h c s).1) (h c s).2

section Exec

variable (h : (c : C) → σ → R c × σ)

@[simp] lemma exec_ret (a : α) (s : σ) : exec h (Ret a) s = (a, s) := rfl

@[simp] lemma exec_call (c : C) (k : R c → Prog C R α) (s : σ) :
    exec h (Call c k) s = exec h (k (h c s).1) (h c s).2 := rfl

@[simp] lemma exec_bind (p : Prog C R α) (f : α → Prog C R β) (s : σ) :
    exec h (p >>= f) s = exec h (f (exec h p s).1) (exec h p s).2 := by
  induction p generalizing s with
  | Ret a => rfl
  | Call c k ih => exact ih _ _

/-- An attempt that gives a result at once is not repeated. -/
lemma exec_retry {attempt : Prog C R (Option α)} {giveUp a : α} {n : ℕ} {s s' : σ}
    (hres : exec h attempt s = (some a, s')) :
    exec h (Prog.retry attempt giveUp (n + 1)) s = (a, s') := by
  rw [Prog.retry, exec_bind, hres, exec_ret]

/-- An attempt that gives no result and changes nothing never gives one. -/
lemma exec_retry_none {attempt : Prog C R (Option α)} {giveUp : α} {s : σ}
    (hres : exec h attempt s = (none, s)) (n : ℕ) :
    exec h (Prog.retry attempt giveUp n) s = (giveUp, s) := by
  induction n with
  | zero => rfl
  | succ n ih => rw [Prog.retry, exec_bind, hres, ih]

end Exec

/-! ## One machine for another -/

/-- The replies of a machine to commands given one after another. -/
def replies (step : (c : C) → σ → R c × σ) : List C → σ → List (Event C R)
  | [], _ => []
  | c :: rest, s => ⟨c, (step c s).1⟩ :: replies step rest (step c s).2

/-- The state of a machine after commands given one after another. -/
def after (step : (c : C) → σ → R c × σ) (cs : List C) (s : σ) : σ :=
  cs.foldl (fun s c => (step c s).2) s

lemma replies_append (step : (c : C) → σ → R c × σ) (cs cs' : List C) (s : σ) :
    replies step (cs ++ cs') s = replies step cs s ++ replies step cs' (after step cs s) := by
  induction cs generalizing s with
  | nil => rfl
  | cons c rest ih => exact congrArg (_ :: ·) (ih _)

lemma after_append (step : (c : C) → σ → R c × σ) (cs cs' : List C) (s : σ) :
    after step (cs ++ cs') s = after step cs' (after step cs s) :=
  List.foldl_append

/-- The second machine simulates the first on the commands `Q` allows: from related states it gives
the same reply and moves to related states. -/
def Simulates {τ : Type} (Q : C → Prop) (step : (c : C) → σ → R c × σ)
    (step' : (c : C) → τ → R c × τ) (rel : σ → τ → Prop) : Prop :=
  ∀ c s u, Q c → rel s u → (step' c u).1 = (step c s).1 ∧ rel (step c s).2 (step' c u).2

/-- **A simulation gives the same replies to every sequence of commands.** -/
theorem Simulates.replies_eq {τ : Type} {Q : C → Prop} {step : (c : C) → σ → R c × σ}
    {step' : (c : C) → τ → R c × τ} {rel : σ → τ → Prop} (h : Simulates Q step step' rel)
    {cs : List C} (hcs : ∀ c ∈ cs, Q c) {s : σ} {u : τ} (hrel : rel s u) :
    replies step' cs u = replies step cs s := by
  induction cs generalizing s u with
  | nil => rfl
  | cons c rest ih =>
      obtain ⟨hreply, hnext⟩ := h c s u (hcs c List.mem_cons_self) hrel
      rw [replies, replies, hreply, ih (fun c' hc' => hcs c' (List.mem_cons_of_mem _ hc')) hnext]

/-- The states stay related. -/
lemma Simulates.after {τ : Type} {Q : C → Prop} {step : (c : C) → σ → R c × σ}
    {step' : (c : C) → τ → R c × τ} {rel : σ → τ → Prop} (h : Simulates Q step step' rel)
    {cs : List C} (hcs : ∀ c ∈ cs, Q c) {s : σ} {u : τ} (hrel : rel s u) :
    rel (after step cs s) (after step' cs u) := by
  induction cs generalizing s u with
  | nil => exact hrel
  | cons c rest ih =>
      obtain ⟨-, hnext⟩ := h c s u (hcs c List.mem_cons_self) hrel
      exact ih (fun c' hc' => hcs c' (List.mem_cons_of_mem _ hc')) hnext

end Interaction
