import Anyonce.Core.Interleaving

/-!
# Programs that keep a contract

A contract speaks about one program without saying who else is running.  The program keeps notes of
the replies it gets, each of its calls has to satisfy a condition on its notes, and so has its result.
`Prog.Meets` is checked by walking down the program once, a reply at a time; `meets_bind_iff` splits the
walk at a `>>=`.

* `Interleave.meets` — in every interleaving each program keeps its contract, with the notes it has of
  its own past; `Interleave.promises` says so of every call that was made.
-/

namespace Interaction

open Prog

/-- What is noted of a reply, and what a call has to satisfy. -/
structure Contract (C : Type) (R : C → Type) (τ : Type) where
  note : τ → Event C R → τ
  asks : τ → C → Prop

section Contract

variable {C : Type} {R : C → Type} {α β τ : Type} {K : Contract C R τ}

/-- With the notes `t` the program keeps to the contract, and `post` holds when it returns. -/
def Prog.Meets (K : Contract C R τ) (post : τ → α → Prop) : Prog C R α → τ → Prop
  | Ret a, t => post t a
  | Call c k, t => K.asks t c ∧ ∀ r, (k r).Meets K post (K.note t ⟨c, r⟩)

@[simp] lemma meets_ret {post : τ → α → Prop} {a : α} {t : τ} :
    (Ret a : Prog C R α).Meets K post t ↔ post t a := Iff.rfl

@[simp] lemma meets_call {post : τ → α → Prop} {c : C} {k : R c → Prog C R α} {t : τ} :
    (Call c k).Meets K post t ↔ K.asks t c ∧ ∀ r, (k r).Meets K post (K.note t ⟨c, r⟩) := Iff.rfl

/-- **The rule of sequencing.** -/
lemma meets_bind_iff {post : τ → β → Prop} {p : Prog C R α} {f : α → Prog C R β} {t : τ} :
    (p >>= f).Meets K post t ↔ p.Meets K (fun t a => (f a).Meets K post t) t := by
  induction p generalizing t with
  | Ret a => exact Iff.rfl
  | Call c k ih =>
      rw [call_node_bind, meets_call, meets_call]
      exact and_congr_right fun _ => forall_congr' fun r => ih r

lemma Prog.Meets.mono {post post' : τ → α → Prop} {p : Prog C R α} {t : τ} (h : p.Meets K post t)
    (himp : ∀ t a, post t a → post' t a) : p.Meets K post' t := by
  induction p generalizing t with
  | Ret a => exact himp t a h
  | Call c k ih => exact ⟨h.1, fun r => ih r (h.2 r)⟩

/-- The rule for a first part that leaves the notes alone. -/
lemma Prog.Meets.bind {post : τ → β → Prop} {p : Prog C R α} {f : α → Prog C R β} {t : τ}
    (hp : p.Meets K (fun t' _ => t' = t) t) (hf : ∀ a, (f a).Meets K post t) :
    (p >>= f).Meets K post t := by
  refine meets_bind_iff.mpr (hp.mono ?_)
  rintro t' a rfl
  exact hf a

/-- Each call the program has made satisfied the condition when it was made. -/
lemma Prog.Meets.asks {post : τ → α → Prop} {p q : Prog C R α} {t : τ} (h : p.Meets K post t)
    {evs : List (Event C R)} (hsteps : Steps p evs q) : ∀ ev ∈ evs, ∃ t', K.asks t' ev.1 := by
  induction hsteps generalizing t with
  | refl p => simp
  | call r _ ih =>
      intro ev hev
      rcases List.mem_cons.mp hev with rfl | hev
      · exact ⟨t, h.1⟩
      · exact ih (h.2 r) ev hev

end Contract

section Interleave

variable {ι C : Type} {R : C → Type} {α σ τ : Type} [DecidableEq ι]
variable {allowed : List (Entry (ι × C) (Tagged ι R) σ) → σ → ι × C → Prop}
variable {obj : σ → (p : ι × C) → Tagged ι R p → σ → Prop} {s₀ : σ} {start : ι → Prog C R α}

/-- **In an interleaving every program keeps its contract.** -/
theorem Interleave.meets {K : ι → Contract C R τ} {post : ι → τ → α → Prop} {t₀ : ι → τ}
    (hstart : ∀ i, (start i).Meets (K i) (post i) (t₀ i)) {cfg : Config ι C R α σ}
    (h : Interleave allowed obj s₀ start cfg) (i : ι) :
    (cfg.pool i).Meets (K i) (post i) ((traceOf i cfg.history).foldl (K i).note (t₀ i)) := by
  induction h with
  | start => exact hstart i
  | @step cfg j c k r s' _ hpool _ _ ih =>
      show (if i = j then k r else cfg.pool i).Meets (K i) (post i) _
      rw [traceOf_snoc]
      by_cases hij : i = j
      · subst hij
        rw [hpool] at ih
        rw [if_pos rfl, if_pos rfl, List.foldl_append]
        exact ih.2 r
      · rw [if_neg hij, if_neg (Ne.symm hij)]
        exact ih

/-- So the past is one in which each call was one its program may make, with the notes it had then. -/
lemma Interleave.promises {K : ι → Contract C R τ} {post : ι → τ → α → Prop} {t₀ : ι → τ}
    (hstart : ∀ i, (start i).Meets (K i) (post i) (t₀ i)) {cfg : Config ι C R α σ}
    (h : Interleave allowed obj s₀ start cfg) :
    History (fun past _ p => (K p.1).asks ((traceOf p.1 past).foldl (K p.1).note (t₀ p.1)) p.2) obj s₀
      cfg.history cfg.state := by
  induction h with
  | start => exact History.start
  | @step cfg i c k r s' h hpool _ ho ih =>
      have hmeets := h.meets hstart i
      rw [hpool] at hmeets
      exact History.step (i, c) r s' ih hmeets.1 ho

end Interleave

end Interaction
