import Anyonce.Core.Program

/-!
# Isolation

A machine keeps its state at addresses, and a command is confined to an address when its reply and
what it leaves there depend on nothing else, and it leaves every other address as it was
(`Confined`).  A program of commands confined to one address is confined to it (`Confined.exec`).

Two addresses then do not see each other.  In every sequence of commands, those at one address get the
replies they get with the commands at other addresses left out: `Confined.isolated`.
-/

namespace Interaction

variable {C : Type} {R : C → Type} {σ A V : Type}

/-- The commands that `isAt` places at an address are confined to it. -/
structure Confined (isAt : A → C → Prop) (view : σ → A → V) (step : (c : C) → σ → R c × σ) : Prop where
  reply : ∀ {a c s s'}, isAt a c → view s a = view s' a → (step c s).1 = (step c s').1
  here : ∀ {a c s s'}, isAt a c → view s a = view s' a →
    view (step c s).2 a = view (step c s').2 a
  elsewhere : ∀ {a a' c} (s : σ), isAt a c → a' ≠ a → view (step c s).2 a' = view s a'

namespace Confined

variable {isAt : A → C → Prop} {view : σ → A → V} {step : (c : C) → σ → R c × σ}

/-- **Confined commands, by what they do to their own cell**: the reply and what is left there are
functions of what was there, and every other cell keeps its content. -/
theorem of_cell [DecidableEq A]
    (h : ∀ a c, isAt a c → ∃ (reply : V → R c) (next : V → V), ∀ s,
      (step c s).1 = reply (view s a) ∧
        ∀ a', view (step c s).2 a' = if a' = a then next (view s a') else view s a') :
    Confined isAt view step where
  reply := by
    intro a c s s' hat hview
    obtain ⟨reply, next, hcell⟩ := h a c hat
    rw [(hcell s).1, (hcell s').1, hview]
  here := by
    intro a c s s' hat hview
    obtain ⟨reply, next, hcell⟩ := h a c hat
    rw [(hcell s).2, (hcell s').2, if_pos rfl, if_pos rfl, hview]
  elsewhere := by
    intro a a' c s hat hne
    obtain ⟨reply, next, hcell⟩ := h a c hat
    rw [(hcell s).2, if_neg hne]

/-- A program of commands at one address gives the same result in states that agree there. -/
lemma exec_agrees (h : Confined isAt view step) {α : Type} {a : A} {p : Prog C R α}
    (hp : p.Only (isAt a)) {s s' : σ} (hview : view s a = view s' a) :
    (exec step p s).1 = (exec step p s').1
      ∧ view (exec step p s).2 a = view (exec step p s').2 a := by
  induction p generalizing s s' with
  | Ret x => exact ⟨rfl, hview⟩
  | Call c k ih =>
      have hreply := h.reply hp.1 hview
      rw [exec_call, exec_call, hreply]
      exact ih _ (hp.2 _) (h.here hp.1 hview)

/-- It leaves the other addresses as they were. -/
lemma exec_elsewhere (h : Confined isAt view step) {α : Type} {a a' : A} {p : Prog C R α}
    (hp : p.Only (isAt a)) (hne : a' ≠ a) (s : σ) : view (exec step p s).2 a' = view s a' := by
  induction p generalizing s with
  | Ret x => rfl
  | Call c k ih => rw [exec_call, ih _ (hp.2 _), h.elsewhere s hp.1 hne]

/-- **Programs of confined commands are confined.** -/
theorem exec (h : Confined isAt view step) {D : Type} {T : D → Type} {program : (d : D) → Prog C R (T d)}
    {isAt' : A → D → Prop} (hp : ∀ {a d}, isAt' a d → (program d).Only (isAt a)) :
    Confined isAt' view fun d => Interaction.exec step (program d) where
  reply hd hview := (h.exec_agrees (hp hd) hview).1
  here hd hview := (h.exec_agrees (hp hd) hview).2
  elsewhere s hd hne := h.exec_elsewhere (hp hd) hne s

/-- The commands at one address, in states that agree there: the same replies with and without the
commands at other addresses. -/
lemma replies_filter (h : Confined isAt view step) {a : A} {keep : C → Bool} {cs : List C}
    (hkeep : ∀ c ∈ cs, keep c = true → isAt a c)
    (hdrop : ∀ c ∈ cs, keep c = false → ∃ a', a ≠ a' ∧ isAt a' c) {s s' : σ}
    (hview : view s a = view s' a) :
    (replies step cs s).filter (fun ev => keep ev.1) = replies step (cs.filter keep) s' := by
  induction cs generalizing s s' with
  | nil => rfl
  | cons c rest ih =>
      have hkeep' : ∀ c' ∈ rest, keep c' = true → isAt a c' := by
        intro c' hc'
        exact hkeep c' (List.mem_cons_of_mem c hc')
      have hdrop' : ∀ c' ∈ rest, keep c' = false → ∃ a', a ≠ a' ∧ isAt a' c' := by
        intro c' hc'
        exact hdrop c' (List.mem_cons_of_mem c hc')
      cases hc : keep c with
      | true =>
          have hat := hkeep c List.mem_cons_self hc
          simp only [replies, List.filter_cons, hc, if_true]
          rw [h.reply hat hview, ih hkeep' hdrop' (h.here hat hview)]
      | false =>
          obtain ⟨a', hne, hat⟩ := hdrop c List.mem_cons_self hc
          have hsame : view (step c s).2 a = view s' a := (h.elsewhere s hat hne).trans hview
          simp only [replies, List.filter_cons, hc, Bool.false_eq_true, if_false]
          exact ih hkeep' hdrop' hsame

/-- **Isolation**: leaving out the commands at other addresses changes no reply at this one. -/
theorem isolated (h : Confined isAt view step) {a : A} {keep : C → Bool} {cs : List C}
    (hkeep : ∀ c ∈ cs, keep c = true → isAt a c)
    (hdrop : ∀ c ∈ cs, keep c = false → ∃ a', a ≠ a' ∧ isAt a' c) (s : σ) :
    (replies step cs s).filter (fun ev => keep ev.1) = replies step (cs.filter keep) s :=
  h.replies_filter hkeep hdrop rfl

end Confined

end Interaction
