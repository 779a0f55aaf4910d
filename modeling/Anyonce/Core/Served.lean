import Anyonce.Core.Interleaving
import Mathlib.Data.List.Nodup

/-!
# Calls that are served by one request

A call of an interface is a program over the requests of a shared object.  Often it sends a single request that touches
the object; then the order in which the requests are served is an order of the calls, whatever else is interleaved.

**What has to be shown of a call** (`Service.Awaits`) is about one request against one state: when the object is in step
with an abstract machine, the reply makes the call return what the machine returns, and the object stays in step.

* `Service.InStep` — the run so far, against the machine after the calls that were served.
* `Service.inStep_of_interleave` — **every interleaving of such calls is in step**.
-/

namespace Interaction

open Prog (Ret)

/-- **A service**: an object and its requests, and the machine that the calls are compared with. -/
structure Service (C : Type) (R : C → Type) (Call : Type) (Res : Call → Type) (σ μ : Type) where
  /-- Whether a command is a request to the object. -/
  isRequest : C → Bool
  /-- In this state the command may be answered so, and leaves that state. -/
  serves : σ → (c : C) → R c → σ → Prop
  machine : (c : Call) → μ → Res c × μ
  /-- The object is in step with the machine. -/
  mirrors : μ → σ → Prop
  /-- What is to hold of every command and its reply. -/
  Seen : Event C R → Prop

namespace Service

variable {C Call ι σ μ : Type} {R : C → Type} {Res : Call → Type} (S : Service C R Call Res σ μ)

/-- The object, shared by callers `ι`. -/
def obj (s : σ) (p : ι × C) (r : Tagged ι R p) (s' : σ) : Prop := S.serves s p.2 r s'

/-- The callers whose requests were served, in the order in which they were. -/
def servedBy (h : List (Entry (ι × C) (Tagged ι R) σ)) : List ι :=
  h.filterMap fun e => if S.isRequest e.cmd.2 then some e.cmd.1 else none

/-- What is left of a call whose request has not been served. -/
inductive Awaits (call : Call) : Prog C R ((c : Call) × Res c) → Prop
  | idle {c : C} {k : R c → Prog C R ((c : Call) × Res c)} (hc : S.isRequest c = false)
      (hidle : ∀ s r s', S.serves s c r s' → S.Seen ⟨c, r⟩ ∧ s' = s) (hk : ∀ r, Awaits call (k r)) : Awaits call (.Call c k)
  | request {c : C} {k : R c → Prog C R ((c : Call) × Res c)} (hc : S.isRequest c = true)
      (hserved : ∀ m s r s', S.mirrors m s → S.serves s c r s' →
        S.Seen ⟨c, r⟩ ∧ k r = Ret ⟨call, (S.machine call m).1⟩ ∧ S.mirrors (S.machine call m).2 s') : Awaits call (.Call c k)

/-- **The run so far**: the object is in step with the machine after the calls that were served, in their order; a call
that was served has returned what the machine returned, and the others wait. -/
structure InStep (calls : ι → Call) (m₀ : μ) (cfg : Config ι C R ((c : Call) × Res c) σ) : Prop where
  mirrors : S.mirrors (after S.machine ((S.servedBy cfg.history).map calls) m₀) cfg.state
  nodup : (S.servedBy cfg.history).Nodup
  awaits : ∀ i ∉ S.servedBy cfg.history, S.Awaits (calls i) (cfg.pool i)
  returned : (S.servedBy cfg.history).map cfg.pool = (replies S.machine ((S.servedBy cfg.history).map calls) m₀).map Ret
  seen : ∀ e ∈ cfg.history, S.Seen e.event

variable {S} {calls : ι → Call} {m₀ : μ}

/-- A call that waits has not returned. -/
lemma Awaits.not_ret {call : Call} {r : (c : Call) × Res c} : ¬ S.Awaits call (Ret r) := nofun

lemma servedBy_snoc (h : List (Entry (ι × C) (Tagged ι R) σ)) (s s' : σ) (i : ι) (c : C) (r : R c) :
    S.servedBy (h ++ [⟨s, (i, c), r, s'⟩]) = S.servedBy h ++ if S.isRequest c then [i] else [] := by
  rw [servedBy, List.filterMap_append]
  cases hc : S.isRequest c <;> simp [servedBy, hc]

variable {cfg : Config ι C R ((c : Call) × Res c) σ}

/-- A caller that makes a step was not served. -/
lemma InStep.not_served (h : S.InStep calls m₀ cfg) {i : ι} {c : C} {k : R c → Prog C R ((c : Call) × Res c)}
    (hpool : cfg.pool i = .Call c k) : i ∉ S.servedBy cfg.history := by
  intro hmem
  have hret : cfg.pool i ∈ (replies S.machine ((S.servedBy cfg.history).map calls) m₀).map Ret := by
    rw [← h.returned]
    exact List.mem_map_of_mem hmem
  obtain ⟨r, -, hr⟩ := List.mem_map.mp hret
  rw [hpool] at hr
  cases hr

variable [DecidableEq ι]

/-- **One step keeps the run in step.** -/
lemma InStep.step (h : S.InStep calls m₀ cfg) {i : ι} {c : C} {k : R c → Prog C R ((c : Call) × Res c)}
    (hpool : cfg.pool i = .Call c k) {r : R c} {s' : σ} (hserves : S.serves cfg.state c r s') :
    S.InStep calls m₀ ⟨s', fun j => if j = i then k r else cfg.pool j, cfg.history ++ [⟨cfg.state, (i, c), r, s'⟩]⟩ := by
  have hnot := h.not_served hpool
  have hawaits := h.awaits i hnot
  rw [hpool] at hawaits
  -- the callers that were served are where they were
  have hothers : (S.servedBy cfg.history).map (fun j => if j = i then k r else cfg.pool j)
      = (S.servedBy cfg.history).map cfg.pool := by
    refine List.map_congr_left fun j hj => if_neg ?_
    rintro rfl
    exact hnot hj
  have hseen : ∀ {e : Event C R}, e = ⟨c, r⟩ → S.Seen e → ∀ e ∈ cfg.history ++ [⟨cfg.state, (i, c), r, s'⟩], S.Seen e.event := by
    rintro _ rfl hlast e he
    rcases List.mem_append.mp he with he | he
    · exact h.seen e he
    · rw [List.mem_singleton.mp he]
      exact hlast
  cases hawaits with
  | idle hc hidle hk =>
      obtain ⟨hlast, rfl⟩ := hidle _ _ _ hserves
      have hserved := servedBy_snoc (S := S) cfg.history cfg.state cfg.state i c r
      rw [hc, if_neg Bool.false_ne_true, List.append_nil] at hserved
      constructor
      · rw [hserved]
        exact h.mirrors
      · rw [hserved]
        exact h.nodup
      · rw [hserved]
        intro j hj
        by_cases hji : j = i
        · subst hji
          simpa using hk r
        · simpa [hji] using h.awaits j hj
      · rw [hserved]
        exact hothers.trans h.returned
      · exact hseen rfl hlast
  | request hc hrequest =>
      obtain ⟨hlast, hret, hmirrors⟩ := hrequest _ _ _ _ h.mirrors hserves
      have hserved := servedBy_snoc (S := S) cfg.history cfg.state s' i c r
      rw [hc, if_pos rfl] at hserved
      constructor
      · rw [hserved, List.map_append, after_append]
        exact hmirrors
      · rw [hserved]
        exact List.nodup_append.mpr ⟨h.nodup, List.nodup_singleton i,
          fun a ha b hb hab => hnot (List.mem_singleton.mp hb ▸ hab ▸ ha)⟩
      · rw [hserved]
        intro j hj
        rw [List.mem_append, not_or, List.mem_singleton] at hj
        simpa [hj.2] using h.awaits j hj.1
      · rw [hserved, List.map_append, List.map_append, replies_append, List.map_append, hothers, h.returned]
        congr 1
        simp only [List.map_cons, List.map_nil, if_true, hret]
        rfl
      · exact hseen rfl hlast

/-- **Every interleaving of calls that are served by one request is in step.** -/
theorem inStep_of_interleave {s₀ : σ} {start : ι → Prog C R ((c : Call) × Res c)} (hm₀ : S.mirrors m₀ s₀)
    (hstart : ∀ i, S.Awaits (calls i) (start i)) (h : Interleave (fun _ _ _ => True) S.obj s₀ start cfg) :
    S.InStep calls m₀ cfg := by
  induction h with
  | start => exact ⟨hm₀, List.nodup_nil, fun i _ => hstart i, rfl, by simp⟩
  | step i c k r s' _ hpool _ hserves ih => exact ih.step hpool hserves

end Service

end Interaction
