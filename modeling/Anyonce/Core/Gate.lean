import Anyonce.Core.Guarded

/-!
# Gates

A program answers a request, and some of its calls act on behalf of it: they ask a store about an object, or they run
the request.  A gate stands before them.  It is passed when the calls and replies so far establish that the request is
genuine, and refused when one of the replies says that it is not.

**The rule of a gate** (`Gate.Rule`) is about one call after some calls and replies: it may act only where the gate has
been passed, and what it acts on is what the request names.  A program that keeps the rule, and never acts where it
was refused, is behind the gate at every moment (`Gate.Holds`).

* `Gate.holds_of` — the rule, and that a refusal excludes a passage, are all there is to show.
* `Gate.holds_of_runs` — what holds of the complete runs holds of every partial one.
-/

namespace Interaction

/-- **A gate**, over the calls of a program: `B` is what is read of a request, and `O` what a request names. -/
structure Gate (C : Type) (R : C → Type) (B O : Type) where
  /-- What a call acts on. -/
  operation : C → Option O
  /-- Whether a call runs the request. -/
  isRun : C → Bool
  /-- There is something to decide with whether a request is genuine. -/
  configured : Prop
  /-- The request is one that has to pass. -/
  listed : Prop
  /-- The calls and replies establish that a request with this content is genuine. -/
  Genuine : List (Event C R) → B → Prop
  /-- The content names this object. -/
  Names : List (Event C R) → B → O → Prop
  /-- A reply that says that the request is not genuine, or that it cannot be said. -/
  Refusal : Event C R → Prop

namespace Gate

variable {C : Type} {R : C → Type} {B O α : Type} (g : Gate C R B O)

/-- What may be done after which calls and replies. -/
structure Rule (t : List (Event C R)) (c : C) : Prop where
  /-- An object is acted on behind the gate only, and it is the one that the request names. -/
  operation : ∀ op, g.operation c = some op → g.configured ∧ g.listed ∧ ∃ body, g.Genuine t body ∧ g.Names t body op
  /-- The request runs behind the gate only, when it has to pass. -/
  run : g.isRun c = true → g.configured ∧ (g.listed → ∃ body, g.Genuine t body)

/-- Nothing was done for the request. -/
def Untouched (t : List (Event C R)) : Prop := ∀ e ∈ t, g.operation e.1 = none ∧ g.isRun e.1 = false

/-- **The program is behind the gate**: it keeps the rule at every moment, and after a refusal, or without anything to
decide with, nothing is done at all. -/
structure Holds (t : List (Event C R)) : Prop where
  rule : Everywhere g.Rule t
  refused : (∃ e ∈ t, g.Refusal e) → g.Untouched t
  unconfigured : ¬ g.configured → g.Untouched t

variable {g} {t t' : List (Event C R)}

/-- A call that neither acts on anything nor runs the request. -/
lemma rule_of_idle {c : C} (hop : g.operation c = none) (hrun : g.isRun c = false) : g.Rule t c where
  operation op h := by
    rw [hop] at h
    cases h
  run h := by
    rw [hrun] at h
    cases h

/-- A call that is made behind the gate, for what the request names. -/
lemma rule_of_genuine {c : C} {body : B} (hcfg : g.configured) (hlisted : g.listed) (hgenuine : g.Genuine t body)
    (hnames : ∀ op, g.operation c = some op → g.Names t body op) : g.Rule t c where
  operation op hop := ⟨hcfg, hlisted, body, hgenuine, hnames op hop⟩
  run _ := ⟨hcfg, fun _ => ⟨body, hgenuine⟩⟩

lemma Untouched.of_append (h : g.Untouched (t ++ t')) : g.Untouched t := fun e he => h e (List.mem_append_left t' he)

/-- What holds at the end held before. -/
lemma Holds.of_append (h : g.Holds (t ++ t')) : g.Holds t where
  rule := (everywhere_append_iff.mp h.rule).1
  refused := fun ⟨e, he, hrefusal⟩ => (h.refused ⟨e, List.mem_append_left t' he, hrefusal⟩).of_append
  unconfigured hno := (h.unconfigured hno).of_append

/-- **What has to be shown of a run**: it keeps the rule, and a refusal in it excludes that the request was found
genuine. -/
lemma holds_of (hmono : ∀ t₁ t₂ body, g.Genuine t₁ body → g.Genuine (t₁ ++ t₂) body) (hrule : Everywhere g.Rule t)
    (hrefused : (∃ e ∈ t, g.Refusal e) → g.listed ∧ ∀ body, ¬ g.Genuine t body) : g.Holds t := by
  -- whatever was done, was done behind the gate
  have huntouched : (g.configured → g.listed ∧ ∀ body, ¬ g.Genuine t body) → g.Untouched t := by
    intro hclosed e he
    obtain ⟨t₁, t₂, rfl⟩ := List.append_of_mem he
    have hdone := hrule t₁ e t₂ rfl
    constructor
    · rw [Option.eq_none_iff_forall_ne_some]
      intro op hop
      obtain ⟨hcfg, -, body, hgenuine, -⟩ := hdone.operation op hop
      exact (hclosed hcfg).2 body (hmono t₁ _ body hgenuine)
    · rw [← Bool.not_eq_true]
      intro hrun
      obtain ⟨hcfg, hpassed⟩ := hdone.run hrun
      obtain ⟨body, hgenuine⟩ := hpassed (hclosed hcfg).1
      exact (hclosed hcfg).2 body (hmono t₁ _ body hgenuine)
  exact ⟨hrule, fun h => huntouched fun _ => hrefused h, fun hno => huntouched fun hcfg => absurd hcfg hno⟩

/-- **A program whose complete runs are behind the gate is behind it at every moment.** -/
lemma holds_of_runs [∀ c, Nonempty (R c)] {p q : Prog C R α} (h : ∀ t a, Runs p t a → g.Holds t) (hs : Steps p t q) :
    g.Holds t := by
  obtain ⟨t', a, hrun⟩ := hs.exists_runs
  exact (h (t ++ t') a hrun).of_append

end Gate

end Interaction
