import Mathlib.Data.List.Basic
import Mathlib.Tactic.Common

/-!
# The first match in an order that may be any

A search that stops at its first match, over a collection that is listed in one order or another.  Which
match comes first is up to the order, so what the search says does not depend on it only when all matches
say the same.

* `find?_order_free_iff` — one search, under every two orders.
* `find?_agree_iff` — two searches with different ideas of a match, under every one order.
-/

namespace FirstMatch

variable {α β : Type} {p q : α → Bool} {l : List α} {a b : α}

/-- Any element may be listed first. -/
lemma exists_perm_cons (h : a ∈ l) : ∃ rest, (a :: rest).Perm l := by
  obtain ⟨s, t, rfl⟩ := List.append_of_mem h
  exact ⟨s ++ t, List.perm_middle.symm⟩

/-- **One search, under every two orders**: what is made of the first match is the same exactly when it
is the same for all matches. -/
theorem find?_order_free_iff (f : Option α → β) :
    (∀ l₁ l₂ : List α, l₁.Perm l → l₂.Perm l → f (l₁.find? p) = f (l₂.find? p)) ↔
      ∀ a ∈ l, ∀ b ∈ l, p a = true → p b = true → f (some a) = f (some b) := by
  constructor
  · intro h a ha b hb hpa hpb
    obtain ⟨s, hs⟩ := exists_perm_cons ha
    obtain ⟨t, ht⟩ := exists_perm_cons hb
    have hfree := h _ _ hs ht
    rwa [List.find?_cons_of_pos hpa, List.find?_cons_of_pos hpb] at hfree
  · intro h l₁ l₂ h₁ h₂
    cases hf₁ : l₁.find? p with
    | none =>
        have hnone : l₂.find? p = none := by
          rw [List.find?_eq_none] at hf₁ ⊢
          intro x hx
          exact hf₁ x ((h₂.trans h₁.symm).subset hx)
        rw [hnone]
    | some a =>
        cases hf₂ : l₂.find? p with
        | none =>
            have ha := (h₁.trans h₂.symm).subset (List.mem_of_find?_eq_some hf₁)
            exact absurd (List.find?_some hf₁) (List.find?_eq_none.mp hf₂ a ha)
        | some b =>
            exact h a (h₁.subset (List.mem_of_find?_eq_some hf₁)) b
              (h₂.subset (List.mem_of_find?_eq_some hf₂)) (List.find?_some hf₁) (List.find?_some hf₂)

/-- Two first matches that each are a match of the other search are one. -/
lemma eq_of_find? (hp : l.find? p = some a) (hq : l.find? q = some b) (hqa : q a = true)
    (hpb : p b = true) : a = b := by
  induction l with
  | nil => cases hp
  | cons u rest ih =>
      rw [List.find?_cons] at hp hq
      cases hpu : p u with
      | true =>
          simp only [hpu, Option.some.injEq] at hp
          subst hp
          rw [hqa] at hq
          exact Option.some.inj hq
      | false =>
          simp only [hpu] at hp
          cases hqu : q u with
          | true =>
              simp only [hqu, Option.some.injEq] at hq
              rw [hq, hpb] at hpu
              cases hpu
          | false =>
              simp only [hqu] at hq
              exact ih hp hq

/-- What is a match of one search only has to agree with every match of the other, and there is one. -/
lemma agree_of_only {R : Option α → Option α → Prop} (hleft : ∀ a, ¬ R (some a) none)
    (h : ∀ l' : List α, l'.Perm l → R (l'.find? p) (l'.find? q)) (ha : a ∈ l) (hpa : p a = true)
    (hqa : q a = false) : (∃ b ∈ l, q b = true) ∧ ∀ b ∈ l, q b = true → R (some a) (some b) := by
  obtain ⟨rest, hrest⟩ := exists_perm_cons ha
  have hfirst := h _ hrest
  rw [List.find?_cons_of_pos hpa, List.find?_cons_of_neg (by simp [hqa])] at hfirst
  refine ⟨?_, ?_⟩
  · cases hfound : rest.find? q with
    | none =>
        rw [hfound] at hfirst
        exact absurd hfirst (hleft a)
    | some b =>
        exact ⟨b, hrest.subset (List.mem_cons_of_mem a (List.mem_of_find?_eq_some hfound)),
          List.find?_some hfound⟩
  · intro b hb hqb
    have hmem : b ∈ rest := by
      rcases List.mem_cons.mp (hrest.symm.subset hb) with rfl | hmem
      · rw [hqb] at hqa
        cases hqa
      · exact hmem
    obtain ⟨rest', hrest'⟩ := exists_perm_cons hmem
    have hsecond := h (a :: b :: rest') ((hrest'.cons a).trans hrest)
    rwa [List.find?_cons_of_pos hpa, List.find?_cons_of_neg (by simp [hqa]),
      List.find?_cons_of_pos hqb] at hsecond

/-- **Two searches, under every one order**: they agree exactly when a match of both agrees with itself,
and a match of one only with every match of the other, of which there is one. -/
theorem find?_agree_iff {R : Option α → Option α → Prop} (hnone : R none none)
    (hleft : ∀ a, ¬ R (some a) none) (hright : ∀ b, ¬ R none (some b)) :
    (∀ l' : List α, l'.Perm l → R (l'.find? p) (l'.find? q)) ↔
      (∀ a ∈ l, p a = true → q a = true → R (some a) (some a))
        ∧ (∀ a ∈ l, p a = true → q a = false →
            (∃ b ∈ l, q b = true) ∧ ∀ b ∈ l, q b = true → R (some a) (some b))
        ∧ ∀ b ∈ l, q b = true → p b = false →
            (∃ a ∈ l, p a = true) ∧ ∀ a ∈ l, p a = true → R (some a) (some b) := by
  constructor
  · intro h
    refine ⟨?_, fun a ha => agree_of_only hleft h ha, ?_⟩
    · intro a ha hpa hqa
      obtain ⟨rest, hrest⟩ := exists_perm_cons ha
      have hfirst := h _ hrest
      rwa [List.find?_cons_of_pos hpa, List.find?_cons_of_pos hqa] at hfirst
    · intro b hb
      exact agree_of_only (R := fun x y => R y x) hright h hb
  · rintro ⟨hboth, honly, honly'⟩ l' hl'
    cases hp : l'.find? p with
    | none =>
        cases hq : l'.find? q with
        | none => exact hnone
        | some b =>
            have hb := List.mem_of_find?_eq_some hq
            have hpb : p b = false := by simpa using List.find?_eq_none.mp hp b hb
            obtain ⟨⟨a, ha, hpa⟩, -⟩ := honly' b (hl'.subset hb) (List.find?_some hq) hpb
            exact absurd hpa (List.find?_eq_none.mp hp a (hl'.symm.subset ha))
    | some a =>
        have ha := List.mem_of_find?_eq_some hp
        cases hq : l'.find? q with
        | none =>
            have hqa : q a = false := by simpa using List.find?_eq_none.mp hq a ha
            obtain ⟨⟨b, hb, hqb⟩, -⟩ := honly a (hl'.subset ha) (List.find?_some hp) hqa
            exact absurd hqb (List.find?_eq_none.mp hq b (hl'.symm.subset hb))
        | some b =>
            have hb := List.mem_of_find?_eq_some hq
            cases hqa : q a with
            | false =>
                exact (honly a (hl'.subset ha) (List.find?_some hp) hqa).2 b (hl'.subset hb)
                  (List.find?_some hq)
            | true =>
                cases hpb : p b with
                | false =>
                    exact (honly' b (hl'.subset hb) (List.find?_some hq) hpb).2 a (hl'.subset ha)
                      (List.find?_some hp)
                | true =>
                    rw [eq_of_find? hp hq hqa hpb]
                    exact hboth b (hl'.subset hb) hpb (List.find?_some hq)

end FirstMatch
