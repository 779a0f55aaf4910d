import Mathlib.Data.List.Basic
import Mathlib.Tactic.Common

/-!
# Texts joined with a separator

Two texts with a separator between them, or one text alone, and what can be told of them from the joined
text.  Nothing is escaped.

* `splitFirst` — the text cut at its first separator; `splitFirst_append_iff` says when that undoes a join.
* `join_eq_iff` — two joins give one text only when the first parts are the same, or one goes on after a
  separator into what follows the other.
-/

namespace Separator

variable {α : Type} [DecidableEq α] {sep : α} {a a' b b' : List α}

/-! ## Cutting at the first separator -/

/-- The text before the first separator and the text after it; all of it and nothing when there is none. -/
def splitFirst (sep : α) (text : List α) : List α × List α :=
  match text.idxOf? sep with
  | none => (text, [])
  | some i => (text.take i, text.drop (i + 1))

lemma idxOf?_append (ha : sep ∉ a) (b : List α) : (a ++ sep :: b).idxOf? sep = some a.length := by
  induction a with
  | nil => simp [List.idxOf?_cons]
  | cons u rest ih =>
      rw [List.mem_cons, not_or] at ha
      rw [List.cons_append, List.idxOf?_cons, ih ha.2]
      simp [Ne.symm ha.1]

lemma splitFirst_append (ha : sep ∉ a) (b : List α) : splitFirst sep (a ++ sep :: b) = (a, b) := by
  rw [splitFirst, idxOf?_append ha]
  simp

lemma not_mem_take {text : List α} {i : ℕ} (h : text.idxOf? sep = some i) : sep ∉ text.take i := by
  induction text generalizing i with
  | nil => simp
  | cons u rest ih =>
      rw [List.idxOf?_cons] at h
      by_cases hu : u = sep
      · obtain rfl : i = 0 := by simpa [hu, eq_comm] using h
        simp
      · rw [if_neg (by simpa using hu)] at h
        obtain ⟨j, hj, rfl⟩ := Option.map_eq_some_iff.mp h
        rw [List.take_succ_cons, List.mem_cons, not_or]
        exact ⟨Ne.symm hu, ih hj⟩

/-- What stands before the first separator has none. -/
lemma not_mem_splitFirst (text : List α) : sep ∉ (splitFirst sep text).1 := by
  rw [splitFirst]
  cases h : text.idxOf? sep with
  | none => simpa using h
  | some i => exact not_mem_take h

/-- **The first separator undoes a join** exactly when the first part has none. -/
lemma splitFirst_append_iff : splitFirst sep (a ++ sep :: b) = (a, b) ↔ sep ∉ a := by
  constructor
  · intro h
    have hnot : sep ∉ (splitFirst sep (a ++ sep :: b)).1 := not_mem_splitFirst _
    rwa [h] at hnot
  · exact fun ha => splitFirst_append ha b

lemma append_inj (ha : sep ∉ a) (ha' : sep ∉ a') (h : a ++ sep :: b = a' ++ sep :: b') :
    a = a' ∧ b = b' := by
  have hsplit := splitFirst_append ha b
  rw [h, splitFirst_append ha' b'] at hsplit
  exact ⟨(Prod.mk.inj hsplit).1.symm, (Prod.mk.inj hsplit).2.symm⟩

/-! ## One or two parts -/

omit [DecidableEq α]

/-- The first part, and the second one after a separator when there is one. -/
def join (sep : α) (p : List α × Option (List α)) : List α :=
  match p.2 with
  | none => p.1
  | some b => p.1 ++ sep :: b

/-- A second part that says something: an empty one counts as none. -/
def given (second : Option (List α)) : Option (List α) := second.filter fun b => !b.isEmpty

@[simp] lemma given_none : given (none : Option (List α)) = none := rfl

@[simp] lemma given_nil : given (some ([] : List α)) = none := rfl

lemma given_of_ne {b : List α} (hb : b ≠ []) : given (some b) = some b := by
  simp [given, Option.filter, hb]

/-- The first part of `q` goes on, after that of `p` and a separator, into what `p` has as its second. -/
def Straddles (sep : α) (p q : List α × Option (List α)) : Prop :=
  ∃ middle, q.1 = p.1 ++ sep :: middle ∧ p.2 = some (join sep (middle, q.2))

@[simp] lemma join_append (second : Option (List α)) :
    join sep (a ++ b, second) = a ++ join sep (b, second) := by
  cases second <;> simp [join]

@[simp] lemma join_cons (u : α) (second : Option (List α)) :
    join sep (u :: b, second) = u :: join sep (b, second) := by
  cases second <;> simp [join]

lemma Straddles.join_eq {p q : List α × Option (List α)} (h : Straddles sep p q) :
    join sep p = join sep q := by
  obtain ⟨middle, hfirst, hsecond⟩ := h
  obtain ⟨a, second⟩ := p
  obtain ⟨a', second'⟩ := q
  obtain rfl : a' = a ++ sep :: middle := hfirst
  obtain rfl : second = some (join sep (middle, second')) := hsecond
  rw [join_append, join_cons]
  rfl

/-- One part and one more: the texts are equal, or the first one goes on into the other's second part. -/
lemma append_eq_join (p : List α × Option (List α)) :
    join sep p = a ++ sep :: b ↔ p = (a, some b) ∨ Straddles sep (a, some b) p
      ∨ Straddles sep p (a, some b) := by
  constructor
  · intro h
    obtain ⟨a', second⟩ := p
    cases second with
    | none =>
        obtain rfl : a' = a ++ sep :: b := h
        exact Or.inr (Or.inl ⟨b, rfl, rfl⟩)
    | some b' =>
        rcases List.append_eq_append_iff.mp (show a' ++ sep :: b' = a ++ sep :: b from h) with
          ⟨c, ha, hb⟩ | ⟨c, ha, hb⟩
        · cases c with
          | nil =>
              left
              simp only [List.append_nil, List.nil_append, List.cons.injEq, true_and] at ha hb
              rw [ha, hb]
          | cons u middle =>
              simp only [List.cons_append, List.cons.injEq] at hb
              obtain ⟨rfl, rfl⟩ := hb
              exact Or.inr (Or.inr ⟨middle, ha, rfl⟩)
        · cases c with
          | nil =>
              left
              simp only [List.append_nil, List.nil_append, List.cons.injEq, true_and] at ha hb
              rw [ha, hb]
          | cons u middle =>
              simp only [List.cons_append, List.cons.injEq] at hb
              obtain ⟨rfl, rfl⟩ := hb
              exact Or.inr (Or.inl ⟨middle, ha, rfl⟩)
  · rintro (rfl | h | h)
    · rfl
    · exact h.join_eq.symm
    · exact h.join_eq

/-- **When two joins give one text.** -/
lemma join_eq_iff (p q : List α × Option (List α)) :
    join sep p = join sep q ↔ p = q ∨ Straddles sep p q ∨ Straddles sep q p := by
  obtain ⟨a, second⟩ := q
  cases second with
  | none =>
      constructor
      · intro h
        obtain ⟨a', second⟩ := p
        cases second with
        | none => exact Or.inl (congrArg (·, none) h)
        | some b => exact Or.inr (Or.inl ⟨b, h.symm, rfl⟩)
      · rintro (rfl | h | h)
        · rfl
        · exact h.join_eq
        · exact h.join_eq.symm
  | some b =>
      rw [show join sep (a, some b) = a ++ sep :: b from rfl, append_eq_join]
      exact or_congr_right or_comm

/-- Pairs with one first part do not straddle each other. -/
lemma not_straddles_of_fst_eq {p q : List α × Option (List α)} (h : p.1 = q.1) :
    ¬ Straddles sep p q := by
  rintro ⟨middle, hfirst, -⟩
  rw [← h] at hfirst
  simp at hfirst

/-- Different pairs keep different texts exactly when neither goes on into the other. -/
lemma join_ne_iff {p q : List α × Option (List α)} (h : p ≠ q) :
    join sep p ≠ join sep q ↔ ¬ Straddles sep p q ∧ ¬ Straddles sep q p := by
  rw [Ne, join_eq_iff, not_or, not_or]
  exact and_iff_right h

/-- First parts without a separator are told apart from what follows them. -/
lemma join_inj {p q : List α × Option (List α)} (hp : sep ∉ p.1) (hq : sep ∉ q.1)
    (h : join sep p = join sep q) : p = q := by
  rcases (join_eq_iff p q).mp h with rfl | ⟨middle, hfirst, -⟩ | ⟨middle, hfirst, -⟩
  · rfl
  · exact absurd (by rw [hfirst]; simp) hq
  · exact absurd (by rw [hfirst]; simp) hp

/-- Three parts: what comes before the first of one separator, and two parts joined with another. -/
lemma append_join_inj {u : α} [DecidableEq α] {p q : List α × Option (List α)} (ha : u ∉ a)
    (ha' : u ∉ a') (hp : sep ∉ p.1) (hq : sep ∉ q.1)
    (h : a ++ u :: join sep p = a' ++ u :: join sep q) : a = a' ∧ p = q := by
  obtain ⟨rfl, hjoin⟩ := append_inj ha ha' h
  exact ⟨rfl, join_inj hp hq hjoin⟩

end Separator
