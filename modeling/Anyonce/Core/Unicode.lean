import Mathlib.Data.List.DropRight
import Mathlib.Tactic.Common

/-!
# Unicode text in two encodings

A well-formed Unicode text is a list of `Char`, which in Lean are the Unicode scalar values.  `utf16`
is its encoding in UTF-16 code units, what a JavaScript string holds; `utf8` its encoding in bytes,
what a Go string holds.

The two agree on ASCII (`utf16Char_ascii`, `utf8Char_ascii`), where a character is one unit with the
character's own number, and every unit of any other character lies above ASCII in both
(`utf16Char_wide`, `utf8Char_wide`).  Programs that only look at ASCII units therefore do the same on
both encodings; `trim_flatMap` is the case of stripping such units from the two ends of a text.
-/

namespace Unicode

/-- The UTF-16 code units of one character. -/
def utf16Char (c : Char) : List UInt16 :=
  if c.toNat < 0x10000 then [UInt16.ofNat c.toNat]
  else
    [UInt16.ofNat (0xD800 + (c.toNat - 0x10000) / 0x400),
      UInt16.ofNat (0xDC00 + (c.toNat - 0x10000) % 0x400)]

/-- The UTF-16 code units of a text. -/
def utf16 (cs : List Char) : List UInt16 := cs.flatMap utf16Char

/-- The UTF-8 bytes of one character. -/
def utf8Char (c : Char) : List UInt8 := String.utf8EncodeChar c

/-- The UTF-8 bytes of a text. -/
def utf8 (cs : List Char) : List UInt8 := cs.flatMap utf8Char

@[simp] lemma utf16_nil : utf16 [] = [] := rfl

@[simp] lemma utf16_cons (c : Char) (cs : List Char) : utf16 (c :: cs) = utf16Char c ++ utf16 cs :=
  rfl

@[simp] lemma utf16_append (cs ds : List Char) : utf16 (cs ++ ds) = utf16 cs ++ utf16 ds := by
  simp [utf16]

@[simp] lemma utf8_nil : utf8 [] = [] := rfl

@[simp] lemma utf8_cons (c : Char) (cs : List Char) : utf8 (c :: cs) = utf8Char c ++ utf8 cs := rfl

@[simp] lemma utf8_append (cs ds : List Char) : utf8 (cs ++ ds) = utf8 cs ++ utf8 ds := by
  simp [utf8]

/-! ## ASCII and the rest -/

lemma utf16Char_ascii {c : Char} (h : c.toNat < 0x80) : utf16Char c = [UInt16.ofNat c.toNat] := by
  have hlt : c.toNat < 0x10000 := by omega
  simp [utf16Char, hlt]

lemma utf8Char_ascii {c : Char} (h : c.toNat < 0x80) : utf8Char c = [UInt8.ofNat c.toNat] := by
  have hle : c.val.toNat ≤ 0x7f := Nat.le_of_lt_succ h
  rw [utf8Char, String.utf8EncodeChar]
  exact if_pos hle

lemma utf16Char_ne_nil (c : Char) : utf16Char c ≠ [] := by
  unfold utf16Char
  split_ifs <;> simp

lemma utf8Char_ne_nil (c : Char) : utf8Char c ≠ [] := String.utf8EncodeChar_ne_nil

/-- A character is no larger than the last code point. -/
lemma toNat_lt (c : Char) : c.toNat < 0x110000 := by
  rcases c.valid with h | h
  · exact lt_trans h (by decide)
  · exact h.2

lemma utf16Char_wide {c : Char} (h : 0x80 ≤ c.toNat) : ∀ u ∈ utf16Char c, 0x80 ≤ u.toNat := by
  have hc := toNat_lt c
  unfold utf16Char
  split_ifs with hlt
  · simp only [List.mem_singleton, forall_eq, UInt16.toNat_ofNat']
    omega
  · intro u hu
    simp only [List.mem_cons, List.not_mem_nil, or_false] at hu
    rcases hu with rfl | rfl <;> simp only [UInt16.toNat_ofNat'] <;> omega

lemma utf8Char_wide {c : Char} (h : 0x80 ≤ c.toNat) : ∀ u ∈ utf8Char c, 0x80 ≤ u.toNat := by
  have hne : ¬ c.val.toNat ≤ 0x7f := Nat.not_le_of_lt h
  intro u hu
  simp only [utf8Char, String.utf8EncodeChar, if_neg hne] at hu
  split_ifs at hu <;>
    simp only [List.mem_cons, List.not_mem_nil, or_false] at hu <;>
    rcases hu with rfl | rfl | rfl | rfl | rfl <;>
    simp only [UInt8.toNat_ofNat'] <;> omega

/-! ## Stripping both ends -/

/-- The text without the units of a kind it begins and ends with. -/
def trim {α : Type} (p : α → Bool) (text : List α) : List α := (text.dropWhile p).rdropWhile p

/-- The core of a text: what is left of it between units of a kind at its two ends. -/
structure Stripped {α : Type} (p : α → Bool) (text core : List α) : Prop where
  split : ∃ lead trail, text = lead ++ core ++ trail ∧ (∀ u ∈ lead, p u) ∧ ∀ u ∈ trail, p u
  first : ∀ u ∈ core.head?, ¬ p u
  last : ∀ u ∈ core.getLast?, ¬ p u

section Trim

variable {α β : Type} {p : α → Bool} {q : β → Bool}

lemma dropWhile_append_of_head {lead rest : List α} (hlead : ∀ u ∈ lead, p u)
    (hrest : ∀ u ∈ rest.head?, ¬ p u) : (lead ++ rest).dropWhile p = rest := by
  rw [List.dropWhile_append_of_pos hlead]
  cases rest with
  | nil => rfl
  | cons u rest => simpa using hrest u (by simp)

lemma rdropWhile_append_of_getLast {rest trail : List α} (hrest : ∀ u ∈ rest.getLast?, ¬ p u)
    (htrail : ∀ u ∈ trail, p u) : (rest ++ trail).rdropWhile p = rest := by
  rw [List.rdropWhile, List.reverse_append, dropWhile_append_of_head, List.reverse_reverse]
  · simpa using htrail
  · simpa using hrest

/-- What is all of the kind is stripped to nothing. -/
lemma trim_eq_nil {text : List α} (h : ∀ u ∈ text, p u) : trim p text = [] := by
  rw [trim, List.dropWhile_eq_nil_iff.mpr h, List.rdropWhile_nil]

/-- **`trim` finds the core**, and there is only one. -/
lemma trim_eq_iff {text core : List α} : trim p text = core ↔ Stripped p text core := by
  constructor
  · rintro rfl
    refine ⟨⟨text.takeWhile p, (text.dropWhile p).rtakeWhile p, ?_, ?_, ?_⟩, ?_, ?_⟩
    · rw [trim, List.append_assoc, List.rdropWhile_append_rtakeWhile,
        List.takeWhile_append_dropWhile]
    · intro u hu
      exact List.mem_takeWhile_imp hu
    · intro u hu
      exact List.mem_rtakeWhile_imp hu
    · intro u hu
      obtain ⟨rest, hrest⟩ := List.rdropWhile_prefix p (l := text.dropWhile p)
      have hhead : (text.dropWhile p).head? = some u := by
        rw [← hrest, List.head?_append_of_ne_nil]
        · exact hu
        · rintro hnil
          rw [trim, hnil] at hu
          cases hu
      have hdrop := List.head?_dropWhile_not p text
      rw [hhead] at hdrop
      simpa using hdrop
    · intro u hu
      have hne : trim p text ≠ [] := by
        intro hnil
        rw [hnil] at hu
        cases hu
      rw [List.getLast?_eq_some_getLast hne] at hu
      cases hu
      exact List.rdropWhile_last_not p _ hne
  · rintro ⟨⟨lead, trail, rfl, hlead, htrail⟩, hfirst, hlast⟩
    cases core with
    | nil =>
        apply trim_eq_nil
        simpa [or_imp, forall_and] using ⟨hlead, htrail⟩
    | cons u rest =>
        rw [trim, List.append_assoc, dropWhile_append_of_head hlead (by simpa using hfirst),
          rdropWhile_append_of_getLast hlast htrail]

variable {enc : α → List β}

lemma dropWhile_flatMap (hpos : ∀ c, p c → ∃ u, enc c = [u] ∧ q u)
    (hneg : ∀ c, ¬ p c → enc c ≠ [] ∧ ∀ u ∈ enc c, ¬ q u) (cs : List α) :
    (cs.flatMap enc).dropWhile q = (cs.dropWhile p).flatMap enc := by
  induction cs with
  | nil => rfl
  | cons c cs ih =>
      by_cases hc : p c
      · obtain ⟨u, hu, hq⟩ := hpos c hc
        simp [List.flatMap_cons, hu, hq, hc, ih]
      · obtain ⟨hne, hq⟩ := hneg c hc
        obtain ⟨u, us, hu⟩ := List.exists_cons_of_ne_nil hne
        have hqu : ¬ q u := hq u (by simp [hu])
        simp [List.flatMap_cons, hu, hqu, hc]

/-- **Stripping before or after an encoding** is the same, when the encoding writes the characters to
be stripped as one unit to be stripped, and the others without such units. -/
lemma trim_flatMap (hpos : ∀ c, p c → ∃ u, enc c = [u] ∧ q u)
    (hneg : ∀ c, ¬ p c → enc c ≠ [] ∧ ∀ u ∈ enc c, ¬ q u) (cs : List α) :
    trim q (cs.flatMap enc) = (trim p cs).flatMap enc := by
  have hpos' : ∀ c, p c → ∃ u, (List.reverse ∘ enc) c = [u] ∧ q u := by
    intro c hc
    obtain ⟨u, hu, hq⟩ := hpos c hc
    exact ⟨u, by simp [hu], hq⟩
  have hneg' : ∀ c, ¬ p c → (List.reverse ∘ enc) c ≠ [] ∧ ∀ u ∈ (List.reverse ∘ enc) c, ¬ q u := by
    intro c hc
    simpa using hneg c hc
  rw [trim, dropWhile_flatMap hpos hneg, List.rdropWhile, List.reverse_flatMap,
    dropWhile_flatMap hpos' hneg', trim, List.rdropWhile]
  simp [List.reverse_flatMap, Function.comp_def]

end Trim

end Unicode
