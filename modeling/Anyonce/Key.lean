import Anyonce.Types

/-!
# Keys

`validateKey` of `packages/core/src/key.ts`.  What the stores rely on is `validateKey_units`: an
admitted key consists of printable ASCII and spaces, so it contains none of the separators (NUL,
unit separator) the stores join a scope and a key with.
-/

namespace Anyonce

/-- The longest key, in bytes of UTF-8. -/
def maxKeyBytes : ℕ := 255

/-- Whether a text is a key, and why not. -/
inductive KeyValidation
  | Ok
  | Fail (reason : String)
  deriving DecidableEq

/-- The loop over the key's code units, from index `i`. -/
def validateUnits (allowSpace : Bool) : JsString → ℕ → KeyValidation
  | [], _ => .Ok
  | code :: rest, i =>
      if code = 0x20 ∧ allowSpace then validateUnits allowSpace rest (i + 1)
      else if code < 0x21 ∨ code > 0x7e then
        .Fail s!"key contains a character outside printable ASCII at index {i}"
      else validateUnits allowSpace rest (i + 1)

/-- REQ-CORE-2: 1 to 255 bytes of printable ASCII (0x21..0x7E); space (0x20) only when the key came
from an sf-string. -/
def validateKey (key : JsString) (allowSpace : Bool := false) : KeyValidation :=
  if key.length = 0 then .Fail "key is empty"
  else
    match validateUnits allowSpace key 0 with
    | .Fail reason => .Fail reason
    | .Ok =>
        if key.length > maxKeyBytes then .Fail s!"key exceeds {maxKeyBytes} bytes"
        else .Ok

lemma validateUnits_units {allowSpace : Bool} :
    ∀ {key : JsString} {i : ℕ}, validateUnits allowSpace key i = .Ok →
      ∀ code ∈ key, 0x20 ≤ code ∧ code ≤ 0x7e
  | [], _, _ => by simp
  | unit :: rest, i, h => by
      rw [validateUnits] at h
      have hunit : 0x20 ≤ unit ∧ unit ≤ 0x7e := by
        split_ifs at h with hs hr
        · rw [hs.1]
          decide
        · rw [not_or] at hr
          exact ⟨UInt16.le_trans (by decide) (UInt16.not_lt.mp hr.1), UInt16.not_lt.mp hr.2⟩
      have hrest : validateUnits allowSpace rest (i + 1) = .Ok := by
        split_ifs at h with hs hr
        · exact h
        · exact h
      intro code hcode
      rcases List.mem_cons.mp hcode with rfl | hcode
      · exact hunit
      · exact validateUnits_units hrest code hcode

/-- Every code unit of an admitted key is printable ASCII or a space. -/
lemma validateKey_units {key : JsString} {allowSpace : Bool}
    (h : validateKey key allowSpace = .Ok) : ∀ code ∈ key, 0x20 ≤ code ∧ code ≤ 0x7e := by
  cases hu : validateUnits allowSpace key 0 with
  | Ok => exact validateUnits_units hu
  | Fail reason =>
      rw [validateKey, hu] at h
      split_ifs at h

/-- An admitted key contains no code unit below a space: not NUL, not the unit separator. -/
lemma not_mem_of_validateKey {key : JsString} {allowSpace : Bool}
    (h : validateKey key allowSpace = .Ok) {sep : UInt16} (hsep : sep < 0x20) : sep ∉ key := by
  intro hmem
  exact absurd (validateKey_units h sep hmem).1 (UInt16.not_le.mpr hsep)

/-- A key without the separators that the stores join a scope and a key with. -/
def Separated (key : JsString) : Prop := 0x00 ∉ key ∧ 0x1f ∉ key

instance (key : JsString) : Decidable (Separated key) := inferInstanceAs (Decidable (_ ∧ _))

/-- The keys every door admits are such keys. -/
lemma separated_of_validateKey {key : JsString} {allowSpace : Bool}
    (h : validateKey key allowSpace = .Ok) : Separated key :=
  ⟨not_mem_of_validateKey h (by decide), not_mem_of_validateKey h (by decide)⟩

/-- Joining a scope and a key with a separator the key does not contain loses nothing, whatever the
scope contains. -/
lemma append_separator_inj {α : Type} {sep : α} {scope scope' key key' : List α}
    (hkey : sep ∉ key) (hkey' : sep ∉ key')
    (h : scope ++ sep :: key = scope' ++ sep :: key') : scope = scope' ∧ key = key' := by
  induction scope generalizing scope' with
  | nil =>
      cases scope' with
      | nil => simpa using h
      | cons u rest =>
          simp only [List.nil_append, List.cons_append, List.cons.injEq] at h
          exact absurd (h.2 ▸ List.mem_append_right rest List.mem_cons_self) hkey
  | cons u rest ih =>
      cases scope' with
      | nil =>
          simp only [List.nil_append, List.cons_append, List.cons.injEq] at h
          exact absurd (h.2 ▸ List.mem_append_right rest List.mem_cons_self) hkey'
      | cons u' rest' =>
          simp only [List.cons_append, List.cons.injEq] at h
          obtain ⟨hscope, hk⟩ := ih h.2
          exact ⟨by rw [h.1, hscope], hk⟩

end Anyonce
