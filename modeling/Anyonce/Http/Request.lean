import Mathlib.Data.Bool.AllAny
import Anyonce.KeyParser

/-!
# Headers of a request

What `packages/core/src/http/request.ts` reads of the `Headers` of a `Request`.  A header list is as
the Fetch standard has it: names in any case, and values without whitespace at their ends, which
`append` strips, and without the units it refuses.  `get` joins the values of a repeated name with a
comma and a space.

* `Headers.get`, `lookupKey` — the lookup of the key.
-/

namespace Anyonce

open Unicode (trim Stripped trim_eq_iff)

/-- HTTP whitespace: tab, line feed, carriage return or space. -/
def isHttpWhitespace (u : UInt16) : Bool := u = 0x09 || u = 0x0a || u = 0x0d || u = 0x20

/-- A value a header may have: bytes without NUL and line breaks, with no whitespace at either end. -/
structure HeaderValue where
  units : JsString
  legal : ∀ u ∈ units, u ≤ 0xff ∧ u ≠ 0x00 ∧ u ≠ 0x0a ∧ u ≠ 0x0d
  normalized : trim isHttpWhitespace units = units

/-- A header list, in order. -/
structure Headers where
  list : List (JsString × HeaderValue)

/-- ASCII upper case letters made lower case. -/
def byteLowercase (name : JsString) : JsString :=
  name.map fun u => if 0x41 ≤ u ∧ u ≤ 0x5a then u + 0x20 else u

/-- The values of a name, joined with `", "`. -/
def joinFields : List JsString → JsString
  | [] => []
  | [value] => value
  | value :: values => value ++ 0x2c :: 0x20 :: joinFields values

namespace Headers

variable (headers : Headers)

/-- The values of a name, in order. -/
def fields (name : JsString) : List JsString :=
  (headers.list.filter fun e => byteLowercase e.1 = byteLowercase name).map fun e => e.2.units

def get (name : JsString) : Option JsString :=
  match headers.fields name with
  | [] => none
  | values => some (joinFields values)

end Headers

/-- What the key header of a request comes to: none, a key, or a value that is no key. -/
inductive KeyLookup
  | Missing
  | Invalid (reason : String)
  | Ok (key : JsString)
  deriving DecidableEq

/-- REQ-HTTP-2. -/
def lookupKey (headers : Headers) (headerName : JsString) (keySyntax : KeySyntax) : KeyLookup :=
  match headers.get headerName with
  | none => .Missing
  | some raw =>
      match parseKey raw keySyntax with
      | .Fail reason => .Invalid reason
      | .Ok key => .Ok key

/-! ## Joined fields -/

@[simp] lemma joinFields_cons_cons (value next : JsString) (values : List JsString) :
    joinFields (value :: next :: values) = value ++ 0x2c :: 0x20 :: joinFields (next :: values) := rfl

/-- The last field stands after the last separator. -/
lemma joinFields_concat {values : List JsString} (h : values ≠ []) (last : JsString) :
    joinFields (values ++ [last]) = joinFields values ++ 0x2c :: 0x20 :: last := by
  induction values with
  | nil => exact absurd rfl h
  | cons value values ih =>
      cases values with
      | nil => rfl
      | cons next values =>
          rw [List.cons_append, List.cons_append, joinFields_cons_cons, ← List.cons_append,
            ih (List.cons_ne_nil next values), joinFields_cons_cons, List.append_assoc,
            List.cons_append, List.cons_append]

/-- A unit at the front of the first field stands at the front. -/
lemma joinFields_cons_unit (u : UInt16) (value : JsString) (values : List JsString) :
    joinFields ((u :: value) :: values) = u :: joinFields (value :: values) := by
  cases values with
  | nil => rfl
  | cons next values => rfl

section Trimmed

variable {p : UInt16 → Bool} {values : List JsString} {last : JsString}

/-- Joined values begin with the first of them, or with the separator after it. -/
lemma joinFields_head (hcomma : p 0x2c = false) (hvalues : ∀ value ∈ values, ∀ u ∈ value.head?, p u = false) :
    ∀ u ∈ (joinFields values).head?, p u = false := by
  cases values with
  | nil => simp [joinFields]
  | cons value values =>
      intro u hu
      cases value with
      | nil =>
          cases values with
          | nil => simp [joinFields] at hu
          | cons next values =>
              cases hu
              exact hcomma
      | cons u' value =>
          rw [joinFields_cons_unit] at hu
          cases hu
          exact hvalues _ List.mem_cons_self u rfl

/-- **Joined values without the white space at their ends**: only the space of the last separator can go, when
the last value is empty. -/
lemma trim_joinFields (hspace : p 0x20 = true) (hcomma : p 0x2c = false) (hne : values ≠ [])
    (hvalues : ∀ value ∈ values ++ [last], (∀ u ∈ value.head?, p u = false) ∧ ∀ u ∈ value.getLast?, p u = false) :
    trim p (joinFields (values ++ [last]))
      = if last = [] then joinFields values ++ [0x2c] else joinFields (values ++ [last]) := by
  have hfirst : ∀ u ∈ (joinFields values).head?, p u = false :=
    joinFields_head hcomma fun value hvalue => (hvalues value (List.mem_append_left _ hvalue)).1
  have hhead : ∀ rest : JsString, ∀ u ∈ (joinFields values ++ 0x2c :: rest).head?, ¬ p u = true := by
    intro rest u hu
    rw [Bool.not_eq_true]
    cases hjoined : joinFields values with
    | nil =>
        rw [hjoined] at hu
        cases hu
        exact hcomma
    | cons u' joined =>
        rw [hjoined] at hu hfirst
        exact hfirst u hu
  have hlast : ∀ u ∈ last.getLast?, p u = false :=
    (hvalues last (List.mem_append_right _ (List.mem_singleton_self _))).2
  refine trim_eq_iff.mpr ?_
  rw [joinFields_concat hne]
  split_ifs with hempty
  · subst hempty
    refine ⟨⟨[], [0x20], by simp, by simp, by simpa using hspace⟩, hhead [], ?_⟩
    intro u hu
    rw [List.getLast?_concat] at hu
    cases hu
    rw [Bool.not_eq_true]
    exact hcomma
  · refine ⟨⟨[], [], by simp, by simp, by simp⟩, hhead (0x20 :: last), ?_⟩
    intro u hu
    have hwhole : joinFields values ++ 0x2c :: 0x20 :: last = (joinFields values ++ [0x2c, 0x20]) ++ last := by simp
    rw [hwhole, List.getLast?_append_of_ne_nil _ hempty] at hu
    rw [Bool.not_eq_true]
    exact hlast u hu

end Trimmed

/-- Spaces and tabs are HTTP whitespace. -/
lemma isHttpWhitespace_of_isOws {u : UInt16} (h : isOws u = true) : isHttpWhitespace u = true := by
  simp only [isOws, Bool.or_eq_true, decide_eq_true_eq] at h
  rcases h with rfl | rfl
  · rfl
  · rfl

lemma HeaderValue.stripped (value : HeaderValue) :
    Stripped isHttpWhitespace value.units value.units := trim_eq_iff.mp value.normalized

lemma HeaderValue.first (value : HeaderValue) : ∀ u ∈ value.units.head?, isOws u = false := by
  intro u hu
  rw [Bool.eq_false_iff]
  exact fun hows => value.stripped.first u hu (isHttpWhitespace_of_isOws hows)

lemma HeaderValue.last (value : HeaderValue) : ∀ u ∈ value.units.getLast?, isOws u = false := by
  intro u hu
  rw [Bool.eq_false_iff]
  exact fun hows => value.stripped.last u hu (isHttpWhitespace_of_isOws hows)

end Anyonce
