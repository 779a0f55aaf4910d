import Anyonce.Go.Header
import Anyonce.Http.Request

/-!
# Repeated key headers

Two `Idempotency-Key` fields are two keys, and a request with two keys is refused.  `LookupKey` in Go
counts the fields.  `lookupKey` in TypeScript sees the values joined with a comma and a space and leaves
the refusal to `parseKey`, which refuses most joined values but not all:

* the fields may be the parts of one quoted string that was cut at its commas (`CutSfString`);
* a field may be followed by an empty one, and the space after the comma is stripped with the rest of
  the white space, which leaves a token that ends in a comma.

`repeated_key_refused_iff` says that these are all.
-/

namespace Anyonce

open Unicode (trim Stripped trim_eq_iff)

/-- The fields of a quoted string that was cut at the separators: a double quote before the first and
after the last, and characters of a string in each. -/
def CutSfString (fields : List JsString) (key : JsString) : Prop :=
  ∃ first middle last values, fields = (0x22 :: first) :: (middle ++ [last ++ [0x22]])
    ∧ List.Forall₂ SfChars (first :: (middle ++ [last])) values ∧ key = joinFields values

/-- The fields make up one key again when they are joined. -/
def RejoinedKey (keySyntax : KeySyntax) (fields : List JsString) : Prop :=
  (∃ key, CutSfString fields key ∧ key.length ≤ 255)
    ∨ (keySyntax = .Lenient ∧ ∃ value, fields = [value, []] ∧ BareToken (value ++ [0x2c]))

/-! ## Strings with separators -/

lemma SfChars.append {text value text' value' : JsString} (h : SfChars text value)
    (h' : SfChars text' value') : SfChars (text ++ text') (value ++ value') := by
  induction h with
  | nil => exact h'
  | unescaped hlow hhigh hquote hslash _ ih => exact .unescaped hlow hhigh hquote hslash ih
  | escaped hu _ ih => exact .escaped hu ih

/-- A separator is never part of an escape, so a string splits there. -/
lemma sfChars_separator {text rest key : JsString} :
    SfChars (text ++ 0x2c :: 0x20 :: rest) key ↔
      ∃ value value', SfChars text value ∧ SfChars rest value' ∧ key = value ++ 0x2c :: 0x20 :: value' := by
  constructor
  · generalize hwhole : text ++ 0x2c :: 0x20 :: rest = whole
    intro h
    induction h generalizing text with
    | nil => simp at hwhole
    | @unescaped u more value hlow hhigh hquote hslash h ih =>
        cases text with
        | nil =>
            simp only [List.nil_append, List.cons.injEq] at hwhole
            obtain ⟨rfl, rfl⟩ := hwhole
            cases h with
            | unescaped _ _ _ _ h => exact ⟨[], _, .nil, h, rfl⟩
        | cons u' text =>
            simp only [List.cons_append, List.cons.injEq] at hwhole
            obtain ⟨rfl, hmore⟩ := hwhole
            obtain ⟨v, v', hv, hv', rfl⟩ := ih hmore
            exact ⟨u' :: v, v', .unescaped hlow hhigh hquote hslash hv, hv', rfl⟩
    | @escaped u more value hu h ih =>
        cases text with
        | nil => simp at hwhole
        | cons u' text =>
            cases text with
            | nil =>
                simp only [List.cons_append, List.nil_append, List.cons.injEq] at hwhole
                obtain ⟨-, rfl, -⟩ := hwhole
                simp at hu
            | cons u'' text =>
                simp only [List.cons_append, List.cons.injEq] at hwhole
                obtain ⟨rfl, rfl, hmore⟩ := hwhole
                obtain ⟨v, v', hv, hv', rfl⟩ := ih hmore
                exact ⟨u'' :: v, v', .escaped hu hv, hv', rfl⟩
  · rintro ⟨value, value', h, h', rfl⟩
    exact h.append (.unescaped (by decide) (by decide) (by decide) (by decide)
      (.unescaped (by decide) (by decide) (by decide) (by decide) h'))

/-- Joined texts are the characters of a string exactly when each is, and the value is joined alike. -/
lemma sfChars_joinFields {texts : List JsString} (hne : texts ≠ []) {key : JsString} :
    SfChars (joinFields texts) key ↔
      ∃ values, List.Forall₂ SfChars texts values ∧ key = joinFields values := by
  induction texts generalizing key with
  | nil => exact absurd rfl hne
  | cons text texts ih =>
      cases texts with
      | nil =>
          constructor
          · intro h
            exact ⟨[key], .cons h .nil, rfl⟩
          · rintro ⟨values, hvalues, rfl⟩
            cases hvalues with
            | cons hv hrest =>
                cases hrest
                exact hv
      | cons next texts =>
          rw [joinFields_cons_cons, sfChars_separator]
          constructor
          · rintro ⟨value, more, hv, hmore, rfl⟩
            obtain ⟨values, hvalues, rfl⟩ := (ih (List.cons_ne_nil next texts)).mp hmore
            refine ⟨value :: values, .cons hv hvalues, ?_⟩
            cases hvalues
            rfl
          · rintro ⟨values, hvalues, rfl⟩
            cases hvalues with
            | @cons _ value _ values hv hrest =>
                refine ⟨value, joinFields values, hv, (ih (List.cons_ne_nil next texts)).mpr
                  ⟨values, hrest, rfl⟩, ?_⟩
                cases hrest
                rfl

/-- What a string denotes is printable. -/
lemma SfChars.printable {text value : JsString} (h : SfChars text value) :
    ∀ u ∈ value, 0x20 ≤ u ∧ u ≤ 0x7e := by
  induction h with
  | nil => simp
  | unescaped hlow hhigh _ _ _ ih =>
      intro u hu
      rcases List.mem_cons.mp hu with rfl | hu
      · exact ⟨hlow, hhigh⟩
      · exact ih u hu
  | escaped hescape _ ih =>
      intro u hu
      rcases List.mem_cons.mp hu with rfl | hu
      · rcases hescape with rfl | rfl
        · decide
        · decide
      · exact ih u hu

/-! ## What is left of the joined value -/

/-- The fields as they arrive: nothing to strip at the ends of any of them. -/
def Fields (fields : List JsString) : Prop :=
  ∀ value ∈ fields, (∀ u ∈ value.head?, isOws u = false) ∧ ∀ u ∈ value.getLast?, isOws u = false

/-- The joined value without the white space at its ends: only the space of the last separator can go,
when the last field is empty. -/
lemma trimOws_joinFields {values : List JsString} {last : JsString} (hne : values ≠ [])
    (hfields : Fields (values ++ [last])) : trimOws (joinFields (values ++ [last]))
      = if last = [] then joinFields values ++ [0x2c] else joinFields (values ++ [last]) :=
  trim_joinFields (by decide) (by decide) hne hfields

/-! ## What is accepted -/

/-- A unit at the end of the last field stands at the end. -/
lemma joinFields_concat_unit (values : List JsString) (last : JsString) (u : UInt16) :
    joinFields (values ++ [last ++ [u]]) = joinFields (values ++ [last]) ++ [u] := by
  cases values with
  | nil => rfl
  | cons value values =>
      rw [joinFields_concat (List.cons_ne_nil value values),
        joinFields_concat (List.cons_ne_nil value values), List.append_assoc, List.cons_append,
        List.cons_append]

/-- The joined value is a quoted key exactly when the fields are the parts of one. -/
lemma quotedKey_joinFields {values : List JsString} {last key : JsString} (hne : values ≠ [])
    (hfields : Fields (values ++ [last])) :
    QuotedKey (trimOws (joinFields (values ++ [last]))) key
      ↔ CutSfString (values ++ [last]) key ∧ key.length ≤ 255 := by
  rw [trimOws_joinFields hne hfields]
  constructor
  · rintro ⟨⟨chars, htext, hchars⟩, hkey⟩
    refine ⟨?_, hkey.short⟩
    rw [← List.cons_append] at htext
    split_ifs at htext with hempty
    · have hunit := (List.append_inj' htext rfl).2
      simp at hunit
    · obtain ⟨value, middle, rfl⟩ := List.exists_cons_of_ne_nil hne
      obtain ⟨last, unit, rfl⟩ := (List.eq_nil_or_concat last).resolve_left hempty
      rw [List.concat_eq_append, joinFields_concat_unit] at htext
      obtain ⟨hjoined, hunit⟩ := List.append_inj' htext rfl
      cases hunit
      cases value with
      | nil =>
          -- an empty first field leaves a comma at the front
          rw [joinFields_concat hne] at hjoined
          cases middle with
          | nil => simp [joinFields] at hjoined
          | cons next middle => simp at hjoined
      | cons unit first =>
          rw [List.cons_append, joinFields_cons_unit] at hjoined
          simp only [List.cons.injEq] at hjoined
          obtain ⟨rfl, rfl⟩ := hjoined
          obtain ⟨keys, hkeys, rfl⟩ :=
            (sfChars_joinFields (List.cons_ne_nil first (middle ++ [last]))).mp hchars
          exact ⟨first, middle, last, keys, by simp, hkeys, rfl⟩
  · rintro ⟨⟨first, middle, last', keys, hcut, hkeys, rfl⟩, hshort⟩
    have hne' : first :: middle ≠ [] := List.cons_ne_nil first middle
    rw [← List.cons_append] at hcut
    obtain ⟨rfl, hlast⟩ := List.append_inj' hcut rfl
    obtain rfl : last = last' ++ [0x22] := by simpa using hlast
    have hchars : SfChars (joinFields (first :: (middle ++ [last']))) (joinFields keys) :=
      (sfChars_joinFields (List.cons_ne_nil first _)).mpr ⟨keys, hkeys, rfl⟩
    rw [if_neg (by simp), joinFields_concat_unit, List.cons_append, joinFields_cons_unit]
    refine ⟨⟨_, rfl, hchars⟩, ?_, hshort, hchars.printable⟩
    rw [Nat.one_le_iff_ne_zero, ne_eq, List.length_eq_zero_iff]
    intro hnil
    rw [hnil, ← List.cons_append, joinFields_concat hne'] at hchars
    generalize htext : joinFields (first :: middle) ++ 0x2c :: 0x20 :: last' = text at hchars
    cases hchars
    simp at htext

/-- The joined value is a bare token exactly when an empty field follows one. -/
lemma bareToken_joinFields {values : List JsString} {last : JsString} (hne : values ≠ [])
    (hfields : Fields (values ++ [last])) :
    BareToken (trimOws (joinFields (values ++ [last])))
      ↔ ∃ value, values ++ [last] = [value, []] ∧ BareToken (value ++ [0x2c]) := by
  have hspace : ¬ (0x21 : UInt16) ≤ 0x20 := by decide
  rw [trimOws_joinFields hne hfields]
  constructor
  · intro hbare
    split_ifs at hbare with hempty
    · subst hempty
      obtain ⟨value, rest, rfl⟩ := List.exists_cons_of_ne_nil hne
      cases rest with
      | nil => exact ⟨value, rfl, hbare⟩
      | cons next rest => exact absurd (hbare.visible 0x20 (by simp)).1 hspace
    · rw [joinFields_concat hne] at hbare
      exact absurd (hbare.visible 0x20 (by simp)).1 hspace
  · rintro ⟨value, hvalues, hbare⟩
    have hsplit : values = [value] ∧ [last] = [[]] := List.append_inj' hvalues rfl
    obtain ⟨rfl, hlast⟩ := hsplit
    obtain rfl : last = [] := by simpa using hlast
    rw [if_pos rfl]
    exact hbare

/-! ## The lookup -/

/-- The fields of a header are never padded. -/
lemma Headers.fields_unpadded (headers : Headers) (name : JsString) : Fields (headers.fields name) := by
  intro value hvalue
  obtain ⟨e, -, rfl⟩ := List.mem_map.mp hvalue
  exact ⟨e.2.first, e.2.last⟩

/-- `parseKey` accepts a value joined from two fields or more exactly when they make up one key. -/
lemma parseKey_joinFields {fields : List JsString} (hlength : 2 ≤ fields.length)
    (hfields : Fields fields) (keySyntax : KeySyntax) :
    (∃ key, parseKey (joinFields fields) keySyntax = .Ok key) ↔ RejoinedKey keySyntax fields := by
  obtain ⟨values, last, rfl⟩ : ∃ values last, fields = values ++ [last] := by
    rcases List.eq_nil_or_concat fields with rfl | ⟨values, last, rfl⟩
    · simp at hlength
    · exact ⟨values, last, List.concat_eq_append ..⟩
  have hne : values ≠ [] := by
    rintro rfl
    simp at hlength
  have hquoted : ∀ key, QuotedKey (trimOws (joinFields (values ++ [last]))) key
      ↔ CutSfString (values ++ [last]) key ∧ key.length ≤ 255 :=
    fun key => quotedKey_joinFields hne hfields
  have hbare := bareToken_joinFields hne hfields
  cases keySyntax with
  | Strict =>
      simp only [parseKey_strict, ← trim_eq_iff, exists_eq_left']
      constructor
      · rintro ⟨key, hkey⟩
        exact Or.inl ⟨key, (hquoted key).mp hkey⟩
      · rintro (⟨key, hkey⟩ | ⟨hlenient, -⟩)
        · exact ⟨key, (hquoted key).mpr hkey⟩
        · cases hlenient
  | Lenient =>
      simp only [parseKey_lenient, ← trim_eq_iff, exists_eq_left']
      constructor
      · rintro ⟨key, ⟨htoken, -⟩ | hkey⟩
        · exact Or.inr ⟨rfl, hbare.mp htoken⟩
        · exact Or.inl ⟨key, (hquoted key).mp hkey⟩
      · rintro (⟨key, hkey⟩ | ⟨-, htoken⟩)
        · exact ⟨key, Or.inr ((hquoted key).mpr hkey)⟩
        · exact ⟨_, Or.inl ⟨hbare.mpr htoken, rfl⟩⟩

/-- **Repeated key headers.**  For a header with two fields or more:

* `lookupKey` in TypeScript says that it is invalid, unless the fields make up one key when they are
  joined;
* `LookupKey` in Go always says so. -/
theorem repeated_key_refused_iff (keySyntax : KeySyntax) (headers : Headers) (headerName : JsString)
    (h : Go.Header) (name : Go.GoString) :
    (2 ≤ (headers.fields headerName).length →
        ((∃ reason, lookupKey headers headerName keySyntax = .Invalid reason)
          ↔ ¬ RejoinedKey keySyntax (headers.fields headerName)))
      ∧ (2 ≤ (h.values name).length → (Go.lookupKey h name keySyntax).2.1 = .Invalid) := by
  refine ⟨?_, ?_⟩
  · intro hlength
    rw [← parseKey_joinFields hlength (headers.fields_unpadded headerName)]
    have hget : headers.get headerName = some (joinFields (headers.fields headerName)) := by
      rw [Headers.get]
      cases hfields : headers.fields headerName with
      | nil => simp [hfields] at hlength
      | cons value values => rfl
    rw [lookupKey, hget]
    cases hparse : parseKey (joinFields (headers.fields headerName)) keySyntax with
    | Ok key => simp [hparse]
    | Fail reason => simp [hparse]
  · intro hlength
    rw [Go.lookupKey]
    cases hvalues : h.values name with
    | nil => simp [hvalues] at hlength
    | cons value rest =>
        cases rest with
        | nil => simp [hvalues] at hlength
        | cons next rest => rfl

/-- The fields `"a` and `b"`: one key, under either syntax. -/
def cutHeaders : Headers :=
  ⟨[(js "Idempotency-Key", ⟨js "\"a", List.all_iff_forall_prop.mp (by decide), by decide⟩),
    (js "idempotency-key", ⟨js "b\"", List.all_iff_forall_prop.mp (by decide), by decide⟩)]⟩

/-- The fields `a` and an empty one. -/
def emptyFieldHeaders : Headers :=
  ⟨[(js "Idempotency-Key", ⟨js "a", List.all_iff_forall_prop.mp (by decide), by decide⟩),
    (js "Idempotency-Key", ⟨[], List.all_iff_forall_prop.mp (by decide), by decide⟩)]⟩

/-- Two fields that TypeScript accepts as one key. -/
theorem repeated_key_accepted :
    (cutHeaders.fields (js "Idempotency-Key")).length = 2
      ∧ lookupKey cutHeaders (js "Idempotency-Key") .Strict = .Ok (js "a, b")
      ∧ lookupKey cutHeaders (js "Idempotency-Key") .Lenient = .Ok (js "a, b")
      ∧ (emptyFieldHeaders.fields (js "Idempotency-Key")).length = 2
      ∧ lookupKey emptyFieldHeaders (js "Idempotency-Key") .Lenient = .Ok (js "a,") := by
  decide +kernel

end Anyonce
