import Anyonce.Go.StandardWebhooks

/-!
# What one signature binds

Two deliveries accepted on one entry of a signature have the same signed content, when no two messages
have the same MAC.  The content is the id, the timestamp and the body with dots between them, and an id
may itself have dots in it.  So the content says which delivery it is, up to one thing: an id may go on
with a dot, the timestamp of the other delivery and another dot (`Straddles`).

* `separated_cases` — texts with a separator, when the middle one is without it.
* `signed_content_binds` — the result, in both languages.
* `signed_content_ambiguous` — deliveries with different ids and bodies, accepted on one entry.
-/

namespace Anyonce

open NumberText Ecma

/-! ## Two separators -/

section

variable {α : Type} {c : α}

/-- The second text, with a separator after it, goes on beyond the first two. -/
def Straddles (c : α) (first middle second : List α) : Prop :=
  ∃ rest, second ++ [c] = first ++ c :: (middle ++ c :: rest)

/-- Where the first separator stands is decided when it is not in the first text. -/
lemma append_separator_cases {t b x y : List α} (ht : c ∉ t) (h : t ++ c :: b = x ++ c :: y) :
    (x = t ∧ b = y) ∨ ∃ rest, x = t ++ c :: rest := by
  rcases List.append_eq_append_iff.mp h with ⟨mid, rfl, hmid⟩ | ⟨mid, rfl, hmid⟩
  · cases mid with
    | nil => exact Or.inl ⟨by simp, by simpa using hmid⟩
    | cons u mid =>
        obtain ⟨rfl, rfl⟩ := List.cons.inj hmid
        exact Or.inr ⟨mid, rfl⟩
  · cases mid with
    | nil => exact Or.inl ⟨by simp, by simpa using hmid.symm⟩
    | cons u mid =>
        obtain ⟨rfl, -⟩ := List.cons.inj hmid
        exact absurd (List.mem_append_right _ List.mem_cons_self) ht

lemma straddles_of_longer {a t b t' b' more : List α} (ht : c ∉ t)
    (h : c :: (t ++ c :: b) = more ++ c :: (t' ++ c :: b')) :
    (more = [] ∧ t ++ c :: b = t' ++ c :: b') ∨ Straddles c a t (a ++ more) := by
  cases more with
  | nil => exact Or.inl ⟨rfl, by simpa using h⟩
  | cons u more =>
      obtain ⟨rfl, hrest⟩ := List.cons.inj h
      refine Or.inr ?_
      rcases append_separator_cases ht hrest with ⟨rfl, -⟩ | ⟨rest, rfl⟩
      · exact ⟨[], by simp⟩
      · exact ⟨rest ++ [c], by simp⟩

/-- **Texts with two separators**, the middle ones without any: they are the same, or one straddles. -/
theorem separated_cases {a t b a' t' b' : List α} (ht : c ∉ t) (ht' : c ∉ t')
    (h : a ++ c :: (t ++ c :: b) = a' ++ c :: (t' ++ c :: b')) :
    (a = a' ∧ t = t' ∧ b = b') ∨ Straddles c a t a' ∨ Straddles c a' t' a := by
  have hsame : t ++ c :: b = t' ++ c :: b' → t = t' ∧ b = b' := by
    intro heq
    rcases append_separator_cases ht heq with ⟨rfl, hb⟩ | ⟨rest, rfl⟩
    · exact ⟨rfl, hb⟩
    · exact absurd (List.mem_append_right _ List.mem_cons_self) ht'
  rcases List.append_eq_append_iff.mp h with ⟨more, rfl, hmore⟩ | ⟨more, rfl, hmore⟩
  · rcases straddles_of_longer (a := a) ht hmore with ⟨rfl, heq⟩ | hstraddles
    · obtain ⟨rfl, rfl⟩ := hsame heq
      exact Or.inl ⟨by simp, rfl, rfl⟩
    · exact Or.inr (Or.inl hstraddles)
  · rcases straddles_of_longer (a := a') ht' hmore with ⟨rfl, heq⟩ | hstraddles
    · obtain ⟨rfl, rfl⟩ := hsame heq.symm
      exact Or.inl ⟨by simp, rfl, rfl⟩
    · exact Or.inr (Or.inr hstraddles)

end

/-! ## The bytes of a header value -/

section

open Unicode

/-- The character of a unit of a header value. -/
def latin (u : UInt16) : Char := Char.ofNat u.toNat

lemma latin_toNat {u : UInt16} (h : u ≤ 0xff) : (latin u).toNat = u.toNat := by
  have hlt : u.toNat < 0xD800 := by
    have hle := UInt16.le_iff_toNat_le.mp h
    simp only [UInt16.reduceToNat] at hle
    omega
  have hvalid : u.toNat.isValidChar := Or.inl hlt
  rw [latin, Char.ofNat, dif_pos hvalid]
  rfl

/-- Units of header values. -/
def Latin (text : JsString) : Prop := ∀ u ∈ text, u ≤ 0xff

lemma map_latin_inj {s s' : JsString} (hs : Latin s) (hs' : Latin s')
    (h : s.map latin = s'.map latin) : s = s' := by
  induction s generalizing s' with
  | nil => exact (List.map_eq_nil_iff.mp h.symm).symm
  | cons u s ih =>
      cases s' with
      | nil => simp at h
      | cons u' s' =>
          rw [Latin, List.forall_mem_cons] at hs hs'
          obtain ⟨hu, hrest⟩ := List.cons.inj h
          have hnat : u.toNat = u'.toNat := by
            rw [← latin_toNat hs.1, ← latin_toNat hs'.1, hu]
          rw [UInt16.toNat_inj.mp hnat, ih hs.2 hs'.2 hrest]

/-- None of the units is a surrogate. -/
lemma scalars_latin {s : JsString} (hs : Latin s) : scalars s = s.map latin := by
  have hsmall : ∀ {u : UInt16}, u ≤ 0xff → isLead u = false ∧ isTrail u = false := by
    intro u hu
    have hle := UInt16.le_iff_toNat_le.mp hu
    simp only [UInt16.reduceToNat] at hle
    constructor
    · rw [← Bool.not_eq_true, isLead_iff]
      omega
    · rw [← Bool.not_eq_true, isTrail_iff]
      omega
  induction s with
  | nil => rfl
  | cons u s ih =>
      rw [Latin, List.forall_mem_cons] at hs
      obtain ⟨hlead, htrail⟩ := hsmall hs.1
      rw [scalars_cons (by simp [hlead]), ih hs.2, single, hlead, htrail]
      rfl

/-- What is left of a text after the beginning of another text is a text. -/
lemma utf8_eq_append {cs ds : List Char} {rest : List UInt8} (h : utf8 cs = utf8 ds ++ rest) :
    ∃ es, cs = ds ++ es := by
  have hrunes := congrArg runes h
  rw [runes_utf8, runes, decodeSkip_utf8] at hrunes
  exact ⟨_, hrunes⟩

/-- A dot among the bytes of a text is a dot of the text. -/
lemma dot_mem_utf8 {s : JsString} (hs : Latin s) (h : 0x2e ∈ utf8 (s.map latin)) : 0x2e ∈ s := by
  obtain ⟨c, hc, hbyte⟩ := List.mem_flatMap.mp h
  obtain ⟨u, hu, rfl⟩ := List.mem_map.mp hc
  rcases Nat.lt_or_ge (latin u).toNat 0x80 with hlow | hhigh
  · have hdot : (UInt8.ofNat (latin u).toNat).toNat = 0x2e := by
      rw [utf8Char_ascii hlow, List.mem_singleton] at hbyte
      rw [← hbyte]
      rfl
    rw [UInt8.toNat_ofNat', Nat.mod_eq_of_lt (by omega), latin_toNat (hs u hu)] at hdot
    have hunit : u = 0x2e := UInt16.toNat_inj.mp hdot
    exact hunit ▸ hu
  · exact absurd (utf8Char_wide hhigh _ hbyte) (by decide)

end

/-! ## Timestamps -/

section

/-- The digits of a whole number below 10²¹ are written without a point. -/
lemma layout_integral {digits : List (Fin 10)} {e : ℤ} (hlength : digits.length ≤ e) (he : e ≤ 21) :
    ∀ u ∈ layout digits e, 0x30 ≤ u ∧ u ≤ 0x39 := by
  intro u hu
  rw [layout, if_pos ⟨hlength, he⟩, List.mem_append, List.mem_map, List.mem_replicate] at hu
  rcases hu with ⟨d, -, rfl⟩ | ⟨-, rfl⟩
  · rw [code]
    omega
  · omega

/-- A number below 10²¹ in magnitude. -/
def Short {F : Type} (n : StandardWebhooks.Numbers F) (f : F) : Prop :=
  n.isZero f = true ∨ n.exponent f ≤ 21

lemma toText_short {F : Type} (n : StandardWebhooks.Numbers F) {f : F} (h : Short n (n.trunc f)) :
    ∀ u ∈ n.toText (n.trunc f), u = 0x2d ∨ (0x30 ≤ u ∧ u ≤ 0x39) := by
  intro u hu
  rw [Runtime.toText] at hu
  split_ifs at hu with hzero
  · rw [List.mem_singleton.mp hu]
    omega
  · have hmagnitude : ∀ v ∈ n.magnitude (n.trunc f), 0x30 ≤ v ∧ v ≤ 0x39 := by
      rw [Runtime.magnitude, if_neg hzero]
      exact layout_integral (n.digits_trunc f (by simpa using hzero)) (h.resolve_left hzero)
    rw [Runtime.signed] at hu
    split_ifs at hu
    · rcases List.mem_cons.mp hu with rfl | hu
      · exact Or.inl rfl
      · exact Or.inr (hmagnitude u hu)
    · exact Or.inr (hmagnitude u hu)

/-- The text of such a timestamp has no dot. -/
lemma text_short {F : Type} (n : StandardWebhooks.Numbers F) {f : F} (h : Short n (n.trunc f)) :
    Latin (n.text (n.trunc f)) ∧ 0x2e ∉ n.text (n.trunc f) := by
  have hunit : ∀ u ∈ n.text (n.trunc f), u.toNat ≤ 0x39 ∧ u.toNat ≠ 0x2e := by
    intro u hu
    obtain ⟨v, hv, rfl⟩ := List.mem_map.mp hu
    have hv := toText_short n h v hv
    rw [UInt16.toNat_ofNat', Nat.mod_eq_of_lt (by omega)]
    omega
  constructor
  · intro u hu
    have hle := (hunit u hu).1
    refine UInt16.le_iff_toNat_le.mpr ?_
    simp only [UInt16.reduceToNat]
    omega
  · intro hdot
    exact (hunit _ hdot).2 rfl

/-- The text of an integer is made of digits, after a sign. -/
lemma intText_units (z : ℤ) :
    ∀ u ∈ intText z, u.toNat = 0x2d ∨ (0x30 ≤ u.toNat ∧ u.toNat ≤ 0x39) := by
  have hdigits : ∀ (m : ℕ), ∀ u ∈ natText m, 0x30 ≤ u.toNat ∧ u.toNat ≤ 0x39 := by
    intro m u hu
    simpa only [isDigit, Bool.and_eq_true, decide_eq_true_eq, UInt16.le_iff_toNat_le,
      UInt16.reduceToNat] using isDigit_natText m u hu
  intro u hu
  cases z with
  | ofNat m => exact Or.inr (hdigits m u hu)
  | negSucc m =>
      rcases List.mem_cons.mp hu with rfl | hu
      · exact Or.inl rfl
      · exact Or.inr (hdigits (m + 1) u hu)

/-- The text of a Go timestamp has no dot. -/
lemma formatInt_dotless (seconds : ℤ) : 0x2e ∉ Go.StandardWebhooks.formatInt seconds := by
  intro hmem
  obtain ⟨u, hu, hdot⟩ := List.mem_map.mp hmem
  have hunit := intText_units seconds u hu
  have hnat := congrArg UInt8.toNat hdot
  simp only [UInt16.toNat_toUInt8, UInt8.reduceToNat] at hnat
  omega

lemma formatInt_injective : Function.Injective Go.StandardWebhooks.formatInt := by
  have hunits : ∀ z, (Go.StandardWebhooks.formatInt z).map UInt8.toUInt16 = intText z := by
    intro z
    have hback : ∀ u ∈ intText z, u.toUInt8.toUInt16 = u := by
      intro u hu
      have hunit := intText_units z u hu
      refine UInt16.toNat_inj.mp ?_
      simp only [UInt8.toNat_toUInt16, UInt16.toNat_toUInt8]
      omega
    rw [Go.StandardWebhooks.formatInt, List.map_map]
    exact (List.map_congr_left hback).trans (List.map_id _)
  intro z z' h
  exact intText_inj.mp (by rw [← hunits, ← hunits, h])

end

/-! ## Contents -/

/-- The units of a header value. -/
lemma joinFields_latin {values : List JsString} (h : ∀ value ∈ values, Latin value) :
    Latin (joinFields values) := by
  induction values with
  | nil => simp [joinFields, Latin]
  | cons value values ih =>
      cases values with
      | nil => exact h value List.mem_cons_self
      | cons next values =>
          have hrest : Latin (joinFields (next :: values)) :=
            ih fun value' hvalue' => h value' (List.mem_cons_of_mem _ hvalue')
          intro u hu
          rw [joinFields_cons_cons] at hu
          rcases List.mem_append.mp hu with hu | hu
          · exact h value List.mem_cons_self u hu
          · rcases List.mem_cons.mp hu with rfl | hu
            · decide
            · rcases List.mem_cons.mp hu with rfl | hu
              · decide
              · exact hrest u hu

lemma Headers.get_latin {headers : Headers} {name value : JsString}
    (h : headers.get name = some value) : Latin value := by
  have hfields : ∀ v ∈ headers.fields name, Latin v := by
    intro v hv
    obtain ⟨e, -, rfl⟩ := List.mem_map.mp hv
    exact fun u hu => (e.2.legal u hu).1
  rw [get] at h
  split at h
  · cases h
  · obtain rfl := Option.some.inj h
    exact joinFields_latin hfields

lemma latin_dotted {id text : JsString} (hid : Latin id) (htext : Latin text) :
    Latin (id ++ 0x2e :: (text ++ [0x2e])) := by
  intro u hu
  simp only [List.mem_append, List.mem_cons, List.not_mem_nil, or_false] at hu
  rcases hu with hu | rfl | hu | rfl
  · exact hid u hu
  · decide
  · exact htext u hu
  · decide

/-- A signed content, the id and the timestamp in bytes. -/
lemma signedContent_latin {id text : JsString} (hid : Latin id) (htext : Latin text)
    (body : List UInt8) : StandardWebhooks.signedContent id text body
      = Unicode.utf8 (id.map latin) ++ 0x2e :: (Unicode.utf8 (text.map latin) ++ 0x2e :: body) := by
  have hdot : Unicode.utf8Char (latin 0x2e) = [0x2e] := by decide
  rw [StandardWebhooks.signedContent, Unicode.encode, scalars_latin (latin_dotted hid htext)]
  simp [hdot]

/-- **The contents of two deliveries in TypeScript.** -/
lemma signedContent_cases {id id' text text' : JsString} {body body' : List UInt8} (hid : Latin id)
    (hid' : Latin id') (htext : Latin text) (htext' : Latin text') (hdot : 0x2e ∉ text)
    (hdot' : 0x2e ∉ text')
    (h : StandardWebhooks.signedContent id text body
      = StandardWebhooks.signedContent id' text' body') :
    (id = id' ∧ text = text' ∧ body = body')
      ∨ Straddles 0x2e id text id' ∨ Straddles 0x2e id' text' id := by
  have hback : ∀ {s t s' : JsString}, Latin s → Latin t → Latin s' →
      Straddles 0x2e (Unicode.utf8 (s.map latin)) (Unicode.utf8 (t.map latin))
        (Unicode.utf8 (s'.map latin)) → Straddles 0x2e s t s' := by
    rintro s t s' hs ht hs' ⟨rest, hrest⟩
    have hchar : Unicode.utf8Char (latin 0x2e) = [0x2e] := by decide
    have hchars : Unicode.utf8 ((s' ++ [0x2e]).map latin)
        = Unicode.utf8 ((s ++ 0x2e :: (t ++ [0x2e])).map latin) ++ rest := by
      simpa [hchar] using hrest
    obtain ⟨es, hes⟩ := utf8_eq_append hchars
    obtain ⟨front, back, hsplit, hfront, -⟩ := List.map_eq_append_iff.mp hes
    have hfrontLatin : Latin front := by
      intro u hu
      have hmem : u ∈ s' ++ [0x2e] := by
        rw [hsplit]
        exact List.mem_append_left back hu
      rcases List.mem_append.mp hmem with hmem | hmem
      · exact hs' u hmem
      · rw [List.mem_singleton.mp hmem]
        decide
    obtain rfl := map_latin_inj hfrontLatin (latin_dotted hs ht) hfront
    exact ⟨back, by simpa using hsplit⟩
  rw [signedContent_latin hid htext, signedContent_latin hid' htext'] at h
  rcases separated_cases (fun hmem => hdot (dot_mem_utf8 htext hmem))
      (fun hmem => hdot' (dot_mem_utf8 htext' hmem)) h with ⟨hids, htexts, hbodies⟩ | hstraddles
  · exact Or.inl ⟨map_latin_inj hid hid' (Unicode.utf8_injective hids),
      map_latin_inj htext htext' (Unicode.utf8_injective htexts), hbodies⟩
  · exact Or.inr (hstraddles.imp (hback hid htext hid') (hback hid' htext' hid))

/-! ## One entry, two deliveries -/

/-- No two messages have the same MAC, under any of the keys. -/
def InjectiveOn (hmac : StandardWebhooks.Hmac) (keys : List (List UInt8)) : Prop :=
  ∀ key ∈ keys, ∀ key' ∈ keys, ∀ m m', hmac key m = hmac key' m' → m = m'

/-- Entries that carry the MACs of two contents carry one content. -/
lemma InjectiveOn.content_eq {hmac : StandardWebhooks.Hmac} {keys : List (List UInt8)}
    (hmacs : InjectiveOn hmac keys) {presented : Option (List UInt8)} {content content' : List UInt8}
    (h : ∃ key ∈ keys, presented = some (hmac key content))
    (h' : ∃ key ∈ keys, presented = some (hmac key content')) : content = content' := by
  obtain ⟨key, hkey, hmac⟩ := h
  obtain ⟨key', hkey', hmac'⟩ := h'
  exact hmacs key hkey key' hkey' _ _ (Option.some.inj (hmac.symm.trans hmac'))

/-- **What one entry binds.**  Two deliveries that a verifier accepts on the same entry, whatever its
clock reads, have the same id, timestamp and body, unless the id of one straddles the id and the
timestamp of the other.  In TypeScript the timestamps have to be below 10²¹: the texts of others have a
dot in them. -/
theorem signed_content_binds (hmac : StandardWebhooks.Hmac) :
    (∀ {F : Type} (n : StandardWebhooks.Numbers F) (v : StandardWebhooks.Verifier F)
        (now now' : Number F) (headers headers' : Headers) (body body' : List UInt8)
        (id id' : JsString) (seconds seconds' : F) (entry : JsString),
        InjectiveOn hmac v.keys →
        StandardWebhooks.AcceptedOn n hmac v now headers body id seconds entry →
        StandardWebhooks.AcceptedOn n hmac v now' headers' body' id' seconds' entry →
        Short n seconds → Short n seconds' →
        (id = id' ∧ n.text seconds = n.text seconds' ∧ body = body')
          ∨ Straddles 0x2e id (n.text seconds) id' ∨ Straddles 0x2e id' (n.text seconds') id)
      ∧ ∀ {F : Type} (fl : Go.StandardWebhooks.Floats F) (v : Go.StandardWebhooks.Verifier)
        (now now' : ℤ) (h h' : Go.Header) (body body' : List UInt8) (id id' : Go.GoString)
        (seconds seconds' : ℤ) (entry : Go.GoString),
        InjectiveOn hmac v.keys →
        Go.StandardWebhooks.AcceptedOn fl hmac v now h body id seconds entry →
        Go.StandardWebhooks.AcceptedOn fl hmac v now' h' body' id' seconds' entry →
        (id = id' ∧ seconds = seconds' ∧ body = body')
          ∨ Straddles 0x2e id (Go.StandardWebhooks.formatInt seconds) id'
          ∨ Straddles 0x2e id' (Go.StandardWebhooks.formatInt seconds') id := by
  constructor
  · intro F n v now now' headers headers' body body' id id' seconds seconds' entry hmacs haccepted
      haccepted' hshort hshort'
    obtain ⟨-, ⟨entries, hreads, -⟩, hsigned⟩ := haccepted
    obtain ⟨-, ⟨entries', hreads', -⟩, hsigned'⟩ := haccepted'
    obtain ⟨_, f, -, -, rfl⟩ := hreads.seconds
    obtain ⟨_, f', -, -, rfl⟩ := hreads'.seconds
    exact signedContent_cases (Headers.get_latin hreads.id) (Headers.get_latin hreads'.id)
      (text_short n hshort).1 (text_short n hshort').1 (text_short n hshort).2
      (text_short n hshort').2 (hmacs.content_eq hsigned hsigned')
  · intro F fl v now now' h h' body body' id id' seconds seconds' entry hmacs haccepted haccepted'
    rcases separated_cases (formatInt_dotless seconds) (formatInt_dotless seconds')
        (hmacs.content_eq haccepted.signed haccepted'.signed) with ⟨hid, htext, hbody⟩ | hstraddles
    · exact Or.inl ⟨hid, formatInt_injective htext, hbody⟩
    · exact Or.inr hstraddles

/-! ## Deliveries -/

open StandardWebhooks

lemma digitValue_mod_lt (u : UInt16) : digitValue u % 10 < 10 := Nat.mod_lt _ (by decide)

/-- The whole numbers and the infinities, with the digits doubles have. -/
def wholeNumbers : Numbers ℤ where
  zero := 0
  isZero z := z = 0
  signbit z := z < 0
  digits z := ((natText z.natAbs).rdropWhile (· = 0x30)).map fun u =>
    ⟨digitValue u % 10, digitValue_mod_lt u⟩
  exponent z := (natText z.natAbs).length
  read token := ((parseInt (token.map UInt16.ofNat)).map .Finite).getD .NaN
  ofText text := ((parseInt text).map .Finite).getD .NaN
  ofNat m := .Finite m
  trunc z := z
  abs
    | .Finite z => .Finite z.natAbs
    | .Infinite _ => .Infinite false
    | .NaN => .NaN
  sub
    | .Finite a, .Finite b => .Finite (a - b)
    | .Infinite negative, .Finite _ => .Infinite negative
    | .Finite _, .Infinite negative => .Infinite !negative
    | .Infinite negative, .Infinite negative' =>
        if negative = negative' then .NaN else .Infinite negative
    | _, _ => .NaN
  mul
    | .Finite a, .Finite b => .Finite (a * b)
    | .Infinite negative, .Finite b => if b = 0 then .NaN else .Infinite (negative ^^ (b < 0 : Bool))
    | .Finite a, .Infinite negative => if a = 0 then .NaN else .Infinite (negative ^^ (a < 0 : Bool))
    | .Infinite negative, .Infinite negative' => .Infinite (negative ^^ negative')
    | _, _ => .NaN
  greater
    | .Finite a, .Finite b => b < a
    | .Infinite negative, .Finite _ => !negative
    | .Finite _, .Infinite negative => negative
    | .Infinite negative, .Infinite negative' => !negative && negative'
    | _, _ => false
  digits_trunc z _ := by
    have hshorter := (List.dropWhile_sublist (· = 0x30) (l := (natText z.natAbs).reverse)).length_le
    rw [List.length_map, List.rdropWhile, List.length_reverse]
    simpa using hshorter

/-- The three headers of a delivery. -/
def webhookHeaders (id timestamp signature : HeaderValue) : Headers :=
  ⟨[(js "webhook-id", id), (js "webhook-timestamp", timestamp), (js "webhook-signature", signature)]⟩

/-- The entry of a MAC. -/
def macEntry (mac : List UInt8) : JsString := js "v1," ++ btoa mac

lemma macEntry_visible (mac : List UInt8) : ∀ u ∈ macEntry mac, 0x2b ≤ u ∧ u ≤ 0x7a := by
  have hversion : ∀ u ∈ js "v1,", (0x2b : UInt16) ≤ u ∧ u ≤ 0x7a :=
    List.all_iff_forall_prop.mp (by decide +kernel)
  intro u hu
  rcases List.mem_append.mp hu with hu | hu
  · exact hversion u hu
  · exact btoa_units mac u hu

lemma macEntry_splitOn (mac : List UInt8) : (macEntry mac).splitOn 0x20 = [macEntry mac] := by
  refine List.splitOn_eq_singleton ?_
  intro hspace
  exact absurd (macEntry_visible mac 0x20 hspace).1 (by decide)

lemma entryBytes_macEntry (mac : List UInt8) : entryBytes (macEntry mac) = some mac := by
  have hstart : js "v1," <+: macEntry mac := ⟨btoa mac, rfl⟩
  rw [entryBytes, if_pos hstart]
  exact atob_btoa mac

/-- A signature header with one entry. -/
def macHeader (mac : List UInt8) : HeaderValue where
  units := macEntry mac
  legal u hu := by
    have hvisible := macEntry_visible mac u hu
    refine ⟨UInt16.le_trans hvisible.2 (by decide), ?_, ?_, ?_⟩
    all_goals
      rintro rfl
      exact absurd hvisible.1 (by decide)
  normalized := by
    have hblank : ∀ u ∈ macEntry mac, ¬ isHttpWhitespace u = true := by
      intro u hu hspace
      simp only [isHttpWhitespace, Bool.or_eq_true, decide_eq_true_eq] at hspace
      have hvisible := (macEntry_visible mac u hu).1
      rcases hspace with ((rfl | rfl) | rfl) | rfl <;> exact absurd hvisible (by decide)
    exact Unicode.trim_eq_iff.mpr ⟨⟨[], [], by simp, by simp, by simp⟩,
      fun u hu => hblank u (List.mem_of_mem_head? hu),
      fun u hu => hblank u (List.mem_of_getLast? hu)⟩

/-- A delivery with the MAC of a content that is its own too. -/
lemma accepted_macHeader (hmac : Hmac) (v : Verifier ℤ) {key : List UInt8} (hkey : key ∈ v.keys)
    (now : Number ℤ) (id timestamp : HeaderValue) (seconds : ℤ) (body content : List UInt8)
    (htimestamp : parseInt timestamp.units = some seconds)
    (hinside : v.outsideTolerance wholeNumbers now seconds = false)
    (hcontent : signedContent id.units (wholeNumbers.text seconds) body = content) :
    AcceptedOn wholeNumbers hmac v now
      (webhookHeaders id timestamp (macHeader (hmac key content))) body id.units seconds
      (macEntry (hmac key content)) := by
  generalize hmacs : hmac key content = mac
  rw [← hcontent] at hmacs
  have hseconds : wholeNumbers.ofText timestamp.units = .Finite seconds := by
    show ((parseInt timestamp.units).map Number.Finite).getD .NaN = _
    rw [htimestamp]
    rfl
  have hpresented : presented (macEntry mac) = [mac] := by
    rw [presented, macEntry_splitOn, List.filterMap_cons_some (entryBytes_macEntry mac),
      List.filterMap_nil]
  refine ⟨?_, ⟨_, ⟨rfl, ⟨_, _, rfl, hseconds, rfl⟩, ⟨_, rfl, rfl⟩⟩, ?_⟩, ⟨key, hkey, ?_⟩⟩
  · refine (v.verify_eq_true wholeNumbers hmac rfl rfl rfl hseconds).mpr ⟨hinside, key, hkey, ?_⟩
    show _ ∈ presented (macEntry mac)
    rw [hpresented]
    exact List.mem_singleton.mpr hmacs
  · show _ ∈ (macEntry mac).splitOn 0x20
    rw [macEntry_splitOn]
    exact List.mem_singleton_self _
  · rw [hmacs]
    exact entryBytes_macEntry mac

def headerValue (s : String)
    (h : (js s).all (fun u => u ≤ 0xff ∧ u ≠ 0x00 ∧ u ≠ 0x0a ∧ u ≠ 0x0d)
      ∧ Unicode.trim isHttpWhitespace (js s) = js s) : HeaderValue :=
  ⟨js s, List.all_iff_forall_prop.mp h.1, h.2⟩

/-- A verifier with one secret and the default tolerance. -/
def oneSecret : Verifier ℤ := ⟨[List.replicate 18 1], .Finite 300000⟩

/-- A verifier that takes timestamps of any age. -/
def anyAge : Verifier ℤ := ⟨[List.replicate 18 1], .Infinite false⟩

/-- The content of two deliveries each. -/
def movedDot : List UInt8 := Go.ascii "a.1700000000.1700000001.rest"

def movedPoint : List UInt8 := Go.ascii "a.1.5e+21.rest"

/-- **One entry, two deliveries.**  Whatever the MAC is, an entry for the id `a` is also one for the id
`a.1700000000`, a second later and with the rest of the body.  Where a timestamp may have any age, one
above 10²¹ is taken for the timestamp 1 and a longer body. -/
theorem signed_content_ambiguous :
    (¬ ∃ hmac : Hmac, ∀ (now : Number ℤ) (headers headers' : Headers) (body body' : List UInt8)
        (id id' : JsString) (seconds seconds' : ℤ) (entry : JsString),
        AcceptedOn wholeNumbers hmac oneSecret now headers body id seconds entry →
        AcceptedOn wholeNumbers hmac oneSecret now headers' body' id' seconds' entry →
        id = id' ∧ body = body')
      ∧ ¬ ∃ hmac : Hmac, ∀ (now : Number ℤ) (headers headers' : Headers) (body body' : List UInt8)
        (id : JsString) (seconds seconds' : ℤ) (entry : JsString),
        AcceptedOn wholeNumbers hmac anyAge now headers body id seconds entry →
        AcceptedOn wholeNumbers hmac anyAge now headers' body' id seconds' entry →
        body = body' := by
  constructor
  · rintro ⟨hmac, hbinds⟩
    have hfirst := accepted_macHeader hmac oneSecret List.mem_cons_self (.Finite 1700000000000)
      (headerValue "a" (by decide +kernel)) (headerValue "1700000000" (by decide +kernel))
      1700000000 (Go.ascii "1700000001.rest") movedDot (by decide +kernel) (by decide +kernel)
      (by decide +kernel)
    have hsecond := accepted_macHeader hmac oneSecret List.mem_cons_self (.Finite 1700000000000)
      (headerValue "a.1700000000" (by decide +kernel))
      (headerValue "1700000001" (by decide +kernel)) 1700000001 (Go.ascii "rest") movedDot
      (by decide +kernel) (by decide +kernel) (by decide +kernel)
    exact absurd (hbinds _ _ _ _ _ _ _ _ _ _ hfirst hsecond).1 (by decide +kernel)
  · rintro ⟨hmac, hbinds⟩
    have hfirst := accepted_macHeader hmac anyAge List.mem_cons_self (.Finite 1700000000000)
      (headerValue "a" (by decide +kernel))
      (headerValue "1500000000000000000000" (by decide +kernel)) 1500000000000000000000
      (Go.ascii "rest") movedPoint (by decide +kernel) (by decide +kernel) (by decide +kernel)
    have hsecond := accepted_macHeader hmac anyAge List.mem_cons_self (.Finite 1700000000000)
      (headerValue "a" (by decide +kernel)) (headerValue "1" (by decide +kernel)) 1
      (Go.ascii "5e+21.rest") movedPoint (by decide +kernel) (by decide +kernel)
      (by decide +kernel)
    exact absurd (hbinds _ _ _ _ _ _ _ _ _ hfirst hsecond) (by decide +kernel)

/-! ## A golden delivery -/

/-- The delivery of the known answer: the id, the timestamp, the body. -/
def goldenContent : List UInt8 := Go.ascii "msg_1.1700000000.\x7b\"a\":1\x7d"

def goldenMac : List UInt8 :=
  (atob (js "g9EIBBIwm31AQEkP7q60DV8jDWYbrjV7TTZJL+PIcMo=")).getD []

/-- A MAC with the known answer. -/
def goldenHmac : Hmac := fun _ m => if m = goldenContent then goldenMac else 0x00 :: m

lemma goldenHmac_injectiveOn (keys : List (List UInt8)) : InjectiveOn goldenHmac keys := by
  have hfirst : goldenMac.head? = some 0x83 := by decide +kernel
  have hother : ∀ m : List UInt8, goldenMac ≠ 0x00 :: m := by
    intro m h
    rw [h] at hfirst
    exact absurd hfirst (by simp)
  intro key _ key' _ m m' h
  rw [goldenHmac, goldenHmac] at h
  split_ifs at h with hm hm'
  · rw [hm, hm']
  · exact absurd h (hother m')
  · exact absurd h.symm (hother m)
  · exact (List.cons.inj h).2

def goldenBody : List UInt8 := Go.ascii "\x7b\"a\":1\x7d"

def goldenId : HeaderValue := headerValue "msg_1" (by decide +kernel)

def goldenHeaders (timestamp : HeaderValue) : Headers := webhookHeaders goldenId timestamp (macHeader goldenMac)

lemma goldenHeaders_accepted (now : Number ℤ) (timestamp : HeaderValue)
    (htimestamp : parseInt timestamp.units = some 1700000000)
    (hinside : oneSecret.outsideTolerance wholeNumbers now 1700000000 = false) :
    AcceptedOn wholeNumbers goldenHmac oneSecret now (goldenHeaders timestamp) goldenBody
      (js "msg_1") 1700000000 (macEntry goldenMac) := by
  have hmac : goldenHmac (List.replicate 18 1) goldenContent = goldenMac := by decide +kernel
  have haccepted := accepted_macHeader goldenHmac oneSecret List.mem_cons_self now
    goldenId timestamp 1700000000 goldenBody goldenContent htimestamp
    hinside (by decide +kernel)
  rwa [hmac] at haccepted

/-- The whole numbers for floats: their texts are decimal. -/
def Go.wholeFloats : Go.StandardWebhooks.Floats ℤ where
  parseFloat text := (parseInt (text.map fun b => b.toUInt16)).map .Finite
  truncate z := z

/-- The entry of the known answer. -/
def Go.goldenEntry : Go.GoString := ascii "v1,g9EIBBIwm31AQEkP7q60DV8jDWYbrjV7TTZJL+PIcMo="

def Go.goldenHeader (timestamp : Go.GoString) : Go.Header where
  rows := [(ascii "Webhook-Id", [ascii "msg_1"]), (ascii "Webhook-Timestamp", [timestamp]),
    (ascii "Webhook-Signature", [goldenEntry])]
  nodup := by
    show [ascii "Webhook-Id", ascii "Webhook-Timestamp", ascii "Webhook-Signature"].Nodup
    decide +kernel

/-- The same secret and tolerance in Go. -/
def Go.oneSecret : Go.StandardWebhooks.Verifier := ⟨[List.replicate 18 1], Go.StandardWebhooks.defaultTolerance⟩

lemma Go.goldenHeader_get (timestamp : Go.GoString) :
    (goldenHeader timestamp).get (ascii "webhook-id") = ascii "msg_1"
      ∧ (goldenHeader timestamp).get (ascii "webhook-timestamp") = timestamp
      ∧ (goldenHeader timestamp).get (ascii "webhook-signature") = goldenEntry := ⟨rfl, rfl, rfl⟩

lemma Go.goldenHeader_accepted (now : ℤ) (timestamp : Go.GoString)
    (htimestamp : wholeFloats.parseFloat timestamp = some (.Finite 1700000000)) (hne : timestamp ≠ [])
    (hinside : oneSecret.outsideTolerance now 1700000000 = false) :
    Go.StandardWebhooks.AcceptedOn wholeFloats goldenHmac oneSecret now (goldenHeader timestamp) goldenBody
      (ascii "msg_1") 1700000000 goldenEntry := by
  obtain ⟨hid, hget, hsig⟩ := goldenHeader_get timestamp
  have hmac : goldenHmac (List.replicate 18 1)
      (Go.StandardWebhooks.signedContent (ascii "msg_1") (Go.StandardWebhooks.formatInt 1700000000) goldenBody)
        = goldenMac := by decide +kernel
  refine ⟨?_, ⟨_, ⟨hid, ⟨1700000000, by rw [hget]; exact htimestamp, rfl⟩, rfl⟩, ?_⟩,
    ⟨_, List.mem_singleton_self _, ?_⟩⟩
  · refine (oneSecret.verify_eq_ok wholeFloats goldenHmac now hid hget hsig).mpr
      ⟨⟨by decide, hne⟩, 1700000000, htimestamp, hinside, _, List.mem_singleton_self _, ?_⟩
    have hpresented : goldenMac ∈ Go.StandardWebhooks.presented goldenEntry := by decide +kernel
    exact hmac ▸ hpresented
  · rw [hsig]
    decide +kernel
  · rw [hmac]
    decide +kernel

/-- The golden delivery, with two spellings of its timestamp and two clock readings, in both languages. -/
theorem signed_content_binds_golden :
    (∃ now now' headers headers',
      AcceptedOn wholeNumbers goldenHmac oneSecret now headers goldenBody (js "msg_1") 1700000000
        (macEntry goldenMac)
      ∧ AcceptedOn wholeNumbers goldenHmac oneSecret now' headers' goldenBody (js "msg_1") 1700000000
        (macEntry goldenMac)
      ∧ headers.get (js "webhook-timestamp") ≠ headers'.get (js "webhook-timestamp")
      ∧ ((js "msg_1" = js "msg_1" ∧ wholeNumbers.text 1700000000 = wholeNumbers.text 1700000000
          ∧ goldenBody = goldenBody)
        ∨ Straddles 0x2e (js "msg_1") (wholeNumbers.text 1700000000) (js "msg_1")
        ∨ Straddles 0x2e (js "msg_1") (wholeNumbers.text 1700000000) (js "msg_1")))
    ∧ ∃ now now' h h' entry,
      Go.StandardWebhooks.AcceptedOn Go.wholeFloats goldenHmac Go.oneSecret now h goldenBody (Go.ascii "msg_1")
        1700000000 entry
      ∧ Go.StandardWebhooks.AcceptedOn Go.wholeFloats goldenHmac Go.oneSecret now' h' goldenBody (Go.ascii "msg_1")
        1700000000 entry
      ∧ h.get (Go.ascii "webhook-timestamp") ≠ h'.get (Go.ascii "webhook-timestamp")
      ∧ ((Go.ascii "msg_1" = Go.ascii "msg_1" ∧ (1700000000 : ℤ) = 1700000000 ∧ goldenBody = goldenBody)
        ∨ Straddles 0x2e (Go.ascii "msg_1") (Go.StandardWebhooks.formatInt 1700000000) (Go.ascii "msg_1")
        ∨ Straddles 0x2e (Go.ascii "msg_1") (Go.StandardWebhooks.formatInt 1700000000) (Go.ascii "msg_1")) := by
  have hfirst := goldenHeaders_accepted (.Finite 1700000000000)
    (headerValue "1700000000" (by decide +kernel)) (by decide +kernel) (by decide +kernel)
  have hsecond := goldenHeaders_accepted (.Finite 1700000001000)
    (headerValue "01700000000" (by decide +kernel)) (by decide +kernel) (by decide +kernel)
  have hgoFirst := Go.goldenHeader_accepted 1700000000000000000 (Go.ascii "1700000000")
    (by decide +kernel) (by decide) (by decide +kernel)
  have hgoSecond := Go.goldenHeader_accepted 1700000001000000000 (Go.ascii "01700000000")
    (by decide +kernel) (by decide) (by decide +kernel)
  refine ⟨⟨_, _, _, _, hfirst, hsecond, by decide +kernel, ?_⟩,
    ⟨_, _, _, _, _, hgoFirst, hgoSecond, by decide +kernel, ?_⟩⟩
  · exact (signed_content_binds goldenHmac).1 wholeNumbers oneSecret _ _ _ _ _ _ _ _ _ _ _
      (goldenHmac_injectiveOn _) hfirst hsecond (Or.inr (by decide +kernel)) (Or.inr (by decide +kernel))
  · exact (signed_content_binds goldenHmac).2 Go.wholeFloats Go.oneSecret _ _ _ _ _ _ _ _ _ _ _
      (goldenHmac_injectiveOn _) hgoFirst hgoSecond

end Anyonce
