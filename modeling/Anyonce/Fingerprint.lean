import Anyonce.Go.Jcs

/-!
# Request fingerprints

`requestFingerprint` of `packages/core/src/http/request.ts` and `fingerprint` of
`go/httpmw/request.go` in the mode `jcs`: the SHA-256 of the method, the path and the canonical form of
the body, or of the body as it is where that has none.  What is hashed is modelled here; the digest is
left out.

**One domain for two encodings.**  A canonical form and a raw body share the place they are hashed in.
They never meet: a canonical form is a body that has itself as its canonical form, so
`fallback_eq_iff` applies.

**Repairs.**  The decoders are lenient.  The `TextDecoder` drops a byte order mark and puts U+FFFD for
what is no UTF-8, and Go puts U+FFFD for that and for a surrogate escape that is no part of a pair.
So bodies that are no JSON can have a canonical form, and share it.

* `fingerprints_distinguish` — these repairs are the only way two payloads are confused.
* `malformed_bodies_collide` — two bodies they do confuse.
-/

namespace Anyonce

open NumberText JsonText JsonTree Unicode
open Ecma (isLead isTrail shortEscape hexDigit)

/-! ## The code -/

/-- Whether a body is hashed as it is or in its canonical form. -/
inductive FingerprintMode
  | Body
  | Jcs

section

variable {F : Type} (d : Doubles F)

/-- What `httpFingerprint` hashes. -/
def httpPreimage (method path : JsString) (body : List UInt8) : List UInt8 :=
  encode (method ++ 0x0A :: (path ++ [0x0A])) ++ body

/-- `canonicalize(JSON.parse(decoder.decode(body)))`, where nothing is thrown. -/
def canonicalBody (body : List UInt8) : Option JsString :=
  match jsonParse d (utf16 (decode body)) with
  | none => none
  | some value => (canonicalize d (toJs value)).toOption

/-- What `requestFingerprint` hashes. -/
def requestPreimage (mode : FingerprintMode) (method path : JsString) (body : List UInt8) :
    List UInt8 :=
  match mode with
  | .Body => httpPreimage method path body
  | .Jcs =>
      match canonicalBody d body with
      | some canonical => encode (method ++ 0x0A :: (path ++ 0x0A :: canonical))
      | none => httpPreimage method path body

end

namespace Go

variable {F : Type} (d : Doubles F)

/-- What `HTTPFingerprint` hashes. -/
def httpPreimage (method path : GoString) (body : List UInt8) : List UInt8 :=
  method ++ [0x0A] ++ path ++ [0x0A] ++ body

/-- The body unmarshalled and canonicalized, where neither is an error. -/
def canonicalBody (body : List UInt8) : Option GoString :=
  match unmarshal d body with
  | none => none
  | some value => (canonicalize d value).toOption

/-- What `fingerprint` hashes. -/
def fingerprintPreimage (mode : FingerprintMode) (method path : GoString) (body : List UInt8) :
    List UInt8 :=
  match mode with
  | .Body => httpPreimage method path body
  | .Jcs =>
      match canonicalBody d body with
      | some canonical => method ++ [0x0A] ++ path ++ [0x0A] ++ canonical
      | none => httpPreimage method path body

end Go

/-! ## What bodies mean -/

section

variable {F : Type} (d : Doubles F)

/-- The body is JSON in UTF-8, and denotes the value. -/
def Denotes (body : List UInt8) (v : JsonTree (Number F) JsString) : Prop :=
  ∃ cs, body = utf8 cs ∧ jsonParse d (utf16 cs) = some v

/-- The bodies are JSON in UTF-8 of one value. -/
def SameJson (body body' : List UInt8) : Prop :=
  ∃ v v', Denotes d body v ∧ Denotes d body' v' ∧ SameValue d v v'

/-- The bytes are the encoding of some text. -/
def IsUtf8 (body : List UInt8) : Prop := ∃ cs, body = utf8 cs

/-- Nothing the `TextDecoder` repairs: UTF-8 without a byte order mark. -/
def Clean (body : List UInt8) : Prop := ∃ cs, body = utf8 cs ∧ ¬ Marked cs

/-- Every number that counts is finite. -/
def Bounded (v : JsonTree (Number F) JsString) : Prop := ∃ w, canonical unitKey v = finite w

/-- The texts the bodies are decoded to denote one value. -/
def Merged (body body' : List UInt8) : Prop :=
  ∃ v v', jsonParse d (utf16 (decode body)) = some v ∧ jsonParse d (utf16 (decode body')) = some v'
    ∧ Bounded v ∧ SameValue d v v'

/-- The strings of a Go value as code units. -/
def Go.units (v : JsonTree (Number F) GoString) : JsonTree (Number F) JsString :=
  v.map id fun s => utf16 (runes s)

/-- The bodies are unmarshalled to one value. -/
def Go.Merged (body body' : List UInt8) : Prop :=
  ∃ v v', Go.unmarshal d body = some v ∧ Go.unmarshal d body' = some v'
    ∧ SameValue d (Go.units v) (Go.units v')

/-- The bodies are JSON of one value as they are written, every surrogate kept. -/
def Go.SameWritten (body body' : List UInt8) : Prop :=
  ∃ v v', jsonParse d (utf16 (runes body)) = some v ∧ jsonParse d (utf16 (runes body')) = some v'
    ∧ SameValue d v v'

/-- Nothing the Go decoder repairs: JSON in UTF-8 in which every surrogate escape is part of a pair. -/
def Go.Clean (body : List UInt8) : Prop :=
  ∃ v : JsonTree (Number F) (List Char), Denotes d body (v.map id utf16)

end

/-! ## A normal form with a fallback -/

section Fallback

variable {B T : Type} (norm : B → Option T) (text : T → B)

/-- The normal form of what has one, and the rest as it is. -/
def fallback (b : B) : B := ((norm b).map text).getD b

/-- **Values are only confused when they have one normal form**, provided a normal form is its own. -/
lemma fallback_eq_iff (hnorm : ∀ b t, norm b = some t → norm (text t) = some t) (b b' : B) :
    fallback norm text b = fallback norm text b' ↔ b = b' ∨ ∃ t, norm b = some t ∧ norm b' = some t := by
  constructor
  · intro h
    rw [fallback, fallback] at h
    cases hb : norm b with
    | none =>
        cases hb' : norm b' with
        | none => exact .inl (by simpa [hb, hb'] using h)
        | some t' =>
            have hraw : b = text t' := by simpa [hb, hb'] using h
            rw [hraw, hnorm b' t' hb'] at hb
            cases hb
    | some t =>
        cases hb' : norm b' with
        | none =>
            have hraw : text t = b' := by simpa [hb, hb'] using h
            rw [← hraw, hnorm b t hb] at hb'
            cases hb'
        | some t' =>
            have htext : text t = text t' := by simpa [hb, hb'] using h
            have ht : norm (text t) = some t' := by rw [htext, hnorm b' t' hb']
            rw [hnorm b t hb, Option.some.injEq] at ht
            exact .inr ⟨t, rfl, by rw [ht]⟩
  · rintro (rfl | ⟨t, hb, hb'⟩)
    · rfl
    · rw [fallback, fallback, hb, hb']
      rfl

end Fallback

/-! ## Values with numbers that are not finite -/

section

variable {F : Type} (d : Doubles F)

lemma serializeItems_congr {items items' : List (JsValue F)}
    (h : items.map (serialize d) = items'.map (serialize d)) :
    serializeItems d (items.map some) = serializeItems d (items'.map some) := by
  induction items generalizing items' with
  | nil =>
      obtain rfl : items' = [] := by simpa using h.symm
      rfl
  | cons v items ih =>
      obtain ⟨v', rest, rfl, hv, hrest⟩ := List.map_eq_cons_iff.mp h.symm
      rw [List.map_cons, List.map_cons, serializeItems, serializeItems, hv, ih hrest.symm]

lemma serializeItems_mem {items : List (JsValue F)} {texts : List JsString}
    (h : serializeItems d (items.map some) = .ok texts) :
    ∀ v ∈ items, ∃ text, serialize d v = .ok text := by
  induction items generalizing texts with
  | nil => simp
  | cons v items ih =>
      rw [List.map_cons, serializeItems] at h
      cases hv : serialize d v with
      | error e =>
          rw [hv] at h
          cases h
      | ok text =>
          cases hrest : serializeItems d (items.map some) with
          | error e =>
              rw [hv, hrest] at h
              cases h
          | ok rest =>
              intro w hw
              rcases List.mem_cons.mp hw with rfl | hw
              · exact ⟨text, hv⟩
              · exact ih hrest w hw

lemma mapM_mem {ε β : Type} {l : List (Except ε β)} {r : List β} (h : l.mapM id = .ok r) :
    ∀ x ∈ l, ∃ y, x = .ok y := by
  induction l generalizing r with
  | nil => simp
  | cons x l ih =>
      rw [List.mapM_cons] at h
      cases x with
      | error e => cases h
      | ok y =>
          cases hrest : l.mapM id with
          | error e =>
              rw [hrest] at h
              cases h
          | ok rest =>
              intro z hz
              rcases List.mem_cons.mp hz with rfl | hz
              · exact ⟨y, rfl⟩
              · exact ih hrest z hz

lemma toJs_arr (items : List (JsonTree (Number F) JsString)) :
    toJs (.Arr items) = .Array ((items.map toJs).map some) := by
  rw [toJs, fold_arr]

lemma toJs_obj (members : List (JsString × JsonTree (Number F) JsString)) :
    toJs (.Obj members) = .Record (members.map (Prod.map id toJs)) := by
  rw [toJs, fold_obj]

/-- What the properties of an object of `JSON.parse` are written as. -/
lemma serializeMembers_toJs (members : List (JsString × JsonTree (Number F) JsString)) :
    serializeMembers d (members.map (Prod.map id toJs))
      = members.map (Prod.map id fun v => some (serialize d (toJs v))) := by
  rw [serializeMembers_eq, List.map_map]
  refine List.map_congr_left fun m _ => ?_
  simp only [Function.comp, Prod.map, isUndefined_toJs]
  rfl

/-- **Only what counts is written.** -/
lemma serialize_canonical (v : JsonTree (Number F) JsString) :
    serialize d (toJs (canonical unitKey v)) = serialize d (toJs v) := by
  induction v using induction with
  | Null => simp [canonical]
  | Boolean b => simp [canonical]
  | Num n => simp [canonical]
  | Str s => simp [canonical]
  | Arr items ih =>
      have hitems : ((items.map (canonical unitKey)).map toJs).map (serialize d)
          = (items.map toJs).map (serialize d) := by
        simp only [List.map_map]
        exact List.map_congr_left ih
      rw [canonical_arr, toJs_arr, toJs_arr, serialize, serialize, serializeItems_congr d hitems]
  | Obj members ih =>
      have hmembers : ordered unitKey ((ordered unitKey (members.map
            (Prod.map id (canonical unitKey)))).map
            (Prod.map id fun v => some (serialize d (toJs v))))
          = ordered unitKey (members.map (Prod.map id fun v => some (serialize d (toJs v)))) := by
        rw [← ordered_values, List.map_map]
        have hsame : members.map (Prod.map id (fun v => some (serialize d (toJs v)))
              ∘ Prod.map id (canonical unitKey))
            = members.map (Prod.map id fun v => some (serialize d (toJs v))) :=
          List.map_congr_left fun m hm => Prod.ext rfl (congrArg some (ih m hm))
        rw [hsame]
        exact ordered_congr unitKey_injective fun name => last_ordered unitKey _ name
      rw [canonical_obj, toJs_obj, toJs_obj, serialize, serialize, serializeMembers_toJs,
        serializeMembers_toJs, hmembers]

/-- What is written has finite numbers. -/
lemma serialize_finite {v : JsonTree (Number F) JsString} {text : JsString}
    (h : serialize d (toJs v) = .ok text) :
    (canonical unitKey v).All (fun n => ∃ f, n = .Finite f) fun _ => True := by
  induction v using induction generalizing text with
  | Null => simp [canonical]
  | Boolean b => simp [canonical]
  | Num n =>
      cases n with
      | Finite f => simp [canonical]
      | Infinite negative => simp [toJs, serialize] at h
      | NaN => simp [toJs, serialize] at h
  | Str s => simp [canonical]
  | Arr items ih =>
      rw [toJs_arr, serialize] at h
      cases hitems : serializeItems d ((items.map toJs).map some) with
      | error e =>
          rw [hitems] at h
          cases h
      | ok texts =>
          rw [canonical_arr, all_arr]
          intro w hw
          obtain ⟨v, hv, rfl⟩ := List.mem_map.mp hw
          obtain ⟨text, htext⟩ := serializeItems_mem d hitems (toJs v) (List.mem_map_of_mem hv)
          exact ih v hv htext
  | Obj members ih =>
      rw [toJs_obj, serialize, serializeMembers_toJs, ordered_values] at h
      cases htexts : (((ordered unitKey members).map (Prod.map id fun v =>
          some (serialize d (toJs v)))).filterMap fun m =>
          m.2.map fun text => text.map fun text => Ecma.quote m.1 ++ 0x3A :: text).mapM id with
      | error e =>
          simp only [htexts] at h
          cases h
      | ok texts =>
          rw [canonical_obj, ordered_values, all_obj]
          intro w hw
          obtain ⟨m, hm, rfl⟩ := List.mem_map.mp hw
          have hmem := mem_of_last ((mem_ordered unitKey members m).mp hm)
          have hwritten : ((serialize d (toJs m.2)).map fun text => Ecma.quote m.1 ++ 0x3A :: text)
              ∈ ((ordered unitKey members).map (Prod.map id fun v =>
                some (serialize d (toJs v)))).filterMap fun m =>
                m.2.map fun text => text.map fun text => Ecma.quote m.1 ++ 0x3A :: text :=
            List.mem_filterMap.mpr ⟨_, List.mem_map_of_mem hm, rfl⟩
          obtain ⟨line, hline⟩ := mapM_mem htexts _ hwritten
          cases htext : serialize d (toJs m.2) with
          | error e =>
              rw [htext] at hline
              cases hline
          | ok text => exact ⟨trivial, ih m hmem htext⟩

/-- **A value has a canonical text exactly when its numbers that count are finite.** -/
theorem canonicalize_ok_iff (v : JsonTree (Number F) JsString) (text : JsString) :
    canonicalize d (toJs v) = .ok text
      ↔ ∃ w, canonical unitKey v = finite w ∧ text = write (canonicalSource d w) := by
  rw [canonicalize, ← serialize_canonical]
  constructor
  · intro h
    have hfinite := serialize_finite d ((serialize_canonical d v).symm.trans h)
    obtain ⟨w, hw⟩ := (Go.finiteNumbers_iff d _).mp ((Go.finiteNumbers_all _).mpr hfinite)
    rw [hw, ← finite, serialize_toJs, Except.ok.injEq] at h
    exact ⟨w, hw, h.symm⟩
  · rintro ⟨w, hw, rfl⟩
    rw [hw, serialize_toJs]

lemma sameValue_canonical (v v' : JsonTree (Number F) JsString) :
    SameValue d (canonical unitKey v) (canonical unitKey v') ↔ SameValue d v v' := by
  have hcanonical : ∀ w, (unsigned d (canonical unitKey w)).meaning = (unsigned d w).meaning := by
    intro w
    rw [unsigned, ← canonical_numbers, meaning_canonical, ← unsigned]
  rw [SameValue, SameValue, hcanonical, hcanonical]

end

/-! ## Canonical texts are texts

A surrogate that is not part of a pair is written as an escape, so what is written has none. -/

/-- A code unit outside a pair, as a piece of a text. -/
def unitPiece (u : UInt16) : Piece Char :=
  match escapePiece u with
  | .Raw u => .Raw (single u)
  | .Short e => .Short e
  | .Hex a b c e => .Hex a b c e

/-- A string as `JSON.stringify` writes it, as a text. -/
def textPieces : JsString → List (Piece Char)
  | [] => []
  | [u] => [unitPiece u]
  | u :: v :: rest =>
      if isLead u && isTrail v then .Raw (pair u v) :: textPieces rest
      else unitPiece u :: textPieces (v :: rest)

lemma toNat_single {u : UInt16} (hlead : isLead u = false) (htrail : isTrail u = false) :
    (single u).toNat = u.toNat := by
  have hu : u.toNat < 65536 := u.toNat_lt
  rw [← Bool.not_eq_true, isLead_iff] at hlead
  rw [← Bool.not_eq_true, isTrail_iff] at htrail
  rw [single, if_neg (by simp [isLead_iff, isTrail_iff]; omega)]
  refine toNat_ofNat ?_
  simp only [Nat.isValidChar]
  omega

lemma toNat_pair {u v : UInt16} (hu : isLead u = true) (hv : isTrail v = true) :
    (pair u v).toNat = 0x10000 + (u.toNat - 0xD800) * 0x400 + (v.toNat - 0xDC00) := by
  rw [isLead_iff] at hu
  rw [isTrail_iff] at hv
  refine toNat_ofNat ?_
  simp only [Nat.isValidChar]
  omega

/-- A unit that is written as it is, is no surrogate. -/
lemma escapePiece_raw {u u' : UInt16} (h : escapePiece u = .Raw u') :
    u' = u ∧ isLead u = false ∧ isTrail u = false := by
  rw [escapePiece] at h
  cases hs : shortEscape u with
  | some e =>
      rw [hs] at h
      cases h
  | none =>
      rw [hs] at h
      dsimp only at h
      split_ifs at h with hesc
      simp only [Bool.or_eq_true, not_or, Bool.not_eq_true] at hesc
      exact ⟨(Piece.Raw.inj h).symm, hesc.1.2, hesc.2⟩

lemma expandPiece_unitPiece (u : UInt16) : expandPiece utf16Char (unitPiece u) = [escapePiece u] := by
  cases h : escapePiece u with
  | Raw u' =>
      obtain ⟨rfl, hlead, htrail⟩ := escapePiece_raw h
      have hnat := toNat_single hlead htrail
      have hlt : u'.toNat < 0x10000 := u'.toNat_lt
      rw [unitPiece, h]
      simp only [expandPiece, utf16Char, hnat, if_pos hlt, List.map_singleton, UInt16.ofNat_toNat]
  | Short e => simp [unitPiece, h, expandPiece]
  | Hex a b c e => simp [unitPiece, h, expandPiece]

/-- **In UTF-16 the text is the one that is written.** -/
lemma expandPieces_textPieces (s : JsString) :
    expandPieces utf16Char (textPieces s) = quotePieces s := by
  induction s using textPieces.induct with
  | case1 => rfl
  | case2 u => simp [textPieces, quotePieces, expandPieces, expandPiece_unitPiece]
  | case3 u v rest hpair ih =>
      have hpair' := Bool.and_eq_true_iff.mp hpair
      have hnat := toNat_pair hpair'.1 hpair'.2
      have hu := (isLead_iff u).mp hpair'.1
      have hv := (isTrail_iff v).mp hpair'.2
      have hunits : utf16Char (pair u v) = [u, v] := by
        rw [utf16Char, if_neg (by omega), hnat]
        rw [show 0xD800 + (0x10000 + (u.toNat - 0xD800) * 0x400 + (v.toNat - 0xDC00) - 0x10000) / 0x400
            = u.toNat by omega,
          show 0xDC00 + (0x10000 + (u.toNat - 0xD800) * 0x400 + (v.toNat - 0xDC00) - 0x10000) % 0x400
            = v.toNat by omega, UInt16.ofNat_toNat, UInt16.ofNat_toNat]
      rw [textPieces, quotePieces, if_pos hpair, if_pos hpair, expandPieces, List.flatMap_cons,
        ← expandPieces, ih, expandPiece, hunits]
      rfl
  | case4 u v rest hpair ih =>
      rw [textPieces, quotePieces, if_neg hpair, if_neg hpair, expandPieces, List.flatMap_cons,
        ← expandPieces, ih, expandPiece_unitPiece, List.singleton_append]

lemma unitPiece_valid (u : UInt16) : (unitPiece u).Valid := by
  have hvalid := escapePiece_valid u
  rw [unitPiece]
  cases h : escapePiece u with
  | Raw u' =>
      obtain ⟨rfl, hlead, htrail⟩ := escapePiece_raw h
      rw [h] at hvalid
      have hnat : ord (single u') = ord u' := toNat_single hlead htrail
      simp only [Piece.Valid, hnat]
      exact hvalid
  | Short e =>
      rw [h] at hvalid
      exact hvalid
  | Hex a b c e =>
      rw [h] at hvalid
      exact hvalid

lemma textPieces_valid (s : JsString) : ∀ p ∈ textPieces s, p.Valid := by
  induction s using textPieces.induct with
  | case1 => simp [textPieces]
  | case2 u => simpa [textPieces] using unitPiece_valid u
  | case3 u v rest hpair ih =>
      have hpair' := Bool.and_eq_true_iff.mp hpair
      have hnat : ord (pair u v) = _ := toNat_pair hpair'.1 hpair'.2
      rw [textPieces, if_pos hpair]
      intro p hp
      rcases List.mem_cons.mp hp with rfl | hp
      · simp only [Piece.Valid, hnat]
        omega
      · exact ih p hp
  | case4 u v rest hpair ih =>
      rw [textPieces, if_neg hpair]
      intro p hp
      rcases List.mem_cons.mp hp with rfl | hp
      · exact unitPiece_valid u
      · exact ih p hp

section

variable {F : Type} (d : Doubles F)

/-- **A canonical text is the UTF-16 of a text.** -/
lemma canonicalSource_text (w : JsonTree F JsString) :
    ∃ cs, write (canonicalSource d w) = utf16 cs := by
  have hvalid : Valid ((canonical unitKey w).map d.toText textPieces) := by
    rw [Valid, all_map]
    exact all_of_forall d.isNumber_toText textPieces_valid _
  have hsource : canonicalSource d w
      = expand utf16Char ((canonical unitKey w).map d.toText textPieces) := by
    rw [expand, map_map, canonicalSource]
    exact congrArg (fun g => (canonical unitKey w).map d.toText g)
      (funext fun s => (expandPieces_textPieces s).symm)
  refine ⟨write ((canonical unitKey w).map d.toText textPieces), ?_⟩
  rw [hsource, write_expand Go.encoding_utf16 hvalid]
  rfl

/-- Nothing that begins with a byte order mark is JSON. -/
lemma not_marked_of_jsonParse {cs : List Char} {v : JsonTree (Number F) JsString}
    (h : jsonParse d (utf16 cs) = some v) : ¬ Marked cs := by
  intro hmarked
  cases cs with
  | nil => cases hmarked
  | cons c cs =>
      obtain rfl : c = Char.ofNat 0xFEFF := Option.some.inj hmarked
      have hnone : jsonParse d (utf16 (Char.ofNat 0xFEFF :: cs)) = none := rfl
      rw [hnone] at h
      cases h

/-! ## TypeScript -/

include d in
lemma bounded_iff (v : JsonTree (Number F) JsString) :
    Bounded v ↔ (canonical unitKey v).All (fun n => ∃ f, n = .Finite f) fun _ => True := by
  rw [← Go.finiteNumbers_all, Go.finiteNumbers_iff d]
  rfl

/-- Values that are equal have finite numbers at the same places. -/
lemma Bounded.of_same {v v' : JsonTree (Number F) JsString} (h : Bounded v)
    (hsame : SameValue d v v') : Bounded v' := by
  have hunsigned : ∀ w : JsonTree (Number F) JsString,
      (canonical unitKey (unsigned d w)).All (fun n => ∃ f, n = .Finite f) (fun _ => True)
        ↔ (canonical unitKey w).All (fun n => ∃ f, n = .Finite f) fun _ => True := by
    intro w
    have hnumber : ∀ n : Number F, (∃ f, n.map d.unsignZero = .Finite f) ↔ ∃ f, n = .Finite f := by
      intro n
      cases n <;> simp [Number.map]
    rw [unsigned, canonical_numbers, all_map]
    simp only [hnumber]
  rw [bounded_iff d, ← hunsigned] at h ⊢
  rwa [← canonical_congr unitKey_injective hsame]

lemma canonicalBody_eq_some (body : List UInt8) (text : JsString) :
    canonicalBody d body = some text
      ↔ ∃ v w, jsonParse d (utf16 (decode body)) = some v ∧ canonical unitKey v = finite w
        ∧ text = write (canonicalSource d w) := by
  have htoOption : ∀ v, (canonicalize d (toJs v)).toOption = some text
      ↔ canonicalize d (toJs v) = .ok text := by
    intro v
    cases canonicalize d (toJs v) <;> simp [Except.toOption]
  rw [canonicalBody]
  cases jsonParse d (utf16 (decode body)) with
  | none => simp
  | some v => simp [htoOption, canonicalize_ok_iff]

/-- **A canonical form, as a body, has itself as its canonical form.** -/
lemma canonicalBody_encode (body : List UInt8) (text : JsString)
    (h : canonicalBody d body = some text) : canonicalBody d (encode text) = some text := by
  obtain ⟨v, w, -, -, rfl⟩ := (canonicalBody_eq_some d body text).mp h
  obtain ⟨cs, hcs⟩ := canonicalSource_text d w
  have hparse := jsonParse_write d w
  have hmarked : ¬ Marked cs := not_marked_of_jsonParse d (by rw [← hcs]; exact hparse)
  have hparsed : canonical unitKey (canonical unitKey (unsigned d (finite w)))
      = finite ((canonical unitKey w).map d.unsignZero id) := by
    rw [canonical_congr unitKey_injective (meaning_canonical _), unsigned_finite, canonical_numbers,
      finite, map_map]
    rfl
  have hsame : SameValue d (finite ((canonical unitKey w).map d.unsignZero id)) (finite w) := by
    rw [← hparsed, SameValue, unsigned, ← canonical_numbers, meaning_canonical, ← canonical_numbers,
      meaning_canonical, ← unsigned, unsigned_unsigned]
  refine (canonicalBody_eq_some d _ _).mpr ⟨_, _, ?_, hparsed, ?_⟩
  · rw [hcs, encode_utf16, decode_utf8 hmarked, ← hcs]
    exact hparse
  · rw [(canonicalSource_eq_iff d _ w).mpr hsame]

/-- The text after a line break is encoded by itself. -/
lemma scalars_newline (s t : JsString) : scalars (s ++ 0x0A :: t) = scalars s ++ '\n' :: scalars t := by
  have hnewline : scalars (0x0A :: t) = '\n' :: scalars t :=
    scalars_cons fun v _ => by simp [show isLead 0x0A = false from rfl]
  induction s using scalars.induct with
  | case1 => exact hnewline
  | case2 u =>
      rw [List.singleton_append, scalars_cons (by simp [show isTrail 0x0A = false from rfl]), hnewline]
      rfl
  | case3 u v rest hpair ih => rw [List.cons_append, List.cons_append, scalars, if_pos hpair, ih,
      scalars, if_pos hpair, List.cons_append]
  | case4 u v rest hpair ih => rw [List.cons_append, List.cons_append, scalars, if_neg hpair,
      ← List.cons_append, ih, scalars, if_neg hpair, List.cons_append]

lemma encode_line (s t : JsString) : encode (s ++ 0x0A :: t) = encode (s ++ [0x0A]) ++ encode t := by
  rw [encode, encode, encode, scalars_newline, scalars_newline, ← utf8_append, List.append_assoc]
  rfl

lemma requestPreimage_eq (method path : JsString) (body : List UInt8) :
    requestPreimage d .Jcs method path body
      = encode (method ++ 0x0A :: (path ++ [0x0A])) ++ fallback (canonicalBody d) encode body := by
  rw [requestPreimage, fallback]
  cases canonicalBody d body with
  | none => rfl
  | some canonical =>
      have hline := encode_line (method ++ 0x0A :: path) canonical
      simp only [List.append_assoc, List.cons_append] at hline
      exact hline

/-- **TypeScript hashes the same exactly when the bodies are equal or merged.** -/
lemma requestPreimage_eq_iff (method path : JsString) (body body' : List UInt8) :
    requestPreimage d .Jcs method path body = requestPreimage d .Jcs method path body'
      ↔ body = body' ∨ Merged d body body' := by
  rw [requestPreimage_eq, requestPreimage_eq, List.append_cancel_left_eq,
    fallback_eq_iff _ _ (canonicalBody_encode d)]
  refine or_congr_right ?_
  constructor
  · rintro ⟨text, h, h'⟩
    obtain ⟨v, w, hparse, hw, rfl⟩ := (canonicalBody_eq_some d body text).mp h
    obtain ⟨v', w', hparse', hw', htext⟩ := (canonicalBody_eq_some d body' _).mp h'
    have hsource := write_injOn (canonicalSource_valid d w) (canonicalSource_valid d w') htext
    refine ⟨v, v', hparse, hparse', ⟨w, hw⟩, ?_⟩
    rw [← sameValue_canonical, hw, hw', ← canonicalSource_eq_iff, hsource]
  · rintro ⟨v, v', hparse, hparse', hbounded, hsame⟩
    obtain ⟨w', hw'⟩ := hbounded.of_same d hsame
    obtain ⟨w, hw⟩ := hbounded
    have hsource : canonicalSource d w = canonicalSource d w' := by
      rw [canonicalSource_eq_iff, ← hw, ← hw', sameValue_canonical]
      exact hsame
    exact ⟨_, (canonicalBody_eq_some d body _).mpr ⟨v, w, hparse, hw, rfl⟩,
      (canonicalBody_eq_some d body' _).mpr ⟨v', w', hparse', hw', by rw [hsource]⟩⟩

lemma Clean.of_denotes {body : List UInt8} {v : JsonTree (Number F) JsString}
    (h : Denotes d body v) : Clean body := by
  obtain ⟨cs, rfl, hparse⟩ := h
  exact ⟨cs, rfl, not_marked_of_jsonParse d hparse⟩

/-- What a clean body is decoded to is what it denotes. -/
lemma Clean.denotes {body : List UInt8} (h : Clean body) {v : JsonTree (Number F) JsString}
    (hparse : jsonParse d (utf16 (decode body)) = some v) : Denotes d body v := by
  obtain ⟨cs, rfl, hmarked⟩ := h
  rw [decode_utf8 hmarked] at hparse
  exact ⟨cs, rfl, hparse⟩

/-! ## Go -/

namespace Go

lemma unmarshal_eq_some (body : List UInt8) (value : JsonTree (Number F) GoString) :
    unmarshal d body = some value
      ↔ ∃ source, parse body = some source ∧ depth source ≤ maxNestingDepth
        ∧ value = source.map d.read unquote ∧ finiteNumbers value = true := by
  rw [unmarshal, decodeNumbers]
  cases parse body with
  | none => simp
  | some source =>
      have hmap : (source.map id unquote).map d.read id = source.map d.read unquote := by
        rw [map_map]
        rfl
      simp only [Option.bind_eq_bind, Option.bind_some, Option.some.injEq, exists_eq_left']
      split_ifs with hdepth
      · simp only [Option.bind_some, hmap]
        split_ifs with hfinite
        · simp only [Option.some.injEq, hdepth, true_and]
          constructor
          · rintro rfl
            exact ⟨rfl, hfinite⟩
          · exact fun h => h.1.symm
        · simp only [hdepth, true_and, false_iff, not_and]
          rintro rfl
          exact hfinite
      · simp [hdepth]

/-- The value the Go decoder makes of JSON in UTF-8. -/
lemma units_unmarshal {body : List UInt8} {v : JsonTree (Number F) JsString}
    {value : JsonTree (Number F) GoString} (h : Denotes d body v)
    (hvalue : unmarshal d body = some value) : units value = v.map id fun s => utf16 (scalars s) := by
  obtain ⟨cs, rfl, hparse⟩ := h
  obtain ⟨source, hsource, -, rfl, -⟩ := (unmarshal_eq_some d _ value).mp hvalue
  have hutf8 : parse (utf8 cs) = (parse cs).map (expand utf8Char) := parse_expand encoding_utf8 cs
  have hutf16 : parse (utf16 cs) = (parse cs).map (expand utf16Char) := parse_expand encoding_utf16 cs
  rw [hutf8, Option.map_eq_some_iff] at hsource
  obtain ⟨chars, hchars, rfl⟩ := hsource
  rw [jsonParse, hutf16, hchars, Option.map_some, Option.map_some, Option.some.injEq] at hparse
  rw [← hparse, units, expand, expand, map_map, map_map, map_map, map_map]
  refine congrArg (fun g => chars.map d.read g) (funext fun ps => ?_)
  simp only [Function.comp, unquote, runes_utf8, pieceRunes_expand, pieceUnit_expand]

/-- What is unmarshalled is a tree of finite doubles and texts, and is not nested too deep. -/
lemma unmarshal_text {body : List UInt8} {value : JsonTree (Number F) GoString}
    (h : unmarshal d body = some value) :
    ∃ v : JsonTree F (List Char), value = v.map .Finite utf8 ∧ nesting v ≤ maxNestingDepth := by
  obtain ⟨source, -, hdepth, rfl, hfinite⟩ := (unmarshal_eq_some d _ value).mp h
  have hchars : source.map d.read unquote = (source.map d.read (pieceRunes 0)).map id utf8 := by
    rw [map_map]
    rfl
  rw [finiteNumbers_all, hchars, all_map] at hfinite
  obtain ⟨v, hv⟩ := (finiteNumbers_iff d _).mp ((finiteNumbers_all _).mpr hfinite)
  refine ⟨v, ?_, ?_⟩
  · rw [hchars, hv, map_map]
    rfl
  · calc nesting v ≤ depth v := depth_canonical charKey v
      _ = depth (v.map Number.Finite id) := (depth_map _ _ v).symm
      _ = depth source := by rw [← hv, depth_map]
      _ ≤ maxNestingDepth := hdepth

/-- The canonical form of a body, from the value it is unmarshalled to. -/
lemma canonicalBody_text {body : List UInt8} {v : JsonTree F (List Char)}
    (h : unmarshal d body = some (v.map .Finite utf8)) (hdepth : nesting v ≤ maxNestingDepth) :
    canonicalBody d body = some (utf8 (write (canonicalChars d v))) := by
  simp only [canonicalBody, h]
  rw [canonicalize_bytes, if_pos hdepth]
  rfl

lemma canonicalBody_eq_some {body : List UInt8} {text : GoString}
    (h : canonicalBody d body = some text) :
    ∃ v : JsonTree F (List Char), unmarshal d body = some (v.map .Finite utf8)
      ∧ nesting v ≤ maxNestingDepth ∧ text = utf8 (write (canonicalChars d v)) := by
  cases hvalue : unmarshal d body with
  | none => simp [canonicalBody, hvalue] at h
  | some value =>
      obtain ⟨v, rfl, hdepth⟩ := unmarshal_text d hvalue
      rw [canonicalBody_text d hvalue hdepth, Option.some.injEq] at h
      exact ⟨v, rfl, hdepth, h.symm⟩

/-- **The canonical text is unmarshalled to the canonical tree.** -/
lemma unmarshal_canonical {v : JsonTree F (List Char)} (hdepth : nesting v ≤ maxNestingDepth) :
    unmarshal d (utf8 (write (canonicalChars d v)))
      = some (((canonical charKey v).map d.unsignZero id).map .Finite utf8) := by
  have hparse : parse (utf8 (write (canonicalChars d v)))
      = (parse (write (canonicalChars d v))).map (expand utf8Char) := parse_expand encoding_utf8 _
  have hstring : ∀ cs : List Char, unquote (expandPieces utf8Char (cs.map plainChar)) = utf8 cs := by
    intro cs
    have hunits : (cs.map plainChar).flatMap charUnits = utf16 cs := by
      rw [List.flatMap_map, utf16]
      exact List.flatMap_congr fun c _ => charUnits_escapeChar (by rintro ⟨⟩)
    rw [unquote, pieceRunes_expand, hunits, scalars_utf16]
  have hvalue : (expand utf8Char (canonicalChars d v)).map d.read unquote
      = ((canonical charKey v).map d.unsignZero id).map .Finite utf8 := by
    rw [expand, canonicalChars, map_map, map_map, map_map]
    refine congrArg₂ (fun f g => (canonical charKey v).map f g) (funext d.read_toText) (funext hstring)
  refine (unmarshal_eq_some d _ _).mpr ⟨expand utf8Char (canonicalChars d v), ?_, ?_, hvalue.symm, ?_⟩
  · rw [hparse, parse_write (canonicalChars_valid d v), Option.map_some]
  · rw [expand, canonicalChars, depth_map, depth_map]
    exact hdepth
  · rw [finiteNumbers_all, all_map]
    exact all_of_forall (fun f => ⟨f, rfl⟩) (fun _ => trivial) _

/-- **A canonical form, as a body, has itself as its canonical form.** -/
lemma canonicalBody_self (body : List UInt8) (text : GoString)
    (h : canonicalBody d body = some text) : canonicalBody d text = some text := by
  obtain ⟨v, -, hdepth, rfl⟩ := canonicalBody_eq_some d h
  have hcanonical : canonical charKey ((canonical charKey v).map d.unsignZero id)
      = (canonical charKey v).map d.unsignZero id := by
    rw [canonical_numbers, canonical_congr charKey_injective (meaning_canonical v)]
  have hdepth' : nesting ((canonical charKey v).map d.unsignZero id) ≤ maxNestingDepth := by
    rw [nesting, hcanonical, depth_map]
    exact hdepth
  have htext : canonicalChars d ((canonical charKey v).map d.unsignZero id) = canonicalChars d v := by
    rw [canonicalChars, hcanonical, map_map, canonicalChars]
    exact congrArg (fun f => (canonical charKey v).map f (List.map plainChar))
      (funext d.toText_unsignZero)
  rw [canonicalBody_text d (unmarshal_canonical d hdepth) hdepth', htext]

/-- **Values have the same text exactly when they are equal.** -/
lemma canonicalChars_eq_iff (v v' : JsonTree F (List Char)) :
    utf8 (write (canonicalChars d v)) = utf8 (write (canonicalChars d v'))
      ↔ SameValue d (units (v.map .Finite utf8)) (units (v'.map .Finite utf8)) := by
  have hunits : ∀ w : JsonTree F (List Char),
      units (w.map .Finite utf8) = finite (w.map id utf16) := by
    intro w
    rw [units, finite, map_map, map_map]
    exact congrArg (fun g => w.map Number.Finite g)
      (funext fun cs => congrArg utf16 (runes_utf8 cs))
  have htext : ∀ w : JsonTree F (List Char),
      write (canonicalSource d (w.map id utf16)) = utf16 (write (canonicalChars d w)) := by
    intro w
    have h := canonicalize_units d w
    rw [Anyonce.canonicalize, serialize_toJs] at h
    exact Except.ok.inj h
  rw [hunits, hunits, ← canonicalSource_eq_iff, utf8_injective.eq_iff, ← utf16_injective.eq_iff,
    ← htext, ← htext]
  constructor
  · exact write_injOn (canonicalSource_valid d _) (canonicalSource_valid d _)
  · exact congrArg write

lemma fingerprintPreimage_eq (method path : GoString) (body : List UInt8) :
    fingerprintPreimage d .Jcs method path body
      = method ++ [0x0A] ++ path ++ [0x0A] ++ fallback (canonicalBody d) id body := by
  rw [fingerprintPreimage, fallback]
  cases canonicalBody d body with
  | none => rfl
  | some canonical => rfl

/-- **Go hashes the same exactly when the bodies are equal or merged.** -/
lemma fingerprintPreimage_eq_iff (method path : GoString) (body body' : List UInt8) :
    fingerprintPreimage d .Jcs method path body = fingerprintPreimage d .Jcs method path body'
      ↔ body = body' ∨ Merged d body body' := by
  rw [fingerprintPreimage_eq, fingerprintPreimage_eq, List.append_cancel_left_eq,
    fallback_eq_iff (canonicalBody d) id (canonicalBody_self d)]
  refine or_congr_right ?_
  constructor
  · rintro ⟨text, h, h'⟩
    obtain ⟨v, hvalue, -, rfl⟩ := canonicalBody_eq_some d h
    obtain ⟨v', hvalue', -, htext⟩ := canonicalBody_eq_some d h'
    exact ⟨_, _, hvalue, hvalue', (canonicalChars_eq_iff d v v').mp htext⟩
  · rintro ⟨value, value', hvalue, hvalue', hsame⟩
    obtain ⟨v, rfl, hdepth⟩ := unmarshal_text d hvalue
    obtain ⟨v', rfl, hdepth'⟩ := unmarshal_text d hvalue'
    refine ⟨_, canonicalBody_text d hvalue hdepth, ?_⟩
    rw [canonicalBody_text d hvalue' hdepth', (canonicalChars_eq_iff d v v').mpr hsame]

/-- Clean bodies that are merged are JSON of one value. -/
lemma Clean.same {body body' : List UInt8} (h : Clean d body) (h' : Clean d body')
    (hmerged : Merged d body body') : SameJson d body body' := by
  obtain ⟨v, hv⟩ := h
  obtain ⟨v', hv'⟩ := h'
  obtain ⟨value, value', hvalue, hvalue', hsame⟩ := hmerged
  have hkept : ∀ w : JsonTree (Number F) (List Char),
      (w.map id utf16).map id (fun s => utf16 (scalars s)) = w.map id utf16 := by
    intro w
    rw [map_map]
    exact congrArg (fun g => w.map id g) (funext fun cs => congrArg utf16 (scalars_utf16 cs))
  rw [units_unmarshal d hv hvalue, units_unmarshal d hv' hvalue', hkept, hkept] at hsame
  exact ⟨_, _, hv, hv', hsame⟩

lemma denotes_iff (body : List UInt8) (v : JsonTree (Number F) JsString) :
    Denotes d body v ↔ IsUtf8 body ∧ jsonParse d (utf16 (runes body)) = some v := by
  constructor
  · rintro ⟨cs, rfl, hparse⟩
    refine ⟨⟨cs, rfl⟩, ?_⟩
    rw [runes_utf8]
    exact hparse
  · rintro ⟨⟨cs, rfl⟩, hparse⟩
    rw [runes_utf8] at hparse
    exact ⟨cs, rfl, hparse⟩

lemma sameJson_iff (body body' : List UInt8) :
    SameJson d body body' ↔ IsUtf8 body ∧ IsUtf8 body' ∧ SameWritten d body body' := by
  simp only [SameJson, SameWritten, denotes_iff]
  constructor
  · rintro ⟨v, v', ⟨hutf8, hparse⟩, ⟨hutf8', hparse'⟩, hsame⟩
    exact ⟨hutf8, hutf8', v, v', hparse, hparse', hsame⟩
  · rintro ⟨hutf8, hutf8', v, v', hparse, hparse', hsame⟩
    exact ⟨v, v', ⟨hutf8, hparse⟩, ⟨hutf8', hparse'⟩, hsame⟩

end Go

/-! ## Which payloads are distinguished -/

/-- **Repairs are the only way two payloads are confused.**  Whatever method, path and two bodies: that
bodies with the same preimage are equal or JSON of one value, holds exactly when they are not merged by
a repair.  In TypeScript, when bodies whose decoded texts denote one value are UTF-8 without a byte
order mark; in Go, when bodies that are unmarshalled to one value are UTF-8 and denote one value as
they are written. -/
theorem fingerprints_distinguish (method path : JsString) (goMethod goPath : Go.GoString)
    (body body' : List UInt8) :
    ((requestPreimage d .Jcs method path body = requestPreimage d .Jcs method path body'
          → body = body' ∨ SameJson d body body')
        ↔ (Merged d body body' → body = body' ∨ Clean body ∧ Clean body'))
      ∧ ((Go.fingerprintPreimage d .Jcs goMethod goPath body
            = Go.fingerprintPreimage d .Jcs goMethod goPath body'
          → body = body' ∨ SameJson d body body')
        ↔ (Go.Merged d body body'
          → body = body' ∨ IsUtf8 body ∧ IsUtf8 body' ∧ Go.SameWritten d body body')) := by
  rw [requestPreimage_eq_iff, Go.fingerprintPreimage_eq_iff]
  refine ⟨⟨?_, ?_⟩, ⟨?_, ?_⟩⟩
  · intro h hmerged
    refine (h (.inr hmerged)).imp_right ?_
    rintro ⟨v, v', hv, hv', -⟩
    exact ⟨Clean.of_denotes d hv, Clean.of_denotes d hv'⟩
  · rintro h (heq | hmerged)
    · exact .inl heq
    · refine (h hmerged).imp_right ?_
      rintro ⟨hclean, hclean'⟩
      obtain ⟨v, v', hparse, hparse', -, hsame⟩ := hmerged
      exact ⟨v, v', hclean.denotes d hparse, hclean'.denotes d hparse', hsame⟩
  · intro h hmerged
    exact (h (.inr hmerged)).imp_right (Go.sameJson_iff d body body').mp
  · rintro h (heq | hmerged)
    · exact .inl heq
    · exact (h hmerged).imp_right (Go.sameJson_iff d body body').mpr

end

/-- The bodies `"\xff"` and `"\xfe"`, quotes included, are no UTF-8, and are hashed alike. -/
theorem malformed_bodies_collide :
    ¬ (requestPreimage oneDigit .Jcs (js "POST") (js "/x") [0x22, 0xFF, 0x22]
          = requestPreimage oneDigit .Jcs (js "POST") (js "/x") [0x22, 0xFE, 0x22]
        → ([0x22, 0xFF, 0x22] : List UInt8) = [0x22, 0xFE, 0x22]
          ∨ SameJson oneDigit [0x22, 0xFF, 0x22] [0x22, 0xFE, 0x22])
      ∧ ¬ (Go.fingerprintPreimage oneDigit .Jcs (Go.ascii "POST") (Go.ascii "/x") [0x22, 0xFF, 0x22]
          = Go.fingerprintPreimage oneDigit .Jcs (Go.ascii "POST") (Go.ascii "/x") [0x22, 0xFE, 0x22]
        → ([0x22, 0xFF, 0x22] : List UInt8) = [0x22, 0xFE, 0x22]
          ∨ SameJson oneDigit [0x22, 0xFF, 0x22] [0x22, 0xFE, 0x22]) := by
  have hdistinct : ¬ (([0x22, 0xFF, 0x22] : List UInt8) = [0x22, 0xFE, 0x22]
      ∨ SameJson oneDigit [0x22, 0xFF, 0x22] [0x22, 0xFE, 0x22]) := by
    rintro (heq | ⟨v, v', ⟨cs, hcs, -⟩, -⟩)
    · exact absurd heq (by decide)
    · have hrunes : runes [0x22, 0xFF, 0x22] = cs := by rw [hcs, runes_utf8]
      rw [← hrunes] at hcs
      exact absurd hcs (by decide)
  constructor
  · intro h
    exact hdistinct (h (by decide +kernel))
  · intro h
    exact hdistinct (h (by decide +kernel))

end Anyonce
