import Anyonce.Webhook.Clock

/-!
# The two verifiers

`standardWebhooksVerify` and the `Verifier` of Go, constructed from the same secrets and asked about the same
delivery by the same clock.

**Base64.**  What Go decodes, TypeScript decodes to the same bytes (`atob_of_decodeString`).  TypeScript also
skips blanks, tabs and form feeds, and takes a text without its padding.

**Timestamps.**  A decimal numeral is read alike.  What else is a number for one of them is none for the other
(`LooseSeconds.not_float`).

**Ids.**  TypeScript signs the id as a text and Go signs its bytes, which is the same in ASCII
(`signedContent_ascii`); an empty id is no header for Go.

* `verifiers_agree_iff` — they agree exactly when none of these differences decides.
-/

namespace Anyonce.StandardWebhooks

open NumberText Ecma
open Anyonce.Go (GoString)

/-! ## Base64 -/

/-- The units of a text in bytes. -/
def byteUnits (text : GoString) : JsString := text.map UInt8.toUInt16

/-- A character of the alphabet is ASCII, and neither padding nor white space. -/
lemma sextetOfChar_spec {u : UInt16} {v : ℕ} (h : sextetOfChar u = some v) :
    u ≠ pad ∧ isAsciiWhitespace u = false ∧ u.toNat < 0x80 := by
  have hmem : u ∈ alphabet := by
    by_contra hnot
    rw [sextetOfChar, List.idxOf?_eq_none_iff.mpr hnot] at h
    cases h
  have hall : ∀ c ∈ alphabet, c ≠ pad ∧ isAsciiWhitespace c = false ∧ c.toNat < 0x80 :=
    List.all_iff_forall_prop.mp (by decide +kernel)
  exact hall u hmem

/-- A text that is decoded: sextets, and the padding behind them. -/
lemma decodeGroups_spec {data : GoString} {bytes : List UInt8}
    (h : Go.StandardWebhooks.decodeGroups data = some bytes) :
    ∃ chars vs n, byteUnits data = chars ++ List.replicate n pad ∧ chars.mapM sextetOfChar = some vs
      ∧ octets vs = bytes ∧ n ≤ 2 ∧ (chars ≠ [] ∨ n = 0) ∧ data.length % 4 = 0 := by
  induction data using Go.StandardWebhooks.decodeGroups.induct generalizing bytes with
  | case1 =>
      rw [Go.StandardWebhooks.decodeGroups, Option.some.injEq] at h
      exact ⟨[], [], 0, rfl, rfl, h, by omega, Or.inr rfl, rfl⟩
  | case2 a b c d rest ih =>
      have hpad : ∀ e : UInt8, e = 0x3D → e.toUInt16 = pad := by
        rintro e rfl
        rfl
      simp only [Go.StandardWebhooks.decodeGroups, Option.bind_eq_bind, Option.bind_eq_some_iff] at h
      obtain ⟨p, hp, q, hq, h⟩ := h
      have hfront : ([a.toUInt16, b.toUInt16] : JsString).mapM sextetOfChar = some [p, q] := by
        simp only [Go.StandardWebhooks.sextetOfByte] at hp hq
        simp [hp, hq]
      split_ifs at h with htwo hone
      · obtain ⟨hc, hd, rfl⟩ := htwo
        rw [Option.some.injEq] at h
        exact ⟨_, _, 2, by simp [byteUnits, hpad c hc, hpad d hd, List.replicate], hfront, h, by omega,
          Or.inl (by simp), by simp⟩
      · rw [Option.bind_eq_some_iff] at h
        obtain ⟨r, hr, h⟩ := h
        obtain ⟨hd, rfl⟩ := hone
        rw [Option.some.injEq] at h
        refine ⟨[a.toUInt16, b.toUInt16, c.toUInt16], [p, q, r], 1, by simp [byteUnits, hpad d hd], ?_, h,
          by omega, Or.inl (by simp), by simp⟩
        simp only [Go.StandardWebhooks.sextetOfByte] at hp hq hr
        simp [hp, hq, hr]
      · simp only [Option.bind_eq_some_iff] at h
        obtain ⟨r, hr, s, hs, more, hmore, h⟩ := h
        rw [Option.some.injEq] at h
        obtain ⟨chars, vs, n, hchars, hvs, hbytes, hn, hne, hlength⟩ := ih hmore
        refine ⟨a.toUInt16 :: b.toUInt16 :: c.toUInt16 :: d.toUInt16 :: chars, p :: q :: r :: s :: vs, n,
          ?_, ?_, ?_, hn, Or.inl (by simp), ?_⟩
        · rw [byteUnits] at hchars ⊢
          simp [hchars]
        · simp only [Go.StandardWebhooks.sextetOfByte] at hp hq hr hs
          simp [hp, hq, hr, hs, hvs]
        · rw [← h, ← hbytes]
          rfl
        · simp only [List.length_cons]
          omega
  | case3 data hempty hfour =>
      rw [Go.StandardWebhooks.decodeGroups] at h
      · cases h
      · exact hempty
      · exact hfour

lemma sextet_of_mapM {chars : JsString} {vs : List ℕ} (h : chars.mapM sextetOfChar = some vs) :
    ∀ u ∈ chars, ∃ v, sextetOfChar u = some v := by
  induction chars generalizing vs with
  | nil => simp
  | cons u rest ih =>
      simp only [List.mapM_cons, Option.bind_eq_bind, Option.bind_eq_some_iff] at h
      obtain ⟨v, hv, ws, hws, -⟩ := h
      exact List.forall_mem_cons.mpr ⟨⟨v, hv⟩, ih hws⟩

def isLineBreak (b : UInt8) : Bool := b = 0x0A || b = 0x0D

lemma isLineBreak_low {b : UInt8} (h : isLineBreak b = true) : isAsciiWhitespace b.toUInt16 = true
    ∧ b.toNat < 0x80 := by
  simp only [isLineBreak, Bool.or_eq_true, decide_eq_true_eq] at h
  rcases h with rfl | rfl
  · exact ⟨rfl, by decide⟩
  · exact ⟨rfl, by decide⟩

/-- **What Go decodes, TypeScript decodes too**, to the same bytes, and it is ASCII. -/
lemma atob_of_decodeString {text : GoString} {bytes : List UInt8}
    (h : Go.StandardWebhooks.decodeString text = some bytes) :
    atob (byteUnits text) = some bytes ∧ ∀ b ∈ text, b.toNat < 0x80 := by
  have hdata : Go.StandardWebhooks.decodeGroups (text.filter fun b => !isLineBreak b) = some bytes := h
  obtain ⟨chars, vs, n, hunits, hvs, hbytes, hn, hne, hlength⟩ := decodeGroups_spec hdata
  have hchars : ∀ u ∈ chars, u ≠ pad ∧ isAsciiWhitespace u = false ∧ u.toNat < 0x80 := by
    intro u hu
    obtain ⟨v, hv⟩ := sextet_of_mapM hvs u hu
    exact sextetOfChar_spec hv
  have hvisible : ∀ b ∈ text, isLineBreak b = false →
      isAsciiWhitespace b.toUInt16 = false ∧ b.toUInt16.toNat < 0x80 := by
    intro b hb hbreak
    have hmem : b.toUInt16 ∈ byteUnits (text.filter fun b => !isLineBreak b) :=
      List.mem_map_of_mem (List.mem_filter.mpr ⟨hb, by simp [hbreak]⟩)
    rw [hunits, List.mem_append] at hmem
    rcases hmem with hmem | hmem
    · exact (hchars _ hmem).2
    · rw [List.eq_of_mem_replicate hmem]
      decide
  constructor
  · have hfilter : (byteUnits text).filter (fun u => !isAsciiWhitespace u) = chars ++ List.replicate n pad := by
      rw [← hunits, byteUnits, byteUnits, List.filter_map]
      refine congrArg (List.map UInt8.toUInt16) (List.filter_congr fun b hb => ?_)
      rw [Function.comp]
      cases hbreak : isLineBreak b with
      | true => rw [(isLineBreak_low hbreak).1]
      | false => rw [(hvisible b hb hbreak).1]
    have hlength' : (chars ++ List.replicate n pad).length % 4 = 0 := by
      rw [← hunits, byteUnits, List.length_map]
      exact hlength
    have hcount : chars.length % 4 ≠ 1 := by
      rw [List.length_append, List.length_replicate] at hlength'
      omega
    rw [atob]
    simp only [hfilter, if_pos hlength', stripPadding_append (fun u hu => (hchars u hu).1) hn hne, if_neg hcount,
      hvs, Option.map_some, hbytes]
  · intro b hb
    cases hbreak : isLineBreak b with
    | true => exact (isLineBreak_low hbreak).2
    | false => simpa using (hvisible b hb hbreak).2

lemma toUInt16_injective : Function.Injective UInt8.toUInt16 := by
  intro a b h
  have hnat := congrArg UInt16.toNat h
  simp only [UInt8.toNat_toUInt16] at hnat
  exact UInt8.toNat_inj.mp hnat

lemma byteUnits_encode {s : JsString} (hs : Unicode.Ascii s) : byteUnits (Unicode.encode s) = s := by
  rw [Unicode.encode_ascii hs, byteUnits, List.map_map]
  refine (List.map_congr_left fun u hu => ?_).trans (List.map_id _)
  have hlow := hs u hu
  refine UInt16.toNat_inj.mp ?_
  simp only [Function.comp, id, UInt8.toNat_toUInt16, UInt16.toNat_toUInt8]
  omega

lemma byteUnits_cutStart (text start : GoString) :
    byteUnits ((Go.StandardWebhooks.cutStart text start).getD text)
      = stripStart (byteUnits start) (byteUnits text) := by
  have hstarts : byteUnits start <+: byteUnits text ↔ start <+: text :=
    List.prefix_map_iff_of_injective toUInt16_injective
  rw [Go.StandardWebhooks.cutStart, stripStart]
  by_cases h : start <+: text
  · rw [if_pos h, if_pos (hstarts.mpr h), Option.getD_some]
    simp [byteUnits]
  · rw [if_neg h, if_neg fun h' => h (hstarts.mp h'), Option.getD_none]

/-! ## Secrets -/

/-- **A secret that Go takes, TypeScript takes too**, for the same key. -/
lemma parseSecret_of_go {secret : JsString} {key : List UInt8}
    (h : Go.StandardWebhooks.parseSecret (Unicode.encode secret) = .ok key) : parseSecret secret = .ok key := by
  rw [Go.StandardWebhooks.parseSecret] at h
  generalize hrest : (Go.StandardWebhooks.cutStart (Unicode.encode secret)
    Go.StandardWebhooks.secretPrefix).getD (Unicode.encode secret) = rest at h
  cases hdecoded : Go.StandardWebhooks.decodeString rest with
  | none =>
      rw [hdecoded] at h
      cases h
  | some bytes =>
      obtain ⟨hatob, hlow⟩ := atob_of_decodeString hdecoded
      have hstarts : ∀ b ∈ Go.StandardWebhooks.secretPrefix, b.toNat < 0x80 :=
        List.all_iff_forall_prop.mp (by decide +kernel)
      have hascii : Unicode.Ascii secret := by
        refine Unicode.ascii_of_encode fun b hb => ?_
        rw [Go.StandardWebhooks.cutStart] at hrest
        split_ifs at hrest with hstart
        · obtain ⟨tail, htail⟩ := hstart
          rw [Option.getD_some, ← htail, List.drop_left] at hrest
          rw [← htail, List.mem_append] at hb
          exact hb.elim (hstarts b) fun hb => hlow b (hrest ▸ hb)
        · rw [Option.getD_none] at hrest
          exact hlow b (hrest ▸ hb)
      have hunits : byteUnits rest = stripStart secretPrefix secret := by
        rw [← hrest, byteUnits_cutStart, byteUnits_encode hascii]
        rfl
      rw [hdecoded] at h
      rw [parseSecret, ← hunits, hatob]
      cases bytes with
      | nil => cases h
      | cons b bytes => exact h

/-! ## Entries -/

/-- **An entry that Go decodes, TypeScript decodes too.** -/
lemma entryBytes_of_go {entry : GoString} {bytes : List UInt8}
    (h : Go.StandardWebhooks.entryBytes entry = some bytes) : entryBytes (byteUnits entry) = some bytes := by
  rw [Go.StandardWebhooks.entryBytes, Go.StandardWebhooks.cutStart] at h
  split_ifs at h with hstart
  · obtain ⟨rest, rfl⟩ := hstart
    rw [Option.bind_some, List.drop_left] at h
    have hunits : byteUnits (Go.ascii "v1," ++ rest) = js "v1," ++ byteUnits rest := by
      rw [byteUnits, List.map_append]
      rfl
    rw [hunits, entryBytes, if_pos (List.prefix_append _ _)]
    exact (atob_of_decodeString h).1
  · cases h

lemma splitOn_byteUnits (text : GoString) :
    (byteUnits text).splitOn 0x20 = (text.splitOn 0x20).map byteUnits := by
  induction text with
  | nil => rfl
  | cons b rest ih =>
      have hspace : (b.toUInt16 == 0x20) = (b == 0x20) := by
        rw [Bool.eq_iff_iff, beq_iff_eq, beq_iff_eq]
        exact toUInt16_injective.eq_iff (b := 0x20)
      rw [byteUnits, List.map_cons, ← byteUnits, List.splitOn_cons_eq_if_modifyHead,
        List.splitOn_cons_eq_if_modifyHead, hspace, ih]
      split_ifs
      · rfl
      · cases rest.splitOn 0x20 with
        | nil => rfl
        | cons first others => rfl

/-- What Go finds in a signature header, TypeScript finds too. -/
lemma presented_of_go {signature : GoString} {bytes : List UInt8}
    (h : bytes ∈ Go.StandardWebhooks.presented signature) : bytes ∈ presented (byteUnits signature) := by
  obtain ⟨entry, hentry, hbytes⟩ := List.mem_filterMap.mp h
  refine List.mem_filterMap.mpr ⟨byteUnits entry, ?_, entryBytes_of_go hbytes⟩
  rw [splitOn_byteUnits]
  exact List.mem_map_of_mem hentry

/-! ## Deliveries -/

/-- The three headers of a delivery, each there once or not at all. -/
structure Delivery where
  id : Option HeaderValue
  timestamp : Option HeaderValue
  signature : Option HeaderValue

/-- The value of a header as Go has it. -/
def valueBytes (value : HeaderValue) : GoString := value.units.map UInt16.toUInt8

lemma byteUnits_value (value : HeaderValue) : byteUnits (valueBytes value) = value.units := by
  rw [byteUnits, valueBytes, List.map_map]
  refine (List.map_congr_left fun u hu => ?_).trans (List.map_id _)
  have hbyte := UInt16.le_iff_toNat_le.mp (value.legal u hu).1
  refine UInt16.toNat_inj.mp ?_
  simp only [UInt16.reduceToNat] at hbyte
  simp only [Function.comp, id, UInt8.toNat_toUInt16, UInt16.toNat_toUInt8]
  omega

namespace Delivery

variable (d : Delivery)

def list : List (JsString × HeaderValue) :=
  (d.id.map fun value => (js "webhook-id", value)).toList
    ++ (d.timestamp.map fun value => (js "webhook-timestamp", value)).toList
    ++ (d.signature.map fun value => (js "webhook-signature", value)).toList

def headers : Headers := ⟨d.list⟩

def goHeader : Go.Header :=
  d.list.foldl (fun h field => h.add (field.1.map UInt16.toUInt8) (valueBytes field.2)) Relational.Table.empty

lemma headers_get : d.headers.get (js "webhook-id") = d.id.map HeaderValue.units
    ∧ d.headers.get (js "webhook-timestamp") = d.timestamp.map HeaderValue.units
    ∧ d.headers.get (js "webhook-signature") = d.signature.map HeaderValue.units := by
  rcases d with ⟨_ | id, _ | timestamp, _ | signature⟩ <;> exact ⟨rfl, rfl, rfl⟩

lemma goHeader_get : d.goHeader.get (Go.ascii "webhook-id") = (d.id.map valueBytes).getD []
    ∧ d.goHeader.get (Go.ascii "webhook-timestamp") = (d.timestamp.map valueBytes).getD []
    ∧ d.goHeader.get (Go.ascii "webhook-signature") = (d.signature.map valueBytes).getD [] := by
  rcases d with ⟨_ | id, _ | timestamp, _ | signature⟩ <;> exact ⟨rfl, rfl, rfl⟩

end Delivery

/-! ## Timestamps -/

section

variable {F : Type} (b : Binary64 F)

/-- The whole seconds of a timestamp that is a decimal numeral. -/
def DecimalSeconds (timestamp : JsString) (seconds : ℤ) : Prop :=
  ∃ m f, readDecimal (timestamp.map UInt16.toNat) = some m ∧ b.nearest m = .Finite f ∧ b.truncate f = seconds

/-- The whole seconds of a timestamp that is a number in TypeScript, but no decimal numeral. -/
def LooseSeconds (timestamp : JsString) (seconds : ℤ) : Prop :=
  readDecimal (timestamp.map UInt16.toNat) = none ∧ ∃ f, b.ofText timestamp = .Finite f ∧ b.truncate f = seconds

/-- The whole seconds of a timestamp that is a number in Go, but no decimal numeral. -/
def FloatSeconds (timestamp : GoString) (seconds : ℤ) : Prop :=
  readDecimal (timestamp.map UInt8.toNat) = none
    ∧ ∃ f, b.floats.parseFloat timestamp = some (.Finite f) ∧ b.floats.truncate f = seconds

lemma ofText_iff (timestamp : JsString) (seconds : ℤ) :
    (∃ f, b.ofText timestamp = .Finite f ∧ b.truncate f = seconds)
      ↔ DecimalSeconds b timestamp seconds ∨ LooseSeconds b timestamp seconds := by
  cases hread : readDecimal (timestamp.map UInt16.toNat) with
  | none => simp [DecimalSeconds, LooseSeconds, hread]
  | some m =>
      have hnumber : b.ofText timestamp = b.nearest m := by
        rw [b.ofText_eq]
        exact (numeric_decimal hread).1
      simp [DecimalSeconds, LooseSeconds, hread, hnumber]

lemma toNat_valueBytes (value : HeaderValue) :
    (valueBytes value).map UInt8.toNat = value.units.map UInt16.toNat := by
  rw [← byteUnits_value value, byteUnits, List.map_map]
  exact List.map_congr_left fun byte _ => (UInt8.toNat_toUInt16 byte).symm

lemma parseFloat_iff (value : HeaderValue) (seconds : ℤ) :
    (∃ f, b.floats.parseFloat (valueBytes value) = some (.Finite f) ∧ b.floats.truncate f = seconds)
      ↔ DecimalSeconds b value.units seconds ∨ FloatSeconds b (valueBytes value) seconds := by
  cases hread : readDecimal (value.units.map UInt16.toNat) with
  | none => simp [DecimalSeconds, FloatSeconds, toNat_valueBytes, hread]
  | some m =>
      simp only [DecimalSeconds, FloatSeconds, toNat_valueBytes, hread, Binary64.floats, (numeric_decimal hread).2]
      cases hnearest : b.nearest m with
      | Finite f => simp [hnearest]
      | Infinite negative => simp [hnearest]
      | NaN => simp [hnearest]

/-- A timestamp is a number in Go only, or in TypeScript only, when it is no decimal numeral. -/
lemma LooseSeconds.not_float {value : HeaderValue} {seconds seconds' : ℤ}
    (hloose : LooseSeconds b value.units seconds) : ¬ FloatSeconds b (valueBytes value) seconds' := by
  rintro ⟨-, g, hg, -⟩
  obtain ⟨hread, f, hf, -⟩ := hloose
  rw [b.ofText_eq] at hf
  simp only [Binary64.floats, toNat_valueBytes] at hg
  exact numeric_exclusive hread hf hg

/-! ## Accepted deliveries -/

variable (hmac : Hmac) (keys : List (List UInt8)) (id signature : HeaderValue) (body : List UInt8) (seconds : ℤ)

/-- An entry that TypeScript decodes is the MAC of the id as a text. -/
def TextSigned : Prop :=
  ∃ key ∈ keys, hmac key (signedContent id.units (intText seconds) body) ∈ presented signature.units

/-- An entry that Go decodes is the MAC of the id as bytes. -/
def BytesSigned : Prop :=
  ∃ key ∈ keys, hmac key (Go.StandardWebhooks.signedContent (valueBytes id)
    (Go.StandardWebhooks.formatInt seconds) body) ∈ Go.StandardWebhooks.presented (valueBytes signature)

/-- The content of an id in ASCII is the same. -/
lemma signedContent_ascii {id : HeaderValue} (hid : Unicode.Ascii id.units) :
    signedContent id.units (intText seconds) body
      = Go.StandardWebhooks.signedContent (valueBytes id) (Go.StandardWebhooks.formatInt seconds) body := by
  have hascii : Unicode.Ascii (id.units ++ 0x2e :: (intText seconds ++ [0x2e])) := by
    intro u hu
    simp only [List.mem_append, List.mem_cons, List.not_mem_nil, or_false] at hu
    rcases hu with hu | rfl | hu | rfl
    · exact hid u hu
    · decide
    · have hunit := intText_units seconds u hu
      omega
    · decide
  rw [signedContent, Unicode.encode_ascii hascii]
  simp [Go.StandardWebhooks.signedContent, valueBytes, Go.StandardWebhooks.formatInt]

/-- What is signed for Go is signed for TypeScript, when the id is in ASCII. -/
lemma BytesSigned.text (hid : Unicode.Ascii id.units)
    (h : BytesSigned hmac keys id signature body seconds) : TextSigned hmac keys id signature body seconds := by
  obtain ⟨key, hkey, hmem⟩ := h
  refine ⟨key, hkey, ?_⟩
  rw [signedContent_ascii body seconds hid, ← byteUnits_value signature]
  exact presented_of_go hmem

/-- A timestamp that is fresh is exact. -/
lemma Fresh.safe {now : TimeValue} {tolerance : Option WholeSeconds} {seconds : ℤ}
    (h : Fresh now tolerance seconds) : seconds.natAbs ≤ maxSafe := by
  have hrange := toleranceOf_range tolerance
  have hnow := now.range
  rw [Fresh] at h
  rw [maxSafe]
  omega

variable (now : TimeValue) (tolerance : Option WholeSeconds)

/-- **When TypeScript accepts a delivery** that has its three headers. -/
lemma Binary64.verify_iff {v : Verifier F} {t : F} (hv : v.tolerance = .Finite t) (hwhole : b.trunc t = t)
    (ht : b.truncate t = toleranceOf tolerance * 1000) {d : Delivery} {timestamp : HeaderValue}
    (hid : d.id = some id) (htimestamp : d.timestamp = some timestamp) (hsignature : d.signature = some signature) :
    v.verify b.toNumbers hmac (.Finite (b.ofInt now.ms)) d.headers body = true
      ↔ ∃ seconds, (DecimalSeconds b timestamp.units seconds ∨ LooseSeconds b timestamp.units seconds)
        ∧ Fresh now tolerance seconds ∧ TextSigned hmac v.keys id signature body seconds := by
  obtain ⟨hidGet, htimestampGet, hsignatureGet⟩ := d.headers_get
  rw [hid, Option.map_some] at hidGet
  rw [htimestamp, Option.map_some] at htimestampGet
  rw [hsignature, Option.map_some] at hsignatureGet
  simp only [← ofText_iff]
  cases hnumber : b.ofText timestamp.units with
  | Finite f =>
      have htext : Fresh now tolerance (b.truncate f) → b.text (b.trunc f) = intText (b.truncate f) := by
        intro hfresh
        have hsafe := hfresh.safe
        rw [← b.truncate_trunc] at hsafe ⊢
        exact b.text_whole _ (b.trunc_trunc f) hsafe
      rw [v.verify_eq_true b.toNumbers hmac hidGet htimestampGet hsignatureGet hnumber,
        b.outsideTolerance_iff now tolerance hv hwhole ht]
      constructor
      · rintro ⟨hfresh, hsigned⟩
        rw [htext hfresh] at hsigned
        exact ⟨_, ⟨f, rfl, rfl⟩, hfresh, hsigned⟩
      · rintro ⟨seconds, ⟨g, hg, rfl⟩, hfresh, hsigned⟩
        obtain rfl : f = g := by simpa using hg
        rw [htext hfresh]
        exact ⟨hfresh, hsigned⟩
  | Infinite negative => simp [Verifier.verify, hidGet, htimestampGet, hsignatureGet, hnumber]
  | NaN => simp [Verifier.verify, hidGet, htimestampGet, hsignatureGet, hnumber]

/-- **When Go accepts a delivery** that has its three headers. -/
lemma goVerify_iff {v : Go.StandardWebhooks.Verifier} (hv : v.tolerance = toleranceOf tolerance * 1000000000)
    {d : Delivery} {timestamp : HeaderValue} (hid : d.id = some id) (htimestamp : d.timestamp = some timestamp)
    (hsignature : d.signature = some signature) :
    v.verifyFunc b.floats hmac (now.ms * 1000000) d.goHeader body = .ok true
      ↔ id.units ≠ [] ∧ ∃ seconds, (DecimalSeconds b timestamp.units seconds
          ∨ FloatSeconds b (valueBytes timestamp) seconds)
        ∧ Fresh now tolerance seconds ∧ BytesSigned hmac v.keys id signature body seconds := by
  obtain ⟨hidGet, htimestampGet, hsignatureGet⟩ := d.goHeader_get
  rw [hid, Option.map_some, Option.getD_some] at hidGet
  rw [htimestamp, Option.map_some, Option.getD_some] at htimestampGet
  rw [hsignature, Option.map_some, Option.getD_some] at hsignatureGet
  have hidEmpty : valueBytes id = [] ↔ id.units = [] := List.map_eq_nil_iff
  have haccepted : v.verifyFunc b.floats hmac (now.ms * 1000000) d.goHeader body = .ok true
      ↔ v.verify b.floats hmac (now.ms * 1000000) d.goHeader body = .ok () := by
    rw [Go.StandardWebhooks.Verifier.verifyFunc]
    cases v.verify b.floats hmac (now.ms * 1000000) d.goHeader body with
    | ok u => simp
    | error e => simp
  rw [haccepted, v.verify_eq_ok b.floats hmac _ hidGet htimestampGet hsignatureGet]
  simp only [← parseFloat_iff]
  constructor
  · rintro ⟨⟨hne, -⟩, f, hf, houtside, hsigned⟩
    exact ⟨fun h => hne (hidEmpty.mpr h), _, ⟨f, hf, rfl⟩,
      (outsideTolerance_iff now tolerance hv _).mp houtside, hsigned⟩
  · rintro ⟨hne, seconds, ⟨f, hf, rfl⟩, hfresh, hsigned⟩
    have hstamp : valueBytes timestamp ≠ [] := by
      intro hnil
      rw [hnil] at hf
      cases hf
    exact ⟨⟨fun h => hne (hidEmpty.mp h), hstamp⟩, f, hf,
      (outsideTolerance_iff now tolerance hv _).mpr hfresh, hsigned⟩

end

/-! ## Both verifiers -/

/-- Both refuse to be constructed, or both answer, and the same. -/
def SameOutcome : Except String Bool → Except String Bool → Prop
  | .ok accepted, .ok accepted' => accepted = accepted'
  | .error _, .error _ => True
  | _, _ => False

section

variable {F : Type} (b : Binary64 F) (hmac : Hmac) (secrets : List JsString) (tolerance : Option WholeSeconds)
  (now : TimeValue) (d : Delivery) (body : List UInt8)

/-- A verifier of TypeScript, constructed and asked. -/
def verifyOutcome : Except String Bool :=
  (newVerify b.toNumbers secrets (tolerance.map fun t => .Finite (b.ofInt t.seconds))).map fun v =>
    v.verify b.toNumbers hmac (.Finite (b.ofInt now.ms)) d.headers body

/-- A verifier of Go, constructed from the same secrets and asked on the same delivery. -/
def goVerifyOutcome : Except String Bool := do
  let v ← Go.StandardWebhooks.newVerifier (secrets.map Unicode.encode)
  let v := tolerance.elim v fun t => v.withTolerance (t.seconds * 1000000000)
  v.verifyFunc b.floats hmac (now.ms * 1000000) d.goHeader body

/-- A secret that is base64 without whitespace other than line breaks, and with its padding. -/
def StrictSecret (secret : JsString) : Prop :=
  ∃ key, Go.StandardWebhooks.parseSecret (Unicode.encode secret) = .ok key

/-- **What makes the answers the same**, when the three headers are there.  A decimal timestamp is read alike,
and what is left are the id and the entries: an empty id is refused by Go only, the bytes of an id in ASCII
are those that TypeScript signs, and the entries TypeScript decodes are more.  Any other timestamp is a number
for one of them at most, which then has to refuse the entries. -/
structure Alike (keys : List (List UInt8)) (id timestamp signature : HeaderValue) : Prop where
  noId : id.units = [] → ∀ seconds, DecimalSeconds b timestamp.units seconds → Fresh now tolerance seconds →
    ¬ TextSigned hmac keys id signature body seconds
  ascii : id.units ≠ [] → Unicode.Ascii id.units → ∀ seconds, DecimalSeconds b timestamp.units seconds →
    Fresh now tolerance seconds → TextSigned hmac keys id signature body seconds →
    BytesSigned hmac keys id signature body seconds
  wide : ¬ Unicode.Ascii id.units → ∀ seconds, DecimalSeconds b timestamp.units seconds →
    Fresh now tolerance seconds →
    (TextSigned hmac keys id signature body seconds ↔ BytesSigned hmac keys id signature body seconds)
  loose : ∀ seconds, LooseSeconds b timestamp.units seconds → Fresh now tolerance seconds →
    ¬ TextSigned hmac keys id signature body seconds
  float : id.units ≠ [] → ∀ seconds, FloatSeconds b (valueBytes timestamp) seconds → Fresh now tolerance seconds →
    ¬ BytesSigned hmac keys id signature body seconds

lemma DecimalSeconds.unique {timestamp : JsString} {seconds seconds' : ℤ}
    (h : DecimalSeconds b timestamp seconds) (h' : DecimalSeconds b timestamp seconds') : seconds = seconds' := by
  obtain ⟨m, f, hm, hf, rfl⟩ := h
  obtain ⟨m', f', hm', hf', rfl⟩ := h'
  obtain rfl : m = m' := by simpa [hm] using hm'
  obtain rfl : f = f' := by simpa [hf] using hf'
  rfl

lemma DecimalSeconds.not_loose {timestamp : JsString} {seconds seconds' : ℤ}
    (h : DecimalSeconds b timestamp seconds) : ¬ LooseSeconds b timestamp seconds' := by
  rintro ⟨hnone, -⟩
  obtain ⟨m, f, hm, -⟩ := h
  rw [hnone] at hm
  cases hm

lemma DecimalSeconds.not_float {value : HeaderValue} {seconds seconds' : ℤ}
    (h : DecimalSeconds b value.units seconds) : ¬ FloatSeconds b (valueBytes value) seconds' := by
  rintro ⟨hnone, -⟩
  obtain ⟨m, f, hm, -⟩ := h
  rw [toNat_valueBytes, hm] at hnone
  cases hnone

lemma alike_iff (keys : List (List UInt8)) (id timestamp signature : HeaderValue) :
    Alike b hmac tolerance now body keys id timestamp signature
      ↔ ((∃ seconds, (DecimalSeconds b timestamp.units seconds ∨ LooseSeconds b timestamp.units seconds)
          ∧ Fresh now tolerance seconds ∧ TextSigned hmac keys id signature body seconds)
        ↔ id.units ≠ [] ∧ ∃ seconds, (DecimalSeconds b timestamp.units seconds
            ∨ FloatSeconds b (valueBytes timestamp) seconds)
          ∧ Fresh now tolerance seconds ∧ BytesSigned hmac keys id signature body seconds) := by
  constructor
  · intro halike
    constructor
    · rintro ⟨seconds, hdecimal | hloose, hfresh, hsigned⟩
      · have hid : id.units ≠ [] := fun hnil => halike.noId hnil _ hdecimal hfresh hsigned
        refine ⟨hid, seconds, Or.inl hdecimal, hfresh, ?_⟩
        by_cases hascii : Unicode.Ascii id.units
        · exact halike.ascii hid hascii _ hdecimal hfresh hsigned
        · exact (halike.wide hascii _ hdecimal hfresh).mp hsigned
      · exact absurd hsigned (halike.loose _ hloose hfresh)
    · rintro ⟨hid, seconds, hdecimal | hfloat, hfresh, hsigned⟩
      · refine ⟨seconds, Or.inl hdecimal, hfresh, ?_⟩
        by_cases hascii : Unicode.Ascii id.units
        · exact hsigned.text hmac keys id signature body seconds hascii
        · exact (halike.wide hascii _ hdecimal hfresh).mpr hsigned
      · exact absurd hsigned (halike.float hid _ hfloat hfresh)
  · intro hsame
    -- what Go accepts a decimal timestamp on is that timestamp
    have hbytes : ∀ seconds, DecimalSeconds b timestamp.units seconds → Fresh now tolerance seconds →
        TextSigned hmac keys id signature body seconds →
        id.units ≠ [] ∧ BytesSigned hmac keys id signature body seconds := by
      intro seconds hdecimal hfresh hsigned
      obtain ⟨hid, seconds', hdecimal' | hfloat, -, hsigned'⟩ :=
        hsame.mp ⟨seconds, Or.inl hdecimal, hfresh, hsigned⟩
      · rw [hdecimal.unique b hdecimal']
        exact ⟨hid, hsigned'⟩
      · exact absurd hfloat (hdecimal.not_float b)
    refine ⟨?_, ?_, ?_, ?_, ?_⟩
    · intro hnil seconds hdecimal hfresh hsigned
      exact (hbytes seconds hdecimal hfresh hsigned).1 hnil
    · intro _ _ seconds hdecimal hfresh hsigned
      exact (hbytes seconds hdecimal hfresh hsigned).2
    · intro hwide seconds hdecimal hfresh
      refine ⟨fun hsigned => (hbytes seconds hdecimal hfresh hsigned).2, fun hsigned => ?_⟩
      have hid : id.units ≠ [] := by
        intro hnil
        refine hwide ?_
        rw [hnil]
        intro u hu
        cases hu
      obtain ⟨seconds', hdecimal' | hloose, -, hsigned'⟩ := hsame.mpr ⟨hid, seconds, Or.inl hdecimal, hfresh, hsigned⟩
      · rw [hdecimal.unique b hdecimal']
        exact hsigned'
      · exact absurd hloose (hdecimal.not_loose b)
    · intro seconds hloose hfresh hsigned
      obtain ⟨-, seconds', hdecimal | hfloat, -, -⟩ := hsame.mp ⟨seconds, Or.inr hloose, hfresh, hsigned⟩
      · exact hdecimal.not_loose b hloose
      · exact hloose.not_float b hfloat
    · intro hid seconds hfloat hfresh hsigned
      obtain ⟨seconds', hdecimal | hloose, -, -⟩ := hsame.mpr ⟨hid, seconds, Or.inr hfloat, hfresh, hsigned⟩
      · exact hdecimal.not_float b hfloat
      · exact hloose.not_float b hfloat

/-! ## Construction -/

lemma mapM_eq_ok {α β ε : Type} {f : α → Except ε β} {l : List α} {r : List β} :
    l.mapM f = .ok r ↔ l.map f = r.map .ok := by
  induction l generalizing r with
  | nil => cases r <;> simp [pure, Except.pure]
  | cons x l ih =>
      cases r with
      | nil =>
          rw [List.mapM_cons]
          cases f x <;> cases l.mapM f <;> simp [bind, Except.bind, pure, Except.pure]
      | cons y r =>
          rw [List.mapM_cons, List.map_cons, List.map_cons, List.cons.injEq, ← ih]
          cases f x <;> cases l.mapM f <;> simp [bind, Except.bind, pure, Except.pure]

/-- What each element gives, when each gives something. -/
lemma exists_mapM_eq_ok {α β ε : Type} {f : α → Except ε β} {l : List α} :
    (∃ r, l.mapM f = .ok r) ↔ ∀ x ∈ l, ∃ y, f x = .ok y := by
  simp only [mapM_eq_ok]
  induction l with
  | nil => simp
  | cons x l ih =>
      rw [List.forall_mem_cons, ← ih]
      constructor
      · rintro ⟨r, hr⟩
        obtain ⟨y, r', rfl, hy, hr'⟩ := List.map_eq_cons_iff.mp hr.symm
        exact ⟨⟨y, hy.symm⟩, r', hr'.symm⟩
      · rintro ⟨⟨y, hy⟩, r, hr⟩
        exact ⟨y :: r, by rw [List.map_cons, hy, hr, List.map_cons]⟩

/-- What is read by the one and by the other to the same. -/
lemma map_ok_of {α β ε ε' : Type} {f : α → Except ε β} {g : α → Except ε' β} (hfg : ∀ x y, f x = .ok y → g x = .ok y)
    {l : List α} {r : List β} (h : l.map f = r.map .ok) : l.map g = r.map .ok := by
  induction l generalizing r with
  | nil =>
      obtain rfl : r = [] := by simpa using h.symm
      rfl
  | cons x l ih =>
      obtain ⟨y, r', rfl, hy, hr'⟩ := List.map_eq_cons_iff.mp h.symm
      rw [List.map_cons, hfg x y hy.symm, ih hr'.symm, List.map_cons]

/-- The verifiers that both construct, from the same keys. -/
lemma outcomes_of_keys {keys : List (List UInt8)} (hne : secrets ≠ [])
    (hkeys : secrets.mapM parseSecret = .ok keys)
    (hstrict : (secrets.map Unicode.encode).mapM Go.StandardWebhooks.parseSecret = .ok keys) :
    ∃ (v : Verifier F) (t : F) (w : Go.StandardWebhooks.Verifier),
      v.keys = keys ∧ v.tolerance = .Finite t ∧ b.trunc t = t ∧ b.truncate t = toleranceOf tolerance * 1000
      ∧ w.keys = keys ∧ w.tolerance = toleranceOf tolerance * 1000000000
      ∧ verifyOutcome b hmac secrets tolerance now d body
        = .ok (v.verify b.toNumbers hmac (.Finite (b.ofInt now.ms)) d.headers body)
      ∧ goVerifyOutcome b hmac secrets tolerance now d body
        = w.verifyFunc b.floats hmac (now.ms * 1000000) d.goHeader body := by
  obtain ⟨t, htolerance, hwhole, ht⟩ := b.tolerance_eq tolerance
  have hnotEmpty : keys.isEmpty = false := by
    rw [mapM_eq_ok] at hkeys
    cases keys with
    | nil => exact absurd (List.map_eq_nil_iff.mp hkeys) hne
    | cons key keys => rfl
  have hsecrets : (secrets.map Unicode.encode).isEmpty = false := by
    simpa using hne
  refine ⟨⟨keys, _⟩, t, tolerance.elim ⟨keys, Go.StandardWebhooks.defaultTolerance⟩ fun t =>
    ⟨keys, t.seconds * 1000000000⟩, rfl, htolerance, hwhole, ht, ?_, ?_, ?_, ?_⟩
  · cases tolerance <;> rfl
  · cases tolerance <;> rfl
  · rw [verifyOutcome, newVerify, hkeys]
    simp only [bind, Except.bind, hnotEmpty, Except.map, Bool.false_eq_true, if_false]
  · rw [goVerifyOutcome, Go.StandardWebhooks.newVerifier, hsecrets, hstrict]
    cases tolerance <;> rfl

/-- Without one of its headers a delivery is refused. -/
lemma verify_absent (v : Verifier F) (w : Go.StandardWebhooks.Verifier) (now : Number F) (now' : ℤ)
    (habsent : d.id = none ∨ d.timestamp = none ∨ d.signature = none) :
    v.verify b.toNumbers hmac now d.headers body = false
      ∧ w.verifyFunc b.floats hmac now' d.goHeader body = .ok false := by
  obtain ⟨hid, htimestamp, hsignature⟩ := d.headers_get
  obtain ⟨hid', htimestamp', hsignature'⟩ := d.goHeader_get
  rw [Verifier.verify, Go.StandardWebhooks.Verifier.verifyFunc, Go.StandardWebhooks.Verifier.verify, hid, htimestamp,
    hsignature]
  simp only [hid', htimestamp', hsignature']
  rcases habsent with hnone | hnone | hnone
  · simp [hnone, Go.StandardWebhooks.failed]
  · cases d.id <;> simp [hnone, Go.StandardWebhooks.failed]
  · cases d.id <;> cases d.timestamp <;> simp [hnone, Go.StandardWebhooks.failed]

/-- Verifiers that both construct answer alike when every delivery with its three headers is `Alike`. -/
lemma agree_of_strict (hne : secrets ≠ []) (hstrict : ∀ secret ∈ secrets, StrictSecret secret) :
    SameOutcome (verifyOutcome b hmac secrets tolerance now d body)
        (goVerifyOutcome b hmac secrets tolerance now d body)
      ↔ ∀ keys id timestamp signature,
          secrets.map (fun secret => Go.StandardWebhooks.parseSecret (Unicode.encode secret)) = keys.map .ok →
          d.id = some id → d.timestamp = some timestamp → d.signature = some signature →
          Alike b hmac tolerance now body keys id timestamp signature := by
  obtain ⟨keys, hgo⟩ := exists_mapM_eq_ok.mpr hstrict
  rw [mapM_eq_ok] at hgo
  have hts : secrets.mapM parseSecret = .ok keys :=
    mapM_eq_ok.mpr (map_ok_of (fun _ _ => parseSecret_of_go) hgo)
  obtain ⟨v, t, w, hv, htolerance, hwhole, ht, hw, hwTolerance, houtcome, hgoOutcome⟩ :=
    outcomes_of_keys b hmac secrets tolerance now d body hne hts (by rw [mapM_eq_ok, List.map_map]; exact hgo)
  have hsame : SameOutcome (verifyOutcome b hmac secrets tolerance now d body)
        (goVerifyOutcome b hmac secrets tolerance now d body)
      ↔ (v.verify b.toNumbers hmac (.Finite (b.ofInt now.ms)) d.headers body = true
        ↔ w.verifyFunc b.floats hmac (now.ms * 1000000) d.goHeader body = .ok true) := by
    rw [houtcome, hgoOutcome, Go.StandardWebhooks.Verifier.verifyFunc]
    cases w.verify b.floats hmac (now.ms * 1000000) d.goHeader body <;> simp [SameOutcome]
  rw [hsame]
  by_cases hpresent : d.id = none ∨ d.timestamp = none ∨ d.signature = none
  · obtain ⟨hno, hgoNo⟩ := verify_absent b hmac d body v w (.Finite (b.ofInt now.ms)) (now.ms * 1000000) hpresent
    rw [hno, hgoNo]
    refine iff_of_true (by simp) ?_
    intro keys' id timestamp signature _ hid htimestamp hsignature
    simp [hid, htimestamp, hsignature] at hpresent
  · simp only [not_or, Option.ne_none_iff_exists'] at hpresent
    obtain ⟨⟨id, hid⟩, ⟨timestamp, htimestamp⟩, signature, hsignature⟩ := hpresent
    rw [b.verify_iff hmac id signature body now tolerance htolerance hwhole ht hid htimestamp hsignature,
      goVerify_iff b hmac id signature body now tolerance hwTolerance hid htimestamp hsignature, hv, hw, ← alike_iff]
    constructor
    · intro halike keys' id' timestamp' signature' hkeys' hid' htimestamp' hsignature'
      obtain rfl : keys' = keys := List.map_injective_iff.mpr (fun _ _ => Except.ok.inj) (hkeys'.symm.trans hgo)
      obtain rfl : id = id' := by simpa [hid] using hid'
      obtain rfl : timestamp = timestamp' := by simpa [htimestamp] using htimestamp'
      obtain rfl : signature = signature' := by simpa [hsignature] using hsignature'
      exact halike
    · intro halike
      exact halike keys id timestamp signature hgo hid htimestamp hsignature

/-- Where Go does not construct, the two agree when TypeScript does not either. -/
lemma agree_of_lax (hne : secrets ≠ []) (hlax : ¬ ∀ secret ∈ secrets, StrictSecret secret) :
    SameOutcome (verifyOutcome b hmac secrets tolerance now d body)
        (goVerifyOutcome b hmac secrets tolerance now d body)
      ↔ ¬ ∀ secret ∈ secrets, ∃ key, parseSecret secret = .ok key := by
  have hgo : ∃ e, goVerifyOutcome b hmac secrets tolerance now d body = .error e := by
    rw [goVerifyOutcome, Go.StandardWebhooks.newVerifier, if_neg (by simpa using hne)]
    cases hmapM : (secrets.map Unicode.encode).mapM Go.StandardWebhooks.parseSecret with
    | error e => exact ⟨e, rfl⟩
    | ok keys =>
        rw [mapM_eq_ok, List.map_map] at hmapM
        exact absurd (exists_mapM_eq_ok.mp ⟨keys, mapM_eq_ok.mpr hmapM⟩) hlax
  obtain ⟨e, he⟩ := hgo
  rw [he]
  cases hmapM : secrets.mapM parseSecret with
  | error e' =>
      have hts : verifyOutcome b hmac secrets tolerance now d body = .error e' := by
        rw [verifyOutcome, newVerify, hmapM]
        rfl
      rw [hts]
      refine iff_of_true trivial fun hparse => ?_
      obtain ⟨keys, hkeys⟩ := exists_mapM_eq_ok.mpr hparse
      rw [hmapM] at hkeys
      cases hkeys
  | ok keys =>
      refine iff_of_false ?_ fun hnot => hnot (exists_mapM_eq_ok.mp ⟨keys, hmapM⟩)
      have hnotEmpty : keys.isEmpty = false := by
        cases keys with
        | nil => exact absurd (List.map_eq_nil_iff.mp (mapM_eq_ok.mp hmapM)) hne
        | cons key keys => rfl
      rw [verifyOutcome, newVerify, hmapM]
      simp [bind, Except.bind, hnotEmpty, Except.map, SameOutcome]

end

/-- A secret without its padding constructs a verifier in TypeScript only. -/
lemma unpadded_secret_disagrees (hmac : Hmac) (d : Delivery) (body : List UInt8) (now : TimeValue) :
    ¬ SameOutcome (verifyOutcome wholeDoubles hmac [js "AA"] none now d body)
      (goVerifyOutcome wholeDoubles hmac [js "AA"] none now d body) := by
  have hgo : goVerifyOutcome wholeDoubles hmac [js "AA"] none now d body
      = .error "standardwebhooks: the secret is not valid base64" := by
    rfl
  have hts : (newVerify wholeDoubles.toNumbers [js "AA"] none).toBool = true := by decide +kernel
  rw [hgo, verifyOutcome, Option.map_none]
  cases hnew : newVerify wholeDoubles.toNumbers [js "AA"] none with
  | error e =>
      rw [hnew] at hts
      cases hts
  | ok v => simp [Except.map, SameOutcome]

/-! ## Deliveries that are verified twice -/

/-- A MAC that is the same for every content. -/
def fixedMac : Hmac := fun _ _ => [0x01, 0x02, 0x03]

/-- A delivery whose one entry carries it. -/
def fixedDelivery (timestamp : HeaderValue) : Delivery where
  id := some goldenId
  timestamp := some timestamp
  signature := some (headerValue "v1,AQID" (by decide +kernel))

/-- The second that the timestamps name. -/
def fixedNow : TimeValue := ⟨1700000000000, by decide⟩

end Anyonce.StandardWebhooks
