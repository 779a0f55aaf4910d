import Anyonce.Core.FirstMatch
import Anyonce.Go.Header
import Anyonce.Go.QueueOptions
import Anyonce.Http.Request
import Anyonce.Queue.Options

/-!
# The identity of a message and the order of its headers

Under the key source `header` both doors take the first header whose name matches, and a name matches
whatever its case.  A JavaScript object is listed in one order; a Go map is ranged over in another one
each time.  So two headers whose names differ only in case are one or the other identity, as it happens
(`identity_depends_on_order`).

The two languages match names and read values each in its own way.  A `TextDecoder` drops a byte order
mark, which Go keeps and refuses; apart from that a header matched by both reads alike in both
(`readsAlike_self_iff`).

* `identity_order_free_iff` — when the identity depends neither on the order nor on the language.
-/

namespace Anyonce

open FirstMatch NumberText Relational Unicode

/-! ## Reading a value -/

/-- A loop over bytes says what the loop over the decoded units says. -/
lemma validateBytes_decodeSkip (allowSpace : Bool) (bs : List UInt8) (i : ℕ) :
    Go.validateBytes allowSpace bs i
      = Go.ofValidation (validateUnits allowSpace (utf16 (decodeSkip id 0 bs)) i) := by
  induction bs generalizing i with
  | nil => rfl
  | cons b rest ih =>
      by_cases hb : b.toNat < 0x80
      · have hfirst : decodeFirst b rest = (0, some (Char.ofNat b.toNat)) := by
          have h := decodeFirst_one rest hb
          rwa [UInt8.ofNat_toNat] at h
        have hchar : (Char.ofNat b.toNat).toNat = b.toNat := toNat_ofNat (Or.inl (by omega))
        have h16 : utf16Char (Char.ofNat b.toNat) = [UInt16.ofNat b.toNat] := by
          rw [utf16Char_ascii (by omega), hchar]
        have h8 : b = UInt8.ofNat b.toNat := UInt8.ofNat_toNat.symm
        simp only [decodeSkip, hfirst, utf16_cons, h16, List.singleton_append, Go.validateBytes,
          validateUnits, ih]
        generalize b.toNat = n at *
        subst h8
        simp only [Go.unit_eq_iff hb, Go.byte_eq_iff hb, Go.unit_lt_iff hb, Go.byte_lt_iff hb,
          Go.unit_gt_iff hb, Go.byte_gt_iff hb]
        simp only [UInt16.reduceToNat, UInt8.reduceToNat]
        split_ifs <;> rfl
      · have hwide : 0x80 ≤ b.toNat := by omega
        obtain ⟨c, cs, hchars, hc⟩ : ∃ c cs, decodeSkip id 0 (b :: rest) = c :: cs ∧ 0x80 ≤ c.toNat := by
          rcases hfirst : decodeFirst b rest with ⟨k, _ | c⟩
          · exact ⟨replacement, decodeSkip id (id k) rest, by simp only [decodeSkip, hfirst], by decide⟩
          · exact ⟨c, decodeSkip id k rest, by simp only [decodeSkip, hfirst], decodeFirst_wide hwide hfirst⟩
        obtain ⟨u, us, hu⟩ := List.exists_cons_of_ne_nil (utf16Char_ne_nil c)
        have hu80 : 0x80 ≤ u.toNat := utf16Char_wide hc u (by simp [hu])
        have hspace : ¬ (u = 0x20 ∧ allowSpace) := fun h => Go.unit_ne hu80 (by decide) h.1
        have hspace' : ¬ (b = 0x20 ∧ allowSpace) := fun h => Go.byte_ne hwide (by decide) h.1
        simp only [hchars, utf16_cons, hu, List.cons_append, Go.validateBytes, validateUnits,
          if_neg hspace, if_neg hspace', if_pos (Or.inr (Go.unit_gt hu80 (k := 0x7e) (by decide))),
          if_pos (Or.inr (Go.byte_gt hwide (k := 0x7e) (by decide)))]
        rfl

/-- Bytes that are all ASCII encode a text. -/
lemma exists_utf8_of_ascii {bs : List UInt8} (h : ∀ b ∈ bs, b.toNat < 0x80) :
    ∃ cs, bs = utf8 cs := by
  induction bs with
  | nil => exact ⟨[], rfl⟩
  | cons b rest ih =>
      obtain ⟨cs, rfl⟩ := ih fun b' hb' => h b' (List.mem_cons_of_mem b hb')
      have hb := h b List.mem_cons_self
      have hchar : (Char.ofNat b.toNat).toNat = b.toNat := toNat_ofNat (Or.inl (by omega))
      refine ⟨Char.ofNat b.toNat :: cs, ?_⟩
      rw [utf8_cons, utf8Char_ascii (by omega), hchar, UInt8.ofNat_toNat]
      rfl

/-- A key is ASCII. -/
lemma exists_utf8_of_validateBytes {bs : List UInt8} (h : Go.validateBytes false bs 0 = .ok ()) :
    ∃ cs, bs = utf8 cs := by
  refine exists_utf8_of_ascii fun b hb => ?_
  have hle : b.toNat ≤ 0x7e := UInt8.le_iff_toNat_le.mp (Go.validateBytes_bytes h b hb).2
  omega

lemma decodeSkip_eq_of_utf8 (cs : List Char) : decodeSkip id 0 (utf8 cs) = cs := by
  have h := decodeSkip_utf8 id cs []
  rwa [List.append_nil, decodeSkip, List.append_nil] at h

lemma validateKey_utf8_ok (cs : List Char) :
    Go.validateKey (utf8 cs) false = .ok () ↔ validateKey (utf16 cs) = .Ok := by
  rw [Go.validateKey_utf8]
  cases validateKey (utf16 cs) with
  | Ok => simp [Go.ofValidation]
  | Fail reason => simp [Go.ofValidation]

/-- **Bytes are a key in Go exactly when the decoded text is one**, the byte order mark apart. -/
lemma validateKey_decodeSkip (bs : List UInt8) :
    validateKey (utf16 (decodeSkip id 0 bs)) = .Ok ↔ Go.validateKey bs false = .ok () := by
  constructor
  · intro h
    have hunits : validateUnits false (utf16 (decodeSkip id 0 bs)) 0 = .Ok := by
      cases hu : validateUnits false (utf16 (decodeSkip id 0 bs)) 0 with
      | Ok => rfl
      | Fail reason =>
          rw [validateKey, hu] at h
          split_ifs at h
    obtain ⟨cs, rfl⟩ := @exists_utf8_of_validateBytes bs (by
      rw [validateBytes_decodeSkip, hunits]
      rfl)
    rw [decodeSkip_eq_of_utf8] at h
    exact (validateKey_utf8_ok cs).mpr h
  · intro h
    obtain ⟨cs, rfl⟩ := exists_utf8_of_validateBytes (Go.validateBytes_of_validateKey h)
    rw [decodeSkip_eq_of_utf8]
    exact (validateKey_utf8_ok cs).mp h

/-! ## Headers both languages are given -/

/-- A header value: a text, which Go has as its bytes, or bytes. -/
inductive SharedValue
  | Text (cs : List Char)
  | Bytes (bytes : List UInt8)

def SharedValue.data : SharedValue → HeaderData
  | .Text cs => .Text (utf16 cs)
  | .Bytes bytes => .Bytes bytes

def SharedValue.bytes : SharedValue → List UInt8
  | .Text cs => utf8 cs
  | .Bytes bytes => bytes

/-- Headers by name, in the order they are listed. -/
abbrev SharedHeaders : Type := OrderedMap (List Char) SharedValue

/-- A byte order mark in front of a key. -/
def SharedValue.HidesMark (v : SharedValue) : Prop :=
  ∃ key, v = .Bytes (0xEF :: 0xBB :: 0xBF :: key) ∧ Go.validateKey key false = .ok ()

/-- The two values are one key, or neither is a key. -/
def ReadsAlike (v w : SharedValue) : Prop :=
  (∃ cs, v.data.text = utf16 cs ∧ w.bytes = utf8 cs ∧ validateKey (utf16 cs) = .Ok)
    ∨ validateKey v.data.text ≠ .Ok ∧ Go.validateKey w.bytes false ≠ .ok ()

/-- **A value reads alike in both languages**, unless it hides a byte order mark. -/
lemma readsAlike_self_iff (v : SharedValue) : ReadsAlike v v ↔ ¬ v.HidesMark := by
  cases v with
  | Text cs =>
      refine iff_of_true ?_ (by simp [SharedValue.HidesMark])
      by_cases hkey : validateKey (utf16 cs) = .Ok
      · exact Or.inl ⟨cs, rfl, rfl, hkey⟩
      · exact Or.inr ⟨hkey, mt (validateKey_utf8_ok cs).mp hkey⟩
  | Bytes bs =>
      by_cases hmark : [0xEF, 0xBB, 0xBF] <+: bs
      · obtain ⟨key, rfl⟩ := hmark
        have hgo : Go.validateKey ([0xEF, 0xBB, 0xBF] ++ key) false ≠ .ok () := by
          intro h
          have hmem : (0xEF : UInt8) ∈ [0xEF, 0xBB, 0xBF] ++ key := by simp
          exact absurd (Go.validateBytes_bytes (Go.validateBytes_of_validateKey h) _ hmem).2 (by decide)
        have hts : (SharedValue.Bytes ([0xEF, 0xBB, 0xBF] ++ key)).data.text
            = utf16 (decodeSkip id 0 key) := by
          simp [SharedValue.data, HeaderData.text, decode]
        have hhides : (SharedValue.Bytes ([0xEF, 0xBB, 0xBF] ++ key)).HidesMark
            ↔ Go.validateKey key false = .ok () := by
          constructor
          · rintro ⟨key', heq, hkey⟩
            obtain rfl : key = key' := by simpa using heq
            exact hkey
          · exact fun hkey => ⟨key, rfl, hkey⟩
        rw [hhides, ← validateKey_decodeSkip, ← hts]
        constructor
        · rintro (⟨cs, -, hbytes, hkey⟩ | ⟨hkey, -⟩)
          · refine absurd ?_ hgo
            rw [show [0xEF, 0xBB, 0xBF] ++ key = utf8 cs from hbytes]
            exact (validateKey_utf8_ok cs).mpr hkey
          · exact hkey
        · exact fun hkey => Or.inr ⟨hkey, hgo⟩
      · have hts : (SharedValue.Bytes bs).data.text = utf16 (decodeSkip id 0 bs) := by
          simp [SharedValue.data, HeaderData.text, decode, hmark]
        refine iff_of_true ?_ ?_
        · by_cases hkey : Go.validateKey bs false = .ok ()
          · obtain ⟨cs, rfl⟩ := exists_utf8_of_validateBytes (Go.validateBytes_of_validateKey hkey)
            rw [decodeSkip_eq_of_utf8] at hts
            exact Or.inl ⟨cs, hts, rfl, (validateKey_utf8_ok cs).mp hkey⟩
          · right
            rw [hts, ne_eq, validateKey_decodeSkip]
            exact ⟨hkey, hkey⟩
        · rintro ⟨key, heq, -⟩
          obtain rfl : bs = 0xEF :: 0xBB :: 0xBF :: key := by simpa using heq
          exact hmark ⟨key, rfl⟩

/-! ## What the doors resolve -/

section

variable {E F : Type}

/-- The identity of a header that was found, or of none. -/
def headerOutcome (keyHeader : JsString) : Option JsString → Except (QueueError E) JsString
  | none => .error (.Configuration (noHeader keyHeader))
  | some found =>
      match validateKey found with
      | .Ok => .ok found
      | .Fail reason =>
          .error (.Configuration (js ("anyonce: the resolved identity is not usable: " ++ reason)))

lemma headerOutcome_ok {x : JsString} (h : validateKey x = .Ok) (keyHeader : JsString) :
    headerOutcome (E := E) keyHeader (some x) = .ok x := by
  simp [headerOutcome, h]

lemma headerOutcome_fail {x : JsString} {reason : String} (h : validateKey x = .Fail reason)
    (keyHeader : JsString) : headerOutcome (E := E) keyHeader (some x)
      = .error (.Configuration (js ("anyonce: the resolved identity is not usable: " ++ reason))) := by
  simp [headerOutcome, h]

lemma resolveKey_header (d : Doubles F) (sha256Hex : List UInt8 → JsString) (thrown : JcsError → E)
    (toLowerCase : JsString → JsString) (message : IMessage F) {options : ResolvedOptions E F}
    (hkey : options.key = .Header) :
    resolveKey (queueMessage d sha256Hex thrown toLowerCase message options)
      = headerOutcome options.keyHeader
        (Queue.headerValue toLowerCase message.headers options.keyHeader) := by
  simp only [resolveKey, queueMessage, identityOf, hkey]
  cases Queue.headerValue toLowerCase message.headers options.keyHeader with
  | none => rfl
  | some found =>
      simp only [headerOutcome, bind, Except.bind]
      cases validateKey found <;> rfl

end

namespace Go

/-- The identity of a header that was found, or of none. -/
def headerOutcome (keyHeader : GoString) : Option GoString → Except QueueError GoString
  | none => .error (noHeader keyHeader)
  | some found =>
      match validateKey found false with
      | .ok () => .ok found
      | .error reason => .error (.InvalidKey reason)

/-- The two values are one key, or refused for one reason. -/
def SameReading (v w : GoString) : Prop :=
  v = w ∨ ∃ reason, validateKey v false = .error reason ∧ validateKey w false = .error reason

lemma headerOutcome_ok {v : GoString} (h : validateKey v false = .ok ()) (keyHeader : GoString) :
    headerOutcome keyHeader (some v) = .ok v := by
  simp [headerOutcome, h]

lemma headerOutcome_error {v : GoString} {reason : String} (h : validateKey v false = .error reason)
    (keyHeader : GoString) : headerOutcome keyHeader (some v) = .error (.InvalidKey reason) := by
  simp [headerOutcome, h]

lemma headerOutcome_eq_iff (keyHeader v w : GoString) :
    headerOutcome keyHeader (some v) = headerOutcome keyHeader (some w) ↔ SameReading v w := by
  constructor
  · intro h
    cases hv : validateKey v false with
    | ok u =>
        rw [headerOutcome_ok hv] at h
        cases hw : validateKey w false with
        | ok u' =>
            rw [headerOutcome_ok hw] at h
            exact Or.inl (Except.ok.inj h)
        | error reason =>
            rw [headerOutcome_error hw] at h
            cases h
    | error reason =>
        rw [headerOutcome_error hv] at h
        cases hw : validateKey w false with
        | ok u =>
            rw [headerOutcome_ok hw] at h
            cases h
        | error reason' =>
            rw [headerOutcome_error hw] at h
            cases h
            exact Or.inr ⟨reason, hv, hw⟩
  · rintro (rfl | ⟨reason, hv, hw⟩)
    · rfl
    · rw [headerOutcome_error hv, headerOutcome_error hw]

section

variable (sha256Hex : List UInt8 → GoString) (equalFold : GoString → GoString → Bool)
  (quoted : GoString → GoString)

lemma headerValue_eq_find? (order : RangeOrder) (name : GoString) :
    Queue.headerValue equalFold order name
      = (order.find? fun e => equalFold e.1 name).map Prod.snd := by
  induction order with
  | nil => rfl
  | cons e rest ih =>
      rw [Queue.headerValue, List.find?_cons]
      cases equalFold e.1 name with
      | true => rfl
      | false => exact ih

lemma resolveKey_header (msg : Message) (order : RangeOrder) {o : ResolvedOptions}
    (hfunc : o.keyFunc = none) (hkey : o.key = .Header) :
    resolveKey (queueMessage sha256Hex equalFold quoted o msg order)
      = headerOutcome o.keyHeader ((order.find? fun e => equalFold e.1 o.keyHeader).map Prod.snd) := by
  rw [← headerValue_eq_find?]
  simp only [resolveKey, queueMessage, identityOf, hfunc, hkey]
  cases Queue.headerValue equalFold order o.keyHeader with
  | none => rfl
  | some found =>
      simp only [headerOutcome, bind, Except.bind]
      cases validateKey found false <;> rfl

/-- Headers with one name in two cases say the same. -/
def OneReading (o : ResolvedOptions) (msg : Message) : Prop :=
  o.keyFunc = none → o.key = .Header → ∀ e ∈ msg.headers.rows, ∀ e' ∈ msg.headers.rows,
    equalFold e.1 o.keyHeader = true → equalFold e'.1 o.keyHeader = true → SameReading e.2 e'.2

/-- **The identity does not depend on the order** exactly when all headers that match say the same. -/
lemma resolveKey_order_free_iff (o : ResolvedOptions) (msg : Message) :
    (∀ order order' : RangeOrder, order.Perm msg.headers.rows → order'.Perm msg.headers.rows →
        resolveKey (queueMessage sha256Hex equalFold quoted o msg order)
          = resolveKey (queueMessage sha256Hex equalFold quoted o msg order'))
      ↔ OneReading equalFold o msg := by
  by_cases hheader : o.keyFunc = none ∧ o.key = .Header
  · obtain ⟨hfunc, hkey⟩ := hheader
    have hiff := find?_order_free_iff (p := fun e => equalFold e.1 o.keyHeader) (l := msg.headers.rows)
      fun found => headerOutcome o.keyHeader (found.map Prod.snd)
    simp only [Option.map_some, headerOutcome_eq_iff] at hiff
    simp only [resolveKey_header sha256Hex equalFold quoted msg _ hfunc hkey]
    rw [hiff]
    exact ⟨fun h _ _ => h, fun h => h hfunc hkey⟩
  · refine iff_of_true ?_ fun hfunc hkey => absurd ⟨hfunc, hkey⟩ hheader
    intro order order' _ _
    -- no other source looks at the headers
    have hsame : identityOf sha256Hex equalFold quoted o msg order
        = identityOf sha256Hex equalFold quoted o msg order' := by
      unfold identityOf
      cases hfunc : o.keyFunc with
      | some keyFunc => rfl
      | none =>
          cases hkey : o.key with
          | Header => exact absurd ⟨hfunc, hkey⟩ hheader
          | ID => rfl
          | Body => rfl
          | Other source => rfl
    rw [queueMessage, queueMessage, hsame]

end

end Go

/-! ## One identity in both languages -/

namespace SharedHeaders

variable (headers : SharedHeaders)

/-- The object TypeScript is given, listed in this order. -/
def object : OrderedMap JsString (Option HeaderData) where
  rows := headers.rows.map fun e => (utf16 e.1, some e.2.data)
  nodup := by
    have h := headers.nodup.map utf16_injective
    rwa [List.map_map] at h ⊢

/-- The map Go is given. -/
def goMap : Go.MessageHeaders where
  rows := headers.rows.map fun e => (utf8 e.1, e.2.bytes)
  nodup := by
    have h := headers.nodup.map utf8_injective
    rwa [List.map_map] at h ⊢

end SharedHeaders

/-- The two doors resolve one key, or both find no header, or both find one that is no key. -/
def SameIdentity {E : Type} :
    Except (QueueError E) JsString → Except Go.QueueError Go.GoString → Prop
  | .ok key, .ok goKey => ∃ cs, key = utf16 cs ∧ goKey = utf8 cs
  | .error err, .error goErr =>
      (∃ name, err = .Configuration (noHeader (utf16 name)) ∧ goErr = Go.noHeader (utf8 name))
        ∨ ∃ reason reason',
          err = .Configuration (js ("anyonce: the resolved identity is not usable: " ++ reason))
            ∧ goErr = .InvalidKey reason'
  | _, _ => False

section

variable {E F : Type}

/-- The refusals of a missing header and of an unusable one are told apart by their texts. -/
lemma noHeader_ne (keyHeader : JsString) (reason : String) :
    noHeader keyHeader ≠ js ("anyonce: the resolved identity is not usable: " ++ reason) := by
  intro h
  have htenth := congrArg (fun text => text[9]?) h
  simp [noHeader, js, Ecma.units] at htenth

lemma sameIdentity_some_iff (name : List Char) (v w : SharedValue) :
    SameIdentity (headerOutcome (E := E) (utf16 name) (some v.data.text))
        (Go.headerOutcome (utf8 name) (some w.bytes)) ↔ ReadsAlike v w := by
  unfold ReadsAlike
  cases hv : validateKey v.data.text with
  | Ok =>
      rw [headerOutcome_ok hv]
      cases hw : Go.validateKey w.bytes false with
      | ok u =>
          rw [Go.headerOutcome_ok hw]
          constructor
          · rintro ⟨cs, hx, hy⟩
            exact Or.inl ⟨cs, hx, hy, hx ▸ hv⟩
          · rintro (⟨cs, hx, hy, -⟩ | ⟨hx, -⟩)
            · exact ⟨cs, hx, hy⟩
            · exact absurd rfl hx
      | error reason =>
          rw [Go.headerOutcome_error hw]
          refine iff_of_false id ?_
          rintro (⟨cs, -, hy, hkey⟩ | ⟨hx, -⟩)
          · rw [hy, (validateKey_utf8_ok cs).mpr hkey] at hw
            cases hw
          · exact absurd rfl hx
  | Fail reason =>
      rw [headerOutcome_fail hv]
      cases hw : Go.validateKey w.bytes false with
      | ok u =>
          rw [Go.headerOutcome_ok hw]
          refine iff_of_false id ?_
          rintro (⟨cs, hx, -, hkey⟩ | ⟨-, hy⟩)
          · rw [hx, hkey] at hv
            cases hv
          · exact absurd rfl hy
      | error reason' =>
          rw [Go.headerOutcome_error hw]
          exact iff_of_true (Or.inr ⟨reason, reason', rfl, rfl⟩) (Or.inr ⟨by simp, by simp⟩)

lemma not_sameIdentity_some_none (name : List Char) (x : JsString) :
    ¬ SameIdentity (headerOutcome (E := E) (utf16 name) (some x))
      (Go.headerOutcome (utf8 name) none) := by
  cases hx : validateKey x with
  | Ok =>
      rw [headerOutcome_ok hx]
      exact id
  | Fail reason =>
      rw [headerOutcome_fail hx]
      rintro (⟨other, htext, -⟩ | ⟨reason', reason'', -, hgo⟩)
      · exact noHeader_ne _ _ (QueueError.Configuration.inj htext).symm
      · cases hgo

lemma not_sameIdentity_none_some (name : List Char) (y : Go.GoString) :
    ¬ SameIdentity (headerOutcome (E := E) (utf16 name) none)
      (Go.headerOutcome (utf8 name) (some y)) := by
  cases hy : Go.validateKey y false with
  | ok u =>
      rw [Go.headerOutcome_ok hy]
      exact id
  | error reason =>
      rw [Go.headerOutcome_error hy]
      rintro (⟨other, -, hgo⟩ | ⟨reason', reason'', htext, -⟩)
      · cases hgo
      · exact noHeader_ne _ _ (QueueError.Configuration.inj htext)

variable (toLowerCase : JsString → JsString) (equalFold : Go.GoString → Go.GoString → Bool)

/-- The name matches in TypeScript. -/
def Matches (name : List Char) (e : List Char × SharedValue) : Bool :=
  toLowerCase (utf16 e.1) = toLowerCase (utf16 name)

/-- The name matches in Go. -/
def Go.Matches (name : List Char) (e : List Char × SharedValue) : Bool :=
  equalFold (utf8 e.1) (utf8 name)

/-- What matches in both languages hides no byte order mark, and what matches in one of them only reads
as everything that matches in the other, where there is something. -/
structure ReadAlike (name : List Char) (headers : SharedHeaders) : Prop where
  both : ∀ e ∈ headers.rows, Matches toLowerCase name e = true →
    Go.Matches equalFold name e = true → ¬ e.2.HidesMark
  ts : ∀ e ∈ headers.rows, Matches toLowerCase name e = true → Go.Matches equalFold name e = false →
    (∃ e' ∈ headers.rows, Go.Matches equalFold name e' = true)
      ∧ ∀ e' ∈ headers.rows, Go.Matches equalFold name e' = true → ReadsAlike e.2 e'.2
  go : ∀ e' ∈ headers.rows, Go.Matches equalFold name e' = true → Matches toLowerCase name e' = false →
    (∃ e ∈ headers.rows, Matches toLowerCase name e = true)
      ∧ ∀ e ∈ headers.rows, Matches toLowerCase name e = true → ReadsAlike e.2 e'.2

lemma headerValue_object (headers : SharedHeaders) (name : List Char) :
    Queue.headerValue toLowerCase headers.object (utf16 name)
      = (headers.rows.find? (Matches toLowerCase name)).map fun e => e.2.data.text := by
  show findHeader toLowerCase (toLowerCase (utf16 name))
    (headers.rows.map fun e => (utf16 e.1, some e.2.data)) = _
  induction headers.rows with
  | nil => rfl
  | cons e rest ih =>
      rw [List.map_cons, findHeader, List.find?_cons]
      by_cases hname : toLowerCase (utf16 e.1) = toLowerCase (utf16 name)
      · simp [Matches, hname]
      · simp [Matches, hname, ih]

lemma find?_goMap (headers : SharedHeaders) (name : List Char) :
    (headers.goMap.rows.find? fun e => equalFold e.1 (utf8 name)).map Prod.snd
      = (headers.rows.find? (Go.Matches equalFold name)).map fun e => e.2.bytes := by
  show ((headers.rows.map fun e => (utf8 e.1, e.2.bytes)).find? _).map Prod.snd = _
  rw [List.find?_map, Option.map_map]
  rfl

end

/-- **The two doors find one identity**, however the headers are listed, exactly when what matches reads
alike. -/
lemma sameIdentity_iff {E F : Type} (d : Doubles F) (sha256Hex : List UInt8 → JsString)
    (thrown : JcsError → E) (toLowerCase : JsString → JsString)
    (goSha256Hex : List UInt8 → Go.GoString) (equalFold : Go.GoString → Go.GoString → Bool)
    (quoted : Go.GoString → Go.GoString) {options : ResolvedOptions E F} {o : Go.ResolvedOptions}
    {name : List Char} (message : IMessage F) (msg : Go.Message) (headers : SharedHeaders)
    (hkey : options.key = .Header) (hname : options.keyHeader = utf16 name)
    (hfunc : o.keyFunc = none) (hgoKey : o.key = .Header) (hgoName : o.keyHeader = utf8 name) :
    (∀ listed : SharedHeaders, listed.rows.Perm headers.rows →
        SameIdentity
          (resolveKey (queueMessage d sha256Hex thrown toLowerCase
            { message with headers := listed.object } options))
          (Go.resolveKey (Go.queueMessage goSha256Hex equalFold quoted o
            { msg with headers := listed.goMap } listed.goMap.rows)))
      ↔ ReadAlike toLowerCase equalFold name headers := by
  have hiff := find?_agree_iff (l := headers.rows) (p := Matches toLowerCase name)
    (q := Go.Matches equalFold name) (R := fun x y =>
      SameIdentity (headerOutcome (E := E) (utf16 name) (x.map fun e => e.2.data.text))
        (Go.headerOutcome (utf8 name) (y.map fun e => e.2.bytes)))
    (Or.inl ⟨name, rfl, rfl⟩) (fun e => not_sameIdentity_some_none name _)
    fun e => not_sameIdentity_none_some name _
  simp only [Option.map_some, sameIdentity_some_iff, readsAlike_self_iff] at hiff
  have hresolve : ∀ listed : SharedHeaders,
      SameIdentity
          (resolveKey (queueMessage d sha256Hex thrown toLowerCase
            { message with headers := listed.object } options))
          (Go.resolveKey (Go.queueMessage goSha256Hex equalFold quoted o
            { msg with headers := listed.goMap } listed.goMap.rows))
        ↔ SameIdentity (headerOutcome (E := E) (utf16 name)
            ((listed.rows.find? (Matches toLowerCase name)).map fun e => e.2.data.text))
          (Go.headerOutcome (utf8 name)
            ((listed.rows.find? (Go.Matches equalFold name)).map fun e => e.2.bytes)) := by
    intro listed
    rw [resolveKey_header d sha256Hex thrown toLowerCase _ hkey,
      Go.resolveKey_header goSha256Hex equalFold quoted _ _ hfunc hgoKey, hname, hgoName,
      headerValue_object, find?_goMap]
  constructor
  · intro h
    have hlists : ∀ l' : List (List Char × SharedValue), l'.Perm headers.rows →
        SameIdentity (headerOutcome (E := E) (utf16 name)
            ((l'.find? (Matches toLowerCase name)).map fun e => e.2.data.text))
          (Go.headerOutcome (utf8 name)
            ((l'.find? (Go.Matches equalFold name)).map fun e => e.2.bytes)) := by
      intro l' hl'
      have hnodup : (l'.map Prod.fst).Nodup := (hl'.map Prod.fst).nodup_iff.mpr headers.nodup
      exact (hresolve ⟨l', hnodup⟩).mp (h ⟨l', hnodup⟩ hl')
    obtain ⟨hboth, hts, hgo⟩ := hiff.mp hlists
    exact ⟨hboth, hts, hgo⟩
  · intro h listed hlisted
    exact (hresolve listed).mpr (hiff.mpr ⟨h.both, h.ts, h.go⟩ listed.rows hlisted)

/-- **When the identity of a message does not depend on the order of its headers.**  In Go, exactly when
all headers that match the configured name say the same.  In the two languages, exactly when a header
both match hides no byte order mark, and one that only one of them matches reads as those the other
matches. -/
theorem identity_order_free_iff (goSha256Hex : List UInt8 → Go.GoString)
    (equalFold : Go.GoString → Go.GoString → Bool) (quoted : Go.GoString → Go.GoString)
    (o : Go.ResolvedOptions) (msg : Go.Message) :
    ((∀ order order' : Go.RangeOrder, order.Perm msg.headers.rows → order'.Perm msg.headers.rows →
          Go.resolveKey (Go.queueMessage goSha256Hex equalFold quoted o msg order)
            = Go.resolveKey (Go.queueMessage goSha256Hex equalFold quoted o msg order'))
        ↔ Go.OneReading equalFold o msg)
    ∧ ∀ (E F : Type) (d : Doubles F) (sha256Hex : List UInt8 → JsString) (thrown : JcsError → E)
        (toLowerCase : JsString → JsString) (options : ResolvedOptions E F) (name : List Char)
        (message : IMessage F) (headers : SharedHeaders),
      options.key = .Header → options.keyHeader = utf16 name → o.keyFunc = none → o.key = .Header →
      o.keyHeader = utf8 name →
      ((∀ listed : SharedHeaders, listed.rows.Perm headers.rows →
          SameIdentity
            (resolveKey (queueMessage d sha256Hex thrown toLowerCase
              { message with headers := listed.object } options))
            (Go.resolveKey (Go.queueMessage goSha256Hex equalFold quoted o
              { msg with headers := listed.goMap } listed.goMap.rows)))
        ↔ ReadAlike toLowerCase equalFold name headers) := by
  refine ⟨Go.resolveKey_order_free_iff goSha256Hex equalFold quoted o msg, ?_⟩
  intro E F d sha256Hex thrown toLowerCase options name message headers hkey hname hfunc hgoKey hgoName
  exact sameIdentity_iff d sha256Hex thrown toLowerCase goSha256Hex equalFold quoted message msg headers
    hkey hname hfunc hgoKey hgoName

/-- A key in a header, and another header. -/
def keyedHeaders : SharedHeaders where
  rows := [("traceparent".toList, .Bytes [0xEF]), ("Idempotency-Key".toList, .Bytes [0x6b, 0x31])]
  nodup := by decide

/-- A Go message with the headers, and options that take the key from one. -/
def Go.headerMessage (headers : Go.MessageHeaders) : Go.Message where
  id := ascii "1-0"
  body := []
  headers := headers
  metadata := { provider := .Memory, memory := some (ascii "orders") }

def Go.headerOptions : Go.ResolvedOptions := Go.withDefaults (fun _ => []) { key := some .Header }

def headerOptions : ResolvedOptions Unit (Bool × Fin 10) :=
  resolveOptions oneDigit (fun _ => []) (fun _ => ()) { key := some .Header }

def headerMessage (headers : OrderedMap JsString (Option HeaderData)) :
    IMessage (Bool × Fin 10) where
  id := js "1-0"
  body := .Text []
  headers := headers
  metadata := { provider := .Memory, memory := some (js "orders") }

/-- `EqualFold` of ASCII names. -/
def Go.foldAscii (a b : Go.GoString) : Bool := Go.toLowerName a = Go.toLowerName b

/-- One header with the key: one identity in both languages, however the headers are listed. -/
theorem identity_order_free_iff_keyed :
    (∀ listed : SharedHeaders, listed.rows.Perm keyedHeaders.rows →
        SameIdentity
          (resolveKey (queueMessage oneDigit (fun _ => []) (fun _ => ()) byteLowercase
            (headerMessage listed.object) headerOptions))
          (Go.resolveKey (Go.queueMessage (fun _ => []) Go.foldAscii id Go.headerOptions
            (Go.headerMessage listed.goMap) listed.goMap.rows)))
      ∧ ∀ order order' : Go.RangeOrder, order.Perm keyedHeaders.goMap.rows →
        order'.Perm keyedHeaders.goMap.rows →
        Go.resolveKey (Go.queueMessage (fun _ => []) Go.foldAscii id Go.headerOptions
            (Go.headerMessage keyedHeaders.goMap) order)
          = Go.resolveKey (Go.queueMessage (fun _ => []) Go.foldAscii id Go.headerOptions
            (Go.headerMessage keyedHeaders.goMap) order') := by
  obtain ⟨hgo, hts⟩ := identity_order_free_iff (fun _ => []) Go.foldAscii id Go.headerOptions
    (Go.headerMessage keyedHeaders.goMap)
  have hrows : ∀ e ∈ keyedHeaders.rows, Go.Matches Go.foldAscii "idempotency-key".toList e = true →
      e.2 = .Bytes [0x6b, 0x31] := by
    intro e he hmatch
    rcases List.mem_cons.mp he with rfl | he
    · exact absurd hmatch (by decide)
    · rw [List.mem_singleton.mp he]
  have hnames : ∀ e ∈ keyedHeaders.rows, Matches byteLowercase "idempotency-key".toList e
      = Go.Matches Go.foldAscii "idempotency-key".toList e := by decide
  refine ⟨?_, ?_⟩
  · refine (hts Unit (Bool × Fin 10) oneDigit (fun _ => []) (fun _ => ()) byteLowercase headerOptions
      "idempotency-key".toList (headerMessage Table.empty) keyedHeaders rfl (by decide) rfl rfl
      (by decide)).mpr ⟨?_, ?_, ?_⟩
    · rintro e he - hmatch ⟨key, hvalue, -⟩
      rw [hrows e he hmatch] at hvalue
      cases hvalue
    · intro e he hmatch hno
      rw [hnames e he, hno] at hmatch
      cases hmatch
    · intro e he hmatch hno
      rw [hnames e he, hmatch] at hno
      cases hno
  · refine hgo.mpr ?_
    intro _ _ e he e' he' hmatch hmatch'
    left
    obtain ⟨u, hu, rfl⟩ := List.mem_map.mp he
    obtain ⟨v, hv, rfl⟩ := List.mem_map.mp he'
    exact congrArg SharedValue.bytes ((hrows u hu hmatch).trans (hrows v hv hmatch').symm)

/-- **Two headers that differ only in case**: the identity is the one or the other. -/
theorem identity_depends_on_order :
    ∃ headers : Go.MessageHeaders, ∃ order order' : Go.RangeOrder,
      order.Perm headers.rows ∧ order'.Perm headers.rows
        ∧ Go.resolveKey (Go.queueMessage (fun _ => []) Go.foldAscii id Go.headerOptions
            (Go.headerMessage headers) order) = .ok (Go.ascii "a")
        ∧ Go.resolveKey (Go.queueMessage (fun _ => []) Go.foldAscii id Go.headerOptions
            (Go.headerMessage headers) order') = .ok (Go.ascii "b") := by
  refine ⟨⟨[(Go.ascii "idempotency-key", Go.ascii "a"), (Go.ascii "Idempotency-Key", Go.ascii "b")],
      by decide⟩, _, [(Go.ascii "Idempotency-Key", Go.ascii "b"),
      (Go.ascii "idempotency-key", Go.ascii "a")], List.Perm.refl _, List.Perm.swap _ _ _, ?_, ?_⟩
  · rfl
  · rfl

end Anyonce
