import Anyonce.Go.ResponseWriter

/-!
# Replaying a response in Go

`WriteReplay` of `go/internal/httpx/replay.go`, and how its response compares with the first one.  It adds
the stored headers to the header map it finds, which outer middleware may have filled.

**Headers** are compared as they are sent, under each spelling of a name by itself, with those that the
server adds.  The ones that frame the body or belong to the connection are not compared.

* `served` — a handler served through a capture writer, over a header map that is filled already.
* `SameResponse` — the same status, values of the allowlisted headers and body, and no header added beside
  the two a replay adds.
* `replay_fidelity_iff` — when the replay is the same response.
-/

namespace Anyonce.Go

open Relational

/-! ## Names of headers -/

/-- A name that is sent: net/http skips one that is no token. -/
def IsToken (name : GoString) : Prop := name.all validHeaderFieldByte = true

/-- A fact about all bytes, checked on the codes. -/
lemma forall_byte {P : UInt8 → Prop} (h : ∀ n < 256, P (UInt8.ofNat n)) (b : UInt8) : P b := by
  have hb := h b.toNat b.toNat_lt
  rwa [UInt8.ofNat_toNat] at hb

/-- **What a change of case does to a byte**: it stays a byte of a token or stays none, the case it had is lost, and a
hyphen has none. -/
lemma changeCase : ∀ b,
    (validHeaderFieldByte (toLower b) = validHeaderFieldByte b ∧ validHeaderFieldByte (toUpper b) = validHeaderFieldByte b)
      ∧ (toUpper (toLower b) = toUpper b ∧ toLower (toUpper b) = toLower b ∧ toLower (toLower b) = toLower b
        ∧ toUpper (toUpper b) = toUpper b)
      ∧ (toLower b = 0x2d ↔ b = 0x2d) ∧ (toUpper b = 0x2d ↔ b = 0x2d) :=
  forall_byte (by decide +kernel)

lemma canonicalBytes_toLower (name : GoString) (upper : Bool) :
    canonicalBytes (toLowerName name) upper = canonicalBytes name upper := by
  induction name generalizing upper with
  | nil => rfl
  | cons b rest ih =>
      obtain ⟨-, ⟨hupper, -, hlower, -⟩, hhyphen, -⟩ := changeCase b
      rw [toLowerName, List.map_cons, canonicalBytes, canonicalBytes, ← toLowerName, ih, hupper, hlower]
      simp only [hhyphen]

lemma toLowerName_canonicalBytes (name : GoString) (upper : Bool) :
    toLowerName (canonicalBytes name upper) = toLowerName name := by
  induction name generalizing upper with
  | nil => rfl
  | cons b rest ih =>
      have hrest : List.map toLower (canonicalBytes rest (b = 0x2d)) = List.map toLower rest := ih _
      obtain ⟨-, ⟨-, hlost, hlower, -⟩, -⟩ := changeCase b
      rw [canonicalBytes, toLowerName, toLowerName, List.map_cons, List.map_cons, hrest]
      cases upper with
      | true => rw [if_pos rfl, hlost]
      | false => rw [if_neg Bool.false_ne_true, hlower]

lemma canonicalBytes_idem (name : GoString) (upper : Bool) :
    canonicalBytes (canonicalBytes name upper) upper = canonicalBytes name upper := by
  induction name generalizing upper with
  | nil => rfl
  | cons b rest ih =>
      obtain ⟨-, ⟨-, -, hlower, hupper⟩, hhyphen, hhyphen'⟩ := changeCase b
      cases upper with
      | true => simp [canonicalBytes, hupper, hhyphen', ih]
      | false => simp [canonicalBytes, hlower, hhyphen, ih]

lemma canonicalBytes_valid (name : GoString) (upper : Bool) :
    (canonicalBytes name upper).all validHeaderFieldByte = name.all validHeaderFieldByte := by
  induction name generalizing upper with
  | nil => rfl
  | cons b rest ih =>
      rw [canonicalBytes, List.all_cons, List.all_cons, ih]
      cases upper with
      | true => rw [if_pos rfl, (changeCase b).1.2]
      | false => rw [if_neg Bool.false_ne_true, (changeCase b).1.1]

lemma toLowerName_valid (name : GoString) :
    (toLowerName name).all validHeaderFieldByte = name.all validHeaderFieldByte := by
  rw [toLowerName, List.all_map]
  exact congrArg name.all (funext fun b => (changeCase b).1.1)

/-- A canonical name is its own canonical form. -/
lemma canonicalHeaderKey_idem (name : GoString) :
    canonicalHeaderKey (canonicalHeaderKey name) = canonicalHeaderKey name := by
  by_cases hvalid : name.all validHeaderFieldByte = true
  · rw [canonicalHeaderKey, canonicalHeaderKey, if_pos hvalid, canonicalBytes_valid, if_pos hvalid,
      canonicalBytes_idem]
  · rw [canonicalHeaderKey, canonicalHeaderKey, if_neg hvalid, if_neg hvalid]

/-- **A stored name names the header it was stored for**, if any: only a canonical token `name` is the
canonical form of its lower case. -/
lemma canonicalHeaderKey_toLower {name name' : GoString} (hname : canonicalHeaderKey name = name)
    (htoken : IsToken name') : canonicalHeaderKey (toLowerName name) = name' ↔ name = name' := by
  rw [canonicalHeaderKey, toLowerName_valid, canonicalBytes_toLower]
  by_cases hvalid : name.all validHeaderFieldByte = true
  · rw [canonicalHeaderKey, if_pos hvalid] at hname
    rw [if_pos hvalid, hname]
  · rw [if_neg hvalid]
    constructor
    · rintro rfl
      exact absurd (toLowerName_valid name ▸ htoken) hvalid
    · rintro rfl
      exact absurd htoken hvalid

/-! ## Entries -/

lemma entry_set (h : Header) (name : GoString) (vs : List GoString) (name' : GoString) :
    Header.entry (OrderedMap.set h name vs) name' = if name' = name then vs else h.entry name' := by
  rw [Header.entry, OrderedMap.get_set]
  split_ifs <;> rfl

/-- The headers of a record, added to a map. -/
def addHeaders (h : Header) (stored : List (GoString × GoString)) : Header :=
  stored.foldl (fun h kv => h.add kv.1 kv.2) h

/-- Each entry gets the values stored for it, behind those that are there. -/
lemma get_addHeaders (h : Header) (stored : List (GoString × GoString)) (name : GoString) :
    OrderedMap.get (addHeaders h stored) name
      = if ((stored.filter fun kv => canonicalHeaderKey kv.1 = name).map Prod.snd) = [] then
          OrderedMap.get h name
        else some (h.entry name ++ (stored.filter fun kv => canonicalHeaderKey kv.1 = name).map Prod.snd) := by
  induction stored generalizing h with
  | nil => rfl
  | cons kv rest ih =>
      have hadd : OrderedMap.get (h.add kv.1 kv.2) name = if canonicalHeaderKey kv.1 = name
          then some (h.entry name ++ [kv.2]) else OrderedMap.get h name := by
        rw [Header.add, OrderedMap.get_set]
        by_cases hkey : canonicalHeaderKey kv.1 = name
        · rw [if_pos hkey.symm, if_pos hkey, hkey]
        · rw [if_neg (Ne.symm hkey), if_neg hkey]
      rw [addHeaders, List.foldl_cons, ← addHeaders, ih, Header.entry, hadd]
      by_cases hkey : canonicalHeaderKey kv.1 = name
      · rw [if_pos hkey, List.filter_cons_of_pos (by simp [hkey]), List.map_cons, if_neg (List.cons_ne_nil _ _)]
        split_ifs with hrest
        · rw [hrest]
        · simp
      · rw [if_neg hkey, List.filter_cons_of_neg (by simp [hkey])]
        rfl

lemma entry_addHeaders (h : Header) (stored : List (GoString × GoString)) (name : GoString) :
    (addHeaders h stored).entry name = h.entry name
      ++ (stored.filter fun kv => canonicalHeaderKey kv.1 = name).map Prod.snd := by
  rw [Header.entry, get_addHeaders]
  split_ifs with hnone
  · rw [hnone, List.append_nil]
    rfl
  · rfl

/-- **The values that are stored under a name** are those of the map, when the name is allowlisted. -/
lemma stored_values {allow : List GoString} (hallow : ∀ m ∈ allow, canonicalHeaderKey m = m) (h : Header)
    {name : GoString} (htoken : IsToken name) :
    ((storedHeaders allow h).filter fun kv => canonicalHeaderKey kv.1 = name).map Prod.snd
      = if name ≠ ascii "Set-Cookie" ∧ name ∈ allow then h.entry name else [] := by
  have heach : ∀ m ∈ (sortedKeys h).filter (fun m => m ≠ ascii "Set-Cookie" && allow.contains m),
      (((h.entry m).map fun value => (toLowerName m, value)).filter
        fun kv => canonicalHeaderKey kv.1 = name).map Prod.snd = if m = name then h.entry m else [] := by
    intro m hm
    have hm' : m ∈ allow := by
      rw [List.mem_filter, Bool.and_eq_true, List.contains_iff_mem] at hm
      exact hm.2.2
    have hkey := canonicalHeaderKey_toLower (hallow m hm') htoken
    simp only [List.filter_map, Function.comp_def, hkey]
    by_cases hname : m = name
    · simp [hname]
    · simp [hname]
  have hmissing : name ∉ sortedKeys h → h.entry name = [] := by
    intro hname
    rw [(sortedKeys_perm h).mem_iff] at hname
    cases hget : OrderedMap.get h name with
    | none => rw [Header.entry, hget, Option.getD_none]
    | some vs => exact absurd (List.mem_map_of_mem (OrderedMap.get_eq_some_iff.mp hget)) hname
  rw [storedHeaders, List.filter_flatMap, List.map_flatMap, List.flatMap_congr heach,
    Relational.flatMap_single ((sortedKeys_nodup h).filter _)]
  simp only [List.mem_filter, Bool.and_eq_true, decide_eq_true_eq, List.contains_iff_mem]
  by_cases hkeys : name ∈ sortedKeys h
  · simp [hkeys]
  · simp [hkeys, hmissing hkeys]

/-! ## The first response -/

/-- A handler served through a capture writer, over a header map that is filled already, to the end of the
request; `none` is a panic. -/
def served (preset : Header) (limit : ℤ) (calls : List HandlerCall) :
    Option (CaptureWriter × ResponseWriter) := do
  let (w, passed) ← CaptureWriter.run calls (.new preset limit)
  let r ← ResponseWriter.calls passed { header := preset }
  let r ← r.finish
  some (w, r)

/-- What is committed is never informational. -/
lemma commit_final (h : Header) (calls : List HandlerCall) : informational (commit h calls).1 = false := by
  induction calls generalizing h with
  | nil => rfl
  | cons call rest ih =>
      cases call with
      | Header change => exact ih (change h)
      | WriteHeader code =>
          rw [commit]
          split_ifs with hinfo
          · exact ih h
          · exact Bool.eq_false_iff.mpr hinfo
      | Write p => rfl
      | Flush => rfl

section

variable {preset : Header} {limit : ℤ} {calls : List HandlerCall} {w : CaptureWriter}
variable {r : ResponseWriter}

/-- The capture of a handler that returned. -/
lemma served_capture (hlow : 0 < limit) (hmax : limit ≤ maxInt)
    (h : served preset limit calls = some (w, r)) :
    w.buf = (written calls).take (limit + 1).toNat ∧ w.committed [] = commit preset calls := by
  simp only [served, Option.bind_eq_bind, Option.bind_eq_some_iff] at h
  obtain ⟨⟨w₁, passed⟩, hrun, r₀, -, r₁, -, heq⟩ := h
  obtain ⟨rfl, rfl⟩ := Prod.mk.inj (Option.some.inj heq)
  have hroom : limit < maxInt ∨ writes calls = [] := by
    by_contra hnone
    obtain ⟨hlt, hwrites⟩ := not_or.mp hnone
    have hlimit : limit = maxInt := le_antisymm hmax (not_lt.mp hlt)
    rw [CaptureWriter.run_panics ⟨hlimit, rfl, rfl⟩ hwrites] at hrun
    cases hrun
  obtain ⟨w₂, passed₂, hrun₂, hextends⟩ := CaptureWriter.run_extends (w := .new preset limit) hlow.le
    (CaptureWriter.capped_new preset hlow.le) hroom
  obtain ⟨rfl, rfl⟩ := Prod.mk.inj (Option.some.inj (hrun.symm.trans hrun₂))
  refine ⟨hextends.buf, ?_⟩
  rw [hextends.committed, List.append_nil]
  rfl

/-- **The first response** is the committed one, unless the handler switched protocols first. -/
lemma served_response (h : served preset limit calls = some (w, r)) (hno : switches calls = false) :
    (r.status, r.sent) = w.committed [] ∧ r.contentLength = declaredLength (w.committed []).2
      ∧ 200 ≤ r.status ∧ r.status ≤ 999 ∧ r.Sends (written calls) := by
  simp only [served, Option.bind_eq_bind, Option.bind_eq_some_iff] at h
  obtain ⟨⟨w₁, passed⟩, hrun, r₀, hcalls, r₂, hfinish, heq⟩ := h
  obtain ⟨rfl, rfl⟩ := Prod.mk.inj (Option.some.inj heq)
  obtain ⟨r₁, hensured, rfl⟩ := Option.map_eq_some_iff.mp hfinish
  have hsync := calls_synced (synced_new preset limit) hrun hcalls (Or.inr hno)
  rw [ResponseWriter.ensureHeader, hsync.wroteHeader] at hensured
  split_ifs at hensured with hwrote
  · obtain rfl := Option.some.inj hensured
    obtain ⟨hstatus, hsent, hlength, hlow, hhigh⟩ := hsync.flush.response hwrote
    rw [CaptureWriter.committed, if_pos hwrote, hstatus, hsent]
    exact ⟨rfl, hlength, hlow, hhigh, hsync.flush.sends hwrote⟩
  · rw [Bool.not_eq_true] at hwrote
    have hcode : 200 ≤ (200 : ℤ) ∧ (200 : ℤ) ≤ 999 := by decide
    rw [ResponseWriter.writeHeader_final (hsync.wroteHeader.trans hwrote) hcode] at hensured
    obtain rfl := Option.some.inj hensured
    have hflushed := (hsync.writeHeader hwrote hcode).flush
    obtain ⟨hstatus, hsent, hlength, hlow, hhigh⟩ := hflushed.response rfl
    rw [CaptureWriter.committed, if_neg (by simp [hwrote]), commit]
    exact ⟨Prod.ext hstatus hsent, hlength, hlow, hhigh, hflushed.sends rfl⟩

/-- The bytes that open the first response. -/
lemma served_opening (h : served preset limit calls = some (w, r)) :
    r.opening = some (openingOf (bodyAllowed r.status) r.contentLength calls 0 []) := by
  simp only [served, Option.bind_eq_bind, Option.bind_eq_some_iff] at h
  obtain ⟨⟨w₁, passed⟩, hrun, r₀, hcalls, r₁, hfinish, heq⟩ := h
  obtain ⟨rfl, rfl⟩ := Prod.mk.inj (Option.some.inj heq)
  rw [calls_opening rfl rfl rfl rfl hcalls hfinish, openingOf_passed hrun]

/-- A handler that switched protocols first is answered with 101. -/
lemma served_switched (h : served preset limit calls = some (w, r)) (hyes : switches calls = true) :
    r.status = 101 := by
  simp only [served, Option.bind_eq_bind, Option.bind_eq_some_iff] at h
  obtain ⟨⟨w₁, passed⟩, hrun, r₀, hcalls, r₁, hfinish, heq⟩ := h
  obtain ⟨rfl, rfl⟩ := Prod.mk.inj (Option.some.inj heq)
  obtain ⟨hwrote, hstatus⟩ := switches_status rfl rfl hrun hcalls hyes
  have hensured : r₀.ensureHeader = some r₀ := if_pos hwrote
  rw [ResponseWriter.finish, hensured] at hfinish
  obtain rfl := Option.some.inj hfinish
  exact hstatus

end

/-! ## The replay -/

/-- **`WriteReplay`**; `none` is a panic. -/
def writeReplay (w : ResponseWriter) (record : Option Record) : Option ResponseWriter :=
  let omitted := record.any Record.resultOmitted
  let result := record.bind Record.result
  let status := match result with
    | none => 200
    | some res => if res.status ≠ 0 then res.status else 200
  let body := match result with
    | none => []
    | some res => if omitted then [] else res.body.getD []
  let h := match result with
    | none => w.header
    | some res => addHeaders w.header (res.headers.getD [])
  let h := h.put (ascii "Idempotency-Replayed") (ascii "true")
  let h := if omitted then h.put (ascii "Idempotency-Replay") (ascii "omitted") else h
  let h := if body.length > 0 then h.put (ascii "Content-Length") (itoa body.length) else h
  do
    let w ← { w with header := h }.writeHeader status
    w.step (.Write body)

/-- A replay to the end of the request, over a header map that is filled already. -/
def replayed (preset : Header) (record : Option Record) : Option ResponseWriter :=
  (writeReplay { header := preset } record).bind ResponseWriter.finish

/-- The header map of a replay. -/
def replayHeader (preset : Header) (res : StoredResult) : Header :=
  let h := (addHeaders preset (res.headers.getD [])).put (ascii "Idempotency-Replayed") (ascii "true")
  if (res.body.getD []).length > 0 then h.put (ascii "Content-Length") (itoa (res.body.getD []).length)
  else h

section

variable {preset : Header} {record : Record} {res : StoredResult}

/-- A replay of a record with its result. -/
lemma writeReplay_eq (hres : record.result = some res) (homitted : record.resultOmitted = false) :
    writeReplay { header := preset } (some record) = ({ header := replayHeader preset res } : ResponseWriter).calls
      [.WriteHeader (if res.status ≠ 0 then res.status else 200), .Write (res.body.getD [])] := by
  simp only [writeReplay, Option.bind_some, Option.any_some, hres, homitted]
  rw [ResponseWriter.calls]
  exact Option.bind_congr fun r _ => (ResponseWriter.calls_singleton _ r).symm

/-- The names of the headers that a replay sets are canonical. -/
lemma canonicalHeaderKey_replay : canonicalHeaderKey (ascii "Idempotency-Replayed") = ascii "Idempotency-Replayed"
    ∧ canonicalHeaderKey (ascii "Content-Length") = ascii "Content-Length" := by decide +kernel

/-- Beside the two headers it sets, a replay has what is added. -/
lemma get_replayHeader {name : GoString} (hreplayed : name ≠ ascii "Idempotency-Replayed")
    (hlength : name ≠ ascii "Content-Length") : OrderedMap.get (replayHeader preset res) name
      = OrderedMap.get (addHeaders preset (res.headers.getD [])) name := by
  obtain ⟨hreplayedKey, hlengthKey⟩ := canonicalHeaderKey_replay
  rw [replayHeader]
  split_ifs with hbody
  · rw [Header.put, OrderedMap.get_set, hlengthKey, if_neg hlength, Header.put, OrderedMap.get_set, hreplayedKey,
      if_neg hreplayed]
  · rw [Header.put, OrderedMap.get_set, hreplayedKey, if_neg hreplayed]

/-- A replay declares the length of the body it writes. -/
lemma declaredLength_replayHeader (hbody : res.body.getD [] ≠ [])
    (hmax : ((res.body.getD []).length : ℤ) ≤ maxInt) :
    declaredLength (replayHeader preset res) = some ((res.body.getD []).length : ℤ) := by
  have hkey := canonicalHeaderKey_replay.2
  have hget : (replayHeader preset res).get (ascii "Content-Length") = itoa (res.body.getD []).length := by
    rw [replayHeader, if_pos (List.length_pos_iff.mpr hbody), Header.get, Header.values, hkey, Header.put,
      Header.entry, OrderedMap.get_set, hkey, if_pos rfl]
    rfl
  rw [declaredLength, hget, parseDecimal_itoa hmax]
  simp [Option.filter]

/-- The length that a replay declares leaves room for its body. -/
lemma fits_replayHeader (hmax : ((res.body.getD []).length : ℤ) ≤ maxInt) :
    ∀ n ∈ declaredLength (replayHeader preset res), ((res.body.getD []).length : ℤ) ≤ n := by
  by_cases hempty : res.body.getD [] = []
  · rw [hempty]
    exact ResponseWriter.declaredLength_nonneg
  · rw [declaredLength_replayHeader hempty hmax]
    rintro n ⟨⟩
    exact le_refl _

/-- A body that is written at once opens the response whole. -/
lemma openingOf_write {length : Option ℤ} {p : List UInt8} (hroom : ∀ n ∈ length, (p.length : ℤ) ≤ n)
    (allowed : Bool) (code : ℤ) :
    openingOf allowed length [.WriteHeader code, .Write p] 0 [] = if allowed then p else [] := by
  have hfits : ¬ length.any (fun n => n < ((0 + p.length : ℕ) : ℤ)) = true := by
    rw [Option.any_eq_true, Nat.zero_add]
    rintro ⟨n, hn, hlt⟩
    exact absurd (of_decide_eq_true hlt) (not_lt.mpr (hroom n hn))
  rw [openingOf, openingOf]
  split_ifs with hskip hallowed hallowed
  · exact (hskip.resolve_right (by simp [hallowed])).symm
  · rfl
  · rw [spill, if_pos (rfl : ([] : List UInt8) = [])]
    split_ifs <;> rfl
  · exact absurd (Or.inr (Bool.eq_false_iff.mpr hallowed)) hskip

variable (preset) in
/-- **A replay sends the stored response**, over the header map it finds. -/
lemma replayed_final (hres : record.result = some res) (homitted : record.resultOmitted = false)
    (hstatus : 200 ≤ res.status ∧ res.status ≤ 999) (hmax : ((res.body.getD []).length : ℤ) ≤ maxInt) :
    ∃ r, replayed preset (some record) = some r ∧ r.status = res.status
      ∧ r.sent = replayHeader preset res
      ∧ r.body = (if bodyAllowed res.status then res.body.getD [] else [])
      ∧ r.opening = some (if bodyAllowed res.status then res.body.getD [] else []) := by
  have hne : res.status ≠ 0 := by omega
  have hroom : ∀ n ∈ declaredLength (replayHeader preset res), ((res.body.getD []).length : ℤ) ≤ n :=
    fits_replayHeader hmax
  obtain ⟨r, hwrite, hwrote, hcode, hsent, hlength, hbody, hcount⟩ :
      ∃ r, ({ header := replayHeader preset res } : ResponseWriter).writeHeader res.status = some r
        ∧ r.wroteHeader = true ∧ r.status = res.status ∧ r.sent = replayHeader preset res
        ∧ r.contentLength = declaredLength (replayHeader preset res) ∧ r.body = [] ∧ r.written = 0 :=
    ⟨_, ResponseWriter.writeHeader_final rfl hstatus, rfl, rfl, rfl, rfl, rfl, rfl⟩
  have hensured : r.ensureHeader = some r := if_pos hwrote
  have hsends : (r.send (res.body.getD [])).flush.Sends (res.body.getD []) := by
    refine ((ResponseWriter.sends_nil hbody hcount ?_).send _).flush
    rw [hlength]
    exact ResponseWriter.declaredLength_nonneg
  obtain ⟨-, hwrote', hcode', hsent', hlength'⟩ := r.send_fields (res.body.getD [])
  have hcalls : writeReplay { header := preset } (some record) = some (r.send (res.body.getD [])) := by
    rw [writeReplay_eq hres homitted, if_pos hne, ResponseWriter.calls, ResponseWriter.step, hwrite,
      Option.bind_some, ResponseWriter.calls_singleton, ResponseWriter.step, hensured]
    rfl
  have hfinish : (r.send (res.body.getD [])).finish = some (r.send (res.body.getD [])).flush := by
    rw [ResponseWriter.finish, ResponseWriter.ensureHeader, if_pos (hwrote'.trans hwrote)]
    rfl
  have hreplay : replayed preset (some record) = some (r.send (res.body.getD [])).flush := by
    rw [replayed, hcalls]
    exact hfinish
  refine ⟨_, hreplay, hcode'.trans hcode, hsent'.trans hsent, ?_, ?_⟩
  · split_ifs with hallowed
    · refine (hsends.body_eq_iff ((congrArg _ (hcode'.trans hcode)).trans hallowed)).mpr ?_
      exact (hlength'.trans hlength) ▸ hroom
    · exact hsends.blocked ((congrArg _ (hcode'.trans hcode)).trans (Bool.eq_false_iff.mpr hallowed))
  · rw [calls_opening rfl rfl rfl rfl ((writeReplay_eq hres homitted).symm.trans hcalls) hfinish]
    refine congrArg some ((openingOf_write ?_ _ _).trans ?_)
    · exact (hlength'.trans hlength) ▸ hroom
    · exact if_congr (by rw [← hcode'.trans hcode]; rfl) rfl rfl

end

/-- A replay that panics or not, its status is that of the record, and 200 for a status of zero. -/
lemma replayed_status {preset : Header} {record : Record} {res : StoredResult}
    (hres : record.result = some res) (homitted : record.resultOmitted = false)
    (hfinal : informational res.status = false) {r : ResponseWriter}
    (h : replayed preset (some record) = some r) : r.status ≠ 101 := by
  obtain ⟨r₁, hwrites, hfinish⟩ := Option.bind_eq_some_iff.mp h
  rw [writeReplay_eq hres homitted] at hwrites
  have hfinal' : informational (if res.status ≠ 0 then res.status else 200) = false := by
    split_ifs
    · exact hfinal
    · rfl
  generalize (if res.status ≠ 0 then res.status else 200) = status at hwrites hfinal'
  obtain ⟨r₀, hwrite, hrest⟩ := Option.bind_eq_some_iff.mp hwrites
  rw [ResponseWriter.step, ResponseWriter.writeHeader, if_neg Bool.false_ne_true] at hwrite
  split_ifs at hwrite with hrange hgoes
  · exact absurd hgoes.1 (by simp [hfinal'])
  · obtain rfl := Option.some.inj hwrite
    obtain ⟨-, hstatus, -⟩ := finish_opens rfl hrest hfinish
    rw [hstatus]
    rintro rfl
    exact absurd hfinal' (by decide)

/-! ## Fidelity -/

/-- A header that is compared: its name is a token, and it is none that a replay sets, that frames the body
or that belongs to the connection. -/
structure IsSent (name : GoString) : Prop where
  token : IsToken name
  compared : canonicalHeaderKey name ∉ [ascii "Idempotency-Replayed", ascii "Content-Length",
    ascii "Transfer-Encoding", ascii "Connection"]

/-- It is spelled like an allowlisted one. -/
structure Allowlisted (allow : List GoString) (name : GoString) : Prop where
  mem : canonicalHeaderKey name ∈ allow
  notCookie : canonicalHeaderKey name ≠ ascii "Set-Cookie"

/-- The second response is the first one over: the same status, the same values of each allowlisted header
beside `Set-Cookie`, the same body, and no header that the first one has not.  Each response has its date;
to `HEAD` no body is sent. -/
structure SameResponse (detect : List UInt8 → GoString) (date date' : GoString) (head : Bool)
    (allow : List GoString) (first second : ResponseWriter) : Prop where
  status : second.status = first.status
  headers : ∀ name, IsSent name → Allowlisted allow name →
    second.fields detect date' name = first.fields detect date name
  additions : ∀ name, IsSent name → second.fields detect date' name ≠ [] →
    first.fields detect date name ≠ []
  body : (if head then [] else second.body) = if head then [] else first.body

/-- The entries of a header map, with the allowlisted values of another one behind them. -/
def overlay (allow : List GoString) (preset committed : Header) (name : GoString) :
    Option (List GoString) :=
  if name ≠ ascii "Set-Cookie" ∧ allow.contains name ∧ committed.entry name ≠ [] then
    some (preset.entry name ++ committed.entry name)
  else OrderedMap.get preset name

lemma overlay_eq (allow : List GoString) (preset committed : Header) (name : GoString) :
    overlay allow preset committed name
      = if name ≠ ascii "Set-Cookie" ∧ name ∈ allow ∧ committed.entry name ≠ [] then
          some (preset.entry name ++ committed.entry name)
        else OrderedMap.get preset name := by
  simp only [overlay, List.contains_iff_mem]

section

variable (detect : List UInt8 → GoString) (date date' : GoString) (allow : List GoString)
variable (preset : Header) (calls : List HandlerCall)

/-- What the server adds to the response of a handler. -/
def firstAdditions (name : GoString) : List GoString :=
  let (status, committed) := commit preset calls
  additions detect date status (OrderedMap.get committed)
    (openingOf (bodyAllowed status) (declaredLength committed) calls 0 []) name

/-- What it adds when all of the body comes with the header, and the header map is the one at entry with the
stored values in it. -/
def replayAdditions (name : GoString) : List GoString :=
  let (status, committed) := commit preset calls
  additions detect date' status (overlay allow preset committed) (written calls) name

end

/-- The condition on a handler, over the header map `preset`.  A header that a status drops is not asked
about. -/
structure Replayable (detect : List UInt8 → GoString) (date date' : GoString) (head : Bool)
    (allow : List GoString) (preset : Header) (calls : List HandlerCall) : Prop where
  noSwitch : switches calls = false
  fresh : ∀ name ∈ allow, IsSent name → Allowlisted allow name →
    name ∉ suppressedHeaders (commit preset calls).1 → (commit preset calls).2.entry name ≠ [] →
    preset.entry name = []
  unset : ∀ name ∈ allow, IsSent name → Allowlisted allow name →
    name ∉ suppressedHeaders (commit preset calls).1 → (commit preset calls).2.entry name = [] →
    (preset.entry name).map fieldValue ++ replayAdditions detect date' allow preset calls name
      = firstAdditions detect date preset calls name
  respelled : ∀ name ∉ allow, IsSent name → Allowlisted allow name →
    (preset.entry name).map fieldValue = ((commit preset calls).2.entry name).map fieldValue
  kept : ∀ name, IsSent name → name ∉ suppressedHeaders (commit preset calls).1 →
    preset.entry name ≠ [] ∨ replayAdditions detect date' allow preset calls name ≠ [] →
    (commit preset calls).2.entry name ≠ [] ∨ firstAdditions detect date preset calls name ≠ []
  fits : head = false → bodyAllowed (commit preset calls).1 = true →
    ∀ n ∈ declaredLength (commit preset calls).2, ((written calls).length : ℤ) ≤ n

section

variable {detect : List UInt8 → GoString} {date date' : GoString} {head : Bool}
variable {allow : List GoString} {preset : Header} {limit : ℤ} {calls : List HandlerCall}
variable {w : CaptureWriter} {r : ResponseWriter}

variable (allow) in
/-- The result that is stored of a response within the cap. -/
lemma result_within (hlow : 0 < limit) (hmax : limit ≤ maxInt)
    (hserved : served preset limit calls = some (w, r)) (hfits : ((written calls).length : ℤ) ≤ limit) :
    (w.result allow).status = (commit preset calls).1
      ∧ (w.result allow).headers = some (storedHeaders allow (commit preset calls).2)
      ∧ (w.result allow).body.getD [] = written calls := by
  obtain ⟨hbuf, hcommitted⟩ := served_capture hlow hmax hserved
  rw [List.take_of_length_le (by omega)] at hbuf
  rw [CaptureWriter.result_eq, hcommitted, hbuf]
  refine ⟨rfl, rfl, ?_⟩
  dsimp only
  split_ifs with hempty
  · exact hempty.symm
  · rfl

/-- Header by header, what a replay sends is what was preset and what was stored. -/
lemma get_replay (hallow : ∀ m ∈ allow, canonicalHeaderKey m = m) {res : StoredResult} {committed : Header}
    (hheaders : res.headers = some (storedHeaders allow committed)) {name : GoString} (htoken : IsToken name)
    (hreplayed : name ≠ ascii "Idempotency-Replayed") (hlength : name ≠ ascii "Content-Length") :
    OrderedMap.get (replayHeader preset res) name = overlay allow preset committed name := by
  rw [get_replayHeader hreplayed hlength, hheaders, Option.getD_some, get_addHeaders,
    stored_values hallow committed htoken, overlay_eq]
  by_cases hmem : name ≠ ascii "Set-Cookie" ∧ name ∈ allow
  · rw [if_pos hmem]
    by_cases hentry : committed.entry name = []
    · rw [if_pos hentry, if_neg (fun h => h.2.2 hentry)]
    · rw [if_neg hentry, if_pos ⟨hmem.1, hmem.2, hentry⟩]
  · rw [if_neg hmem, if_pos rfl, if_neg (fun h => hmem ⟨h.1, h.2.1⟩)]

/-- The values of an entry of the two maps. -/
lemma overlay_getD (committed : Header) (name : GoString) :
    (overlay allow preset committed name).getD [] = preset.entry name
      ++ if name ≠ ascii "Set-Cookie" ∧ name ∈ allow then committed.entry name else [] := by
  rw [overlay_eq]
  split_ifs with hentry hmem hmem
  · rfl
  · exact absurd ⟨hentry.1, hentry.2.1⟩ hmem
  · have hnil : committed.entry name = [] := by
      by_contra hne
      exact hentry ⟨hmem.1, hmem.2, hne⟩
    rw [hnil, List.append_nil]
    rfl
  · rw [List.append_nil]
    rfl

/-- What the first response has under a name. -/
lemma served_fields (detect : List UInt8 → GoString) (date : GoString) (hlow : 0 < limit)
    (hmax : limit ≤ maxInt) (hserved : served preset limit calls = some (w, r))
    (hno : switches calls = false) (name : GoString) : r.fields detect date name
      = if (suppressedHeaders (commit preset calls).1).contains name then []
        else ((commit preset calls).2.entry name).map fieldValue
          ++ firstAdditions detect date preset calls name := by
  obtain ⟨-, hcommitted⟩ := served_capture hlow hmax hserved
  obtain ⟨hresponse, hlength, -⟩ := served_response hserved hno
  rw [hcommitted] at hresponse hlength
  obtain ⟨hstatus, hsent⟩ := Prod.mk.inj hresponse
  rw [ResponseWriter.fields, served_opening hserved, hstatus, hsent, hlength]
  rfl

/-- What a replay has under a name. -/
lemma replayed_fields (detect : List UInt8 → GoString) (date' : GoString)
    (hallow : ∀ m ∈ allow, canonicalHeaderKey m = m) {res : StoredResult}
    (hheaders : res.headers = some (storedHeaders allow (commit preset calls).2)) {r' : ResponseWriter}
    (hstatus : r'.status = (commit preset calls).1) (hsent : r'.sent = replayHeader preset res)
    (hopening : r'.opening = some (if bodyAllowed (commit preset calls).1 then written calls else []))
    {name : GoString} (hname : IsSent name) : r'.fields detect date' name
      = if (suppressedHeaders (commit preset calls).1).contains name then []
        else (preset.entry name ++ if name ≠ ascii "Set-Cookie" ∧ name ∈ allow
            then (commit preset calls).2.entry name else []).map fieldValue
          ++ replayAdditions detect date' allow preset calls name := by
  have hget : ∀ {name : GoString}, IsToken name → name ≠ ascii "Idempotency-Replayed" →
      name ≠ ascii "Content-Length" → OrderedMap.get (replayHeader preset res) name
        = overlay allow preset (commit preset calls).2 name :=
    fun htoken hreplayed hlength => get_replay hallow hheaders htoken hreplayed hlength
  have hown : ∀ name ∈ [ascii "Content-Type", ascii "Content-Encoding", ascii "Transfer-Encoding",
      ascii "Date"], OrderedMap.get (replayHeader preset res) name
        = overlay allow preset (commit preset calls).2 name := by
    have htokens : ∀ name ∈ [ascii "Content-Type", ascii "Content-Encoding", ascii "Transfer-Encoding",
        ascii "Date"], name.all validHeaderFieldByte = true ∧ name ≠ ascii "Idempotency-Replayed"
          ∧ name ≠ ascii "Content-Length" := by decide +kernel
    intro name hmem
    obtain ⟨htoken, hreplayed, hlength⟩ := htokens name hmem
    exact hget htoken hreplayed hlength
  obtain ⟨hreplayedKey, hlengthKey⟩ := canonicalHeaderKey_replay
  have hentry : OrderedMap.get (replayHeader preset res) name
      = overlay allow preset (commit preset calls).2 name := by
    refine hget hname.token ?_ ?_
    · rintro rfl
      exact hname.compared (by simp [hreplayedKey])
    · rintro rfl
      exact hname.compared (by simp [hlengthKey])
  rw [ResponseWriter.fields, fields, hstatus, hsent, hentry, overlay_getD, additions_congr hown, hopening,
    Option.getD_some]
  refine if_congr Iff.rfl rfl (congrArg _ ?_)
  split_ifs with hallowed
  · rfl
  · exact additions_blocked (Bool.eq_false_iff.mpr hallowed) _

variable (detect date date' allow preset calls) in
/-- Under a spelling that is not the canonical one, nothing is dropped and nothing added. -/
lemma respelled_plain {name : GoString} (hname : canonicalHeaderKey name ≠ name) :
    (∀ status, name ∉ suppressedHeaders status)
      ∧ firstAdditions detect date preset calls name = []
      ∧ replayAdditions detect date' allow preset calls name = [] := by
  have hcanonical : ∀ name ∈ [ascii "Content-Type", ascii "Content-Length", ascii "Transfer-Encoding",
      ascii "Date"], canonicalHeaderKey name = name := by decide +kernel
  have hne : ∀ own ∈ [ascii "Content-Type", ascii "Content-Length", ascii "Transfer-Encoding",
      ascii "Date"], name ≠ own := by
    rintro own hown rfl
    exact hname (hcanonical name hown)
  simp only [List.forall_mem_cons, List.not_mem_nil, IsEmpty.forall_iff, implies_true, and_true] at hne
  obtain ⟨htype, hlength, htransfer, hdate⟩ := hne
  refine ⟨?_, ?_, ?_⟩
  · intro status
    rw [suppressedHeaders]
    split_ifs <;> simp [htype, hlength, htransfer]
  · by_contra h
    exact (additions_ne_nil h).elim htype hdate
  · by_contra h
    exact (additions_ne_nil h).elim htype hdate

/-- Nothing is added to a header that has a value. -/
lemma firstAdditions_of_entry {name : GoString} (h : (commit preset calls).2.entry name ≠ []) :
    firstAdditions detect date preset calls name = [] := by
  refine additions_of_entry fun hnone => h ?_
  rw [Header.entry, hnone, Option.getD_none]

lemma replayAdditions_of_entry {name : GoString} (hmem : name ≠ ascii "Set-Cookie" ∧ name ∈ allow)
    (h : (commit preset calls).2.entry name ≠ []) :
    replayAdditions detect date' allow preset calls name = [] := by
  refine additions_of_entry ?_
  rw [overlay_eq, if_pos ⟨hmem.1, hmem.2, h⟩]
  exact Option.some_ne_none _

/-- Under a name that is compared, the replay has the same values exactly when those of the handler are fresh, or what
is added without them is the same; and under a spelling that is not stored, when the handler leaves what was preset. -/
lemma header_same_iff {name : GoString} {first second : List GoString}
    (hfirst : first = if (suppressedHeaders (commit preset calls).1).contains name then []
      else ((commit preset calls).2.entry name).map fieldValue ++ firstAdditions detect date preset calls name)
    (hsecond : second = if (suppressedHeaders (commit preset calls).1).contains name then []
      else (preset.entry name ++ if name ≠ ascii "Set-Cookie" ∧ name ∈ allow
          then (commit preset calls).2.entry name else []).map fieldValue
        ++ replayAdditions detect date' allow preset calls name)
    (hcookie : name ∈ allow → name ≠ ascii "Set-Cookie") (hspelled : name ∉ allow → canonicalHeaderKey name ≠ name) :
    second = first
      ↔ (name ∈ allow → name ∉ suppressedHeaders (commit preset calls).1 → (commit preset calls).2.entry name ≠ [] →
          preset.entry name = [])
        ∧ (name ∈ allow → name ∉ suppressedHeaders (commit preset calls).1 → (commit preset calls).2.entry name = [] →
          (preset.entry name).map fieldValue ++ replayAdditions detect date' allow preset calls name
            = firstAdditions detect date preset calls name)
        ∧ (name ∉ allow →
          (preset.entry name).map fieldValue = ((commit preset calls).2.entry name).map fieldValue) := by
  subst hfirst hsecond
  by_cases hmem : name ∈ allow
  · by_cases hkept : name ∈ suppressedHeaders (commit preset calls).1
    · simp [hmem, hkept]
    have hsent : (suppressedHeaders (commit preset calls).1).contains name = false := by simpa using hkept
    rw [hsent, if_neg Bool.false_ne_true, if_neg Bool.false_ne_true, if_pos ⟨hcookie hmem, hmem⟩]
    by_cases hentry : (commit preset calls).2.entry name = []
    · simp [hmem, hkept, hentry]
    · rw [firstAdditions_of_entry hentry, replayAdditions_of_entry ⟨hcookie hmem, hmem⟩ hentry]
      simp [hmem, hkept, hentry]
  · obtain ⟨hkept, hadds, hadds'⟩ := respelled_plain detect date date' allow preset calls (hspelled hmem)
    have hsent : (suppressedHeaders (commit preset calls).1).contains name = false := by simpa using hkept _
    rw [hsent, if_neg Bool.false_ne_true, if_neg Bool.false_ne_true, hadds, hadds', if_neg fun h => hmem h.2]
    simp [hmem]

/-- What the replay has under a name is no addition exactly when something is sent there at first, too. -/
lemma header_kept_iff {name : GoString} {first second : List GoString}
    (hfirst : first = if (suppressedHeaders (commit preset calls).1).contains name then []
      else ((commit preset calls).2.entry name).map fieldValue ++ firstAdditions detect date preset calls name)
    (hsecond : second = if (suppressedHeaders (commit preset calls).1).contains name then []
      else (preset.entry name ++ if name ≠ ascii "Set-Cookie" ∧ name ∈ allow
          then (commit preset calls).2.entry name else []).map fieldValue
        ++ replayAdditions detect date' allow preset calls name) :
    (second ≠ [] → first ≠ [])
      ↔ (name ∉ suppressedHeaders (commit preset calls).1 →
          preset.entry name ≠ [] ∨ replayAdditions detect date' allow preset calls name ≠ [] →
          (commit preset calls).2.entry name ≠ [] ∨ firstAdditions detect date preset calls name ≠ []) := by
  subst hfirst hsecond
  by_cases hkept : name ∈ suppressedHeaders (commit preset calls).1
  · simp [hkept]
  have hsent : (suppressedHeaders (commit preset calls).1).contains name = false := by simpa using hkept
  rw [hsent, if_neg Bool.false_ne_true, if_neg Bool.false_ne_true]
  by_cases hentry : (commit preset calls).2.entry name = []
  · simp [hkept, hentry, imp_iff_not_or]
  · simp [hentry]

/-- The replay has the same body exactly when the handler writes no more than it declares, where there is a body. -/
lemma body_same_iff (hlow : 0 < limit) (hmax : limit ≤ maxInt) (hserved : served preset limit calls = some (w, r))
    (hno : switches calls = false) :
    (if bodyAllowed (commit preset calls).1 then written calls else []) = r.body
      ↔ (bodyAllowed (commit preset calls).1 = true →
          ∀ n ∈ declaredLength (commit preset calls).2, ((written calls).length : ℤ) ≤ n) := by
  obtain ⟨-, hcommitted⟩ := served_capture hlow hmax hserved
  obtain ⟨hresponse, hlength, -, -, hsends⟩ := served_response hserved hno
  rw [hcommitted] at hresponse hlength
  obtain ⟨hfirst, -⟩ := Prod.mk.inj hresponse
  split_ifs with hallowed
  · rw [eq_comm, hsends.body_eq_iff (hfirst ▸ hallowed), hlength]
    exact ⟨fun h _ => h, fun h => h hallowed⟩
  · refine iff_of_true ?_ fun hyes => absurd hyes hallowed
    exact (hsends.blocked (by rw [hfirst]; exact Bool.eq_false_iff.mpr hallowed)).symm

/-- The replay is the same response exactly when the handler is replayable, for one that does not switch
protocols. -/
lemma sameResponse_iff (hallow : ∀ m ∈ allow, canonicalHeaderKey m = m) (hlow : 0 < limit)
    (hmax : limit ≤ maxInt) (hserved : served preset limit calls = some (w, r))
    (hfits : ((written calls).length : ℤ) ≤ limit) (hno : switches calls = false) {r' : ResponseWriter}
    (hstatus : r'.status = (commit preset calls).1)
    (hsent : r'.sent = replayHeader preset (w.result allow))
    (hbody : r'.body = if bodyAllowed (commit preset calls).1 then written calls else [])
    (hopening : r'.opening = some (if bodyAllowed (commit preset calls).1 then written calls else [])) :
    SameResponse detect date date' head allow r r'
      ↔ Replayable detect date date' head allow preset calls := by
  obtain ⟨-, hcommitted⟩ := served_capture hlow hmax hserved
  obtain ⟨hresponse, -⟩ := served_response hserved hno
  obtain ⟨-, hheaders, -⟩ := result_within allow hlow hmax hserved hfits
  rw [hcommitted] at hresponse
  obtain ⟨hfirst, -⟩ := Prod.mk.inj hresponse
  have hfields := served_fields detect date hlow hmax hserved hno
  have hfields' := fun {name} (hname : IsSent name) =>
    replayed_fields detect date' hallow hheaders hstatus hsent hopening hname
  have hsame := fun {name} (hname : IsSent name) (hlisted : Allowlisted allow name) =>
    header_same_iff (hfields name) (hfields' hname)
      (fun hmem hcookie => hlisted.notCookie (hcookie ▸ hallow _ hmem))
      (fun hmem hcanonical => hmem (hcanonical ▸ hlisted.mem))
  have hkept := fun {name} (hname : IsSent name) => header_kept_iff (hfields name) (hfields' hname)
  have hbody_iff := body_same_iff hlow hmax hserved hno
  constructor
  · intro h
    exact {
      noSwitch := hno
      fresh := fun name hmem hname hlisted => ((hsame hname hlisted).mp (h.headers name hname hlisted)).1 hmem
      unset := fun name hmem hname hlisted => ((hsame hname hlisted).mp (h.headers name hname hlisted)).2.1 hmem
      respelled := fun name hmem hname hlisted => ((hsame hname hlisted).mp (h.headers name hname hlisted)).2.2 hmem
      kept := fun name hname => (hkept hname).mp (h.additions name hname)
      fits := by
        rintro rfl
        refine hbody_iff.mp ?_
        rw [← hbody]
        exact h.body }
  · intro h
    refine ⟨hstatus.trans hfirst.symm, fun name hname hlisted => (hsame hname hlisted).mpr ?_,
      fun name hname => (hkept hname).mpr (h.kept name hname), ?_⟩
    · exact ⟨fun hmem => h.fresh name hmem hname hlisted, fun hmem => h.unset name hmem hname hlisted,
        fun hmem => h.respelled name hmem hname hlisted⟩
    · cases head with
      | true => rfl
      | false => exact hbody.trans (hbody_iff.mpr (h.fits rfl))

end

/-- The allowlist of `httpmw`. -/
def defaultStoreHeaders : List GoString :=
  [ascii "Content-Type", ascii "Content-Language", ascii "Location", ascii "ETag", ascii "Link"]

/-- A handler that names a language and writes two bytes, one by one. -/
def plainHandler : List HandlerCall :=
  [.Header fun h => h.put (ascii "content-language") (ascii "en"), .WriteHeader 201, .Write [0x6f], .Write [0x6b]]

/-- The record of a result. -/
def recordOf (res : StoredResult) : Record where
  scope := []
  key := []
  fingerprint := []
  state := .Completed
  fence := 1
  leaseUntil := 0
  createdAt := 0
  expiresAt := 0
  result := some res

/-- The type that is detected on a text, and the dates of two responses. -/
def plainType : List UInt8 → GoString := fun _ => ascii "text/plain; charset=utf-8"

def firstDate : GoString := ascii "Thu, 01 Jan 2026 00:00:00 GMT"

def replayDate : GoString := ascii "Thu, 01 Jan 2026 00:00:07 GMT"

/-- The handler's response has a type that the server detects, on both occasions. -/
lemma plainHandler_replayable : Replayable plainType firstDate replayDate false
    (headerSet none defaultStoreHeaders) Table.empty plainHandler := by
  refine ⟨by decide, fun _ _ _ _ _ _ => rfl, ?_, ?_, ?_, ?_⟩
  · intro name hmem _ _ _ _
    have hsame : ∀ name ∈ headerSet none defaultStoreHeaders,
        replayAdditions plainType replayDate (headerSet none defaultStoreHeaders) Table.empty plainHandler name
          = firstAdditions plainType firstDate Table.empty plainHandler name :=
      List.forall_iff_forall_mem.mp (by decide +kernel)
    exact hsame name hmem
  · intro name hmem _ _
    have hlanguage : canonicalHeaderKey (ascii "content-language") ∈ headerSet none defaultStoreHeaders := by
      decide +kernel
    have hentry : (commit Table.empty plainHandler).2.entry name = [] := by
      refine (entry_set _ _ _ _).trans (if_neg ?_)
      rintro rfl
      exact hmem hlanguage
    rw [hentry]
    rfl
  · intro name _ _ hadds
    refine Or.inr ?_
    rcases additions_ne_nil (hadds.resolve_left fun h => h rfl) with rfl | rfl <;> decide +kernel
  · intro _ _ n hn
    have hnone : declaredLength (commit Table.empty plainHandler).2 = none := by decide +kernel
    rw [hnone] at hn
    cases hn

/-- A map that outer middleware has filled. -/
def outerHeader : Header := Header.put Table.empty (ascii "Content-Type") (ascii "text/plain")

end Anyonce.Go
