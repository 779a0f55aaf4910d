import Anyonce.Core.Decimal
import Anyonce.Go.Writer

/-!
# The response below the capture writer

What the HTTP/1.1 server of `net/http` does with the calls it is passed, as far as a client can see it:
the status and the headers of the final response, and the bytes of its body.  An informational status goes
out at once and is not final, except 101, after which nothing is.  A status that forbids a body has none,
and a body ends where the declared `Content-Length` does: a `Write` beyond it is refused whole.  A status
of other than three digits is a panic.

**Headers.**  The header goes out with the first bytes that do: when the buffer is full, when the handler
flushes it, or at the end.  The server adds a date, and a content type that it detects on those bytes; from
a response without a body it drops headers of a body.  Which type is detected on which bytes is a
parameter.  How the body is framed and what becomes of the connection is left out, trailers included.

* `Synced` — how the response follows the capture writer that passes it the calls of a handler.
* `calls_synced` — it does to the end, unless the handler switched protocols first.
* `calls_opening` — the bytes that go out with the header, read off the calls.
-/

namespace Anyonce.Go

open Relational

/-! ## Integers as text -/

/-- `strconv.Itoa` of a length. -/
def itoa (n : ℕ) : GoString := (Ecma.natText n).map UInt16.toUInt8

/-- `strconv.ParseInt` to the base of ten and 64 bits; `none` is an error. -/
def parseDecimal (text : GoString) : Option ℤ :=
  let digits := match text with
    | 0x2b :: rest => if rest.head? = some 0x2d then [] else rest
    | _ => text
  (Ecma.parseInt (digits.map UInt8.toUInt16)).filter fun n => -2 ^ 63 ≤ n && n ≤ maxInt

lemma parseDecimal_itoa {n : ℕ} (h : (n : ℤ) ≤ maxInt) : parseDecimal (itoa n) = some (n : ℤ) := by
  have hbyte : ∀ u ∈ Ecma.natText n, u.toUInt8.toUInt16 = u ∧ u.toUInt8 ≠ 0x2b := by
    intro u hu
    have hdigit := Ecma.isDigit_natText n u hu
    simp only [Ecma.isDigit, Bool.and_eq_true, decide_eq_true_eq, UInt16.le_iff_toNat_le,
      UInt16.reduceToNat] at hdigit
    have hback : u.toUInt8.toUInt16 = u := by
      refine UInt16.toNat_inj.mp ?_
      simp only [UInt8.toNat_toUInt16, UInt16.toNat_toUInt8]
      omega
    refine ⟨hback, ?_⟩
    intro hplus
    rw [hplus] at hback
    rw [← hback] at hdigit
    exact absurd hdigit.1 (by decide)
  have hunits : (itoa n).map UInt8.toUInt16 = Ecma.natText n := by
    rw [itoa, List.map_map]
    exact (List.map_congr_left fun u hu => (hbyte u hu).1).trans (List.map_id _)
  have hsign : ∀ rest, itoa n ≠ 0x2b :: rest := by
    intro rest hplus
    have hmem : (0x2b : UInt8) ∈ itoa n := by
      rw [hplus]
      exact List.mem_cons_self
    obtain ⟨u, hu, hu'⟩ := List.mem_map.mp hmem
    exact (hbyte u hu).2 hu'
  have hdigits : parseDecimal (itoa n)
      = (Ecma.parseInt ((itoa n).map UInt8.toUInt16)).filter fun n => -2 ^ 63 ≤ n && n ≤ maxInt := by
    rw [parseDecimal]
    exact hsign
  have hparse : Ecma.parseInt (Ecma.natText n) = some (n : ℤ) := Ecma.parseInt_intText n
  rw [hdigits, hunits, hparse]
  simp [Option.filter, h]

/-! ## Responses -/

/-- `sent` is the header map as it stood when the final status was written, and `opening` the bytes that
went out with it: until it is there the bytes of `body` are buffered. -/
structure ResponseWriter where
  header : Header
  wroteHeader : Bool := false
  status : ℤ := 0
  sent : Header := Table.empty
  contentLength : Option ℤ := none
  written : ℕ := 0
  body : List UInt8 := []
  opening : Option (List UInt8) := none

/-- Whether a status permits a body. -/
def bodyAllowed (status : ℤ) : Bool := !informational status && status ≠ 204 && status ≠ 304

/-- The length a header map declares; a value that is no length counts as none. -/
def declaredLength (h : Header) : Option ℤ :=
  (parseDecimal (h.get (ascii "Content-Length"))).filter fun n => 0 ≤ n

/-- The size of the buffer that is filled before the header goes out. -/
def bufferBeforeChunkingSize : ℕ := 2048

/-- What a `Write` sends on, behind the bytes that are buffered; `none` while there is room for it.  With
nothing buffered a large write goes out whole. -/
def spill (buffered p : List UInt8) : Option (List UInt8) :=
  if buffered.length + p.length ≤ bufferBeforeChunkingSize then none
  else if buffered = [] then some p
  else some ((buffered ++ p).take bufferBeforeChunkingSize)

namespace ResponseWriter

/-- `WriteHeader`; `none` is a panic. -/
def writeHeader (r : ResponseWriter) (code : ℤ) : Option ResponseWriter :=
  if r.wroteHeader then some r
  else if code < 100 ∨ 999 < code then none
  else if informational code ∧ code ≠ 101 then some r
  else some { r with
    wroteHeader := true
    status := code
    sent := r.header
    contentLength := declaredLength r.header }

/-- The header is written, with status 200, unless it was before. -/
def ensureHeader (r : ResponseWriter) : Option ResponseWriter :=
  if r.wroteHeader then some r else r.writeHeader 200

/-- What a `Write` sends, once there is a header. -/
def send (r : ResponseWriter) (p : List UInt8) : ResponseWriter :=
  if p = [] ∨ bodyAllowed r.status = false then r
  else
    let written := r.written + p.length
    if r.contentLength.any fun n => n < (written : ℤ) then { r with written }
    else { r with written, body := r.body ++ p, opening := r.opening.or (spill r.body p) }

/-- The header goes out, with what is buffered. -/
def flush (r : ResponseWriter) : ResponseWriter := { r with opening := some (r.opening.getD r.body) }

/-- One call. -/
def step (r : ResponseWriter) : HandlerCall → Option ResponseWriter
  | .Header change => some { r with header := change r.header }
  | .WriteHeader code => r.writeHeader code
  | .Write p => r.ensureHeader.map fun r => r.send p
  | .Flush => r.ensureHeader.map flush

/-- The calls of a handler, one after another; `none` where one of them panics. -/
def calls : List HandlerCall → ResponseWriter → Option ResponseWriter
  | [], r => some r
  | call :: rest, r => (r.step call).bind (calls rest)

/-- The end of the request. -/
def finish (r : ResponseWriter) : Option ResponseWriter := r.ensureHeader.map flush

/-- A final status of three digits is written. -/
lemma writeHeader_final {r : ResponseWriter} (hwrote : r.wroteHeader = false) {code : ℤ}
    (hcode : 200 ≤ code ∧ code ≤ 999) : r.writeHeader code = some { r with
      wroteHeader := true
      status := code
      sent := r.header
      contentLength := declaredLength r.header } := by
  have hfinal : informational code = false := by
    simp only [informational, Bool.and_eq_false_iff, decide_eq_false_iff_not]
    omega
  have hrange : ¬ (code < 100 ∨ 999 < code) := by omega
  rw [writeHeader, if_neg (by simp [hwrote]), if_neg hrange, if_neg (by simp [hfinal])]

lemma calls_append (cs cs' : List HandlerCall) (r : ResponseWriter) :
    calls (cs ++ cs') r = (calls cs r).bind (calls cs') := by
  induction cs generalizing r with
  | nil => rfl
  | cons c rest ih =>
      rw [List.cons_append, calls, calls, Option.bind_assoc]
      exact Option.bind_congr fun r' _ => ih r'

lemma calls_singleton (call : HandlerCall) (r : ResponseWriter) : calls [call] r = r.step call := by
  rw [calls]
  cases r.step call <;> rfl

/-- What a client gets of the data that was written. -/
structure Sends (r : ResponseWriter) (data : List UInt8) : Prop where
  blocked : bodyAllowed r.status = false → r.body = []
  written : bodyAllowed r.status = true → r.written = data.length
  fits : bodyAllowed r.status = true → (∀ n ∈ r.contentLength, (data.length : ℤ) ≤ n) → r.body = data
  cut : bodyAllowed r.status = true → (∃ n ∈ r.contentLength, n < (data.length : ℤ)) →
    r.body.length < data.length

/-- A flush sends nothing that was not written. -/
lemma Sends.flush {r : ResponseWriter} {data : List UInt8} (h : r.Sends data) : r.flush.Sends data := by
  obtain ⟨hblocked, hwritten, hfits, hcut⟩ := h
  exact ⟨hblocked, hwritten, hfits, hcut⟩

lemma declaredLength_nonneg {h : Header} : ∀ n ∈ declaredLength h, 0 ≤ n := by
  intro n hn
  exact of_decide_eq_true (Option.filter_eq_some_iff.mp hn).2

/-- Before anything is written nothing is sent. -/
lemma sends_nil {r : ResponseWriter} (hbody : r.body = []) (hcount : r.written = 0)
    (hlength : ∀ n ∈ r.contentLength, 0 ≤ n) : r.Sends [] := by
  refine ⟨fun _ => hbody, fun _ => hcount, fun _ _ => hbody, ?_⟩
  rintro - ⟨n, hn, hlt⟩
  exact absurd hlt (not_lt.mpr (hlength n hn))

/-- A write that is let through is counted, and sent when it fits. -/
lemma send_eq (r : ResponseWriter) (p : List UInt8) :
    r.send p = if p = [] ∨ bodyAllowed r.status = false then r
      else { r with
        written := r.written + p.length
        body := if r.contentLength.any fun n => n < ((r.written + p.length : ℕ) : ℤ) then r.body
          else r.body ++ p
        opening := if r.contentLength.any fun n => n < ((r.written + p.length : ℕ) : ℤ) then r.opening
          else r.opening.or (spill r.body p) } := by
  rw [send]
  dsimp only
  split_ifs <;> rfl

lemma send_fields (r : ResponseWriter) (p : List UInt8) :
    (r.send p).header = r.header ∧ (r.send p).wroteHeader = r.wroteHeader
      ∧ (r.send p).status = r.status ∧ (r.send p).sent = r.sent
      ∧ (r.send p).contentLength = r.contentLength := by
  rw [send_eq]
  split_ifs <;> exact ⟨rfl, rfl, rfl, rfl, rfl⟩

/-- **One write**: all of it is sent or nothing, and nothing is sent after one that was not. -/
lemma Sends.send {r : ResponseWriter} {data : List UInt8} (h : r.Sends data) (p : List UInt8) :
    (r.send p).Sends (data ++ p) := by
  obtain ⟨hblocked, hwritten, hfits, hcut⟩ := h
  by_cases hskip : p = [] ∨ bodyAllowed r.status = false
  · rw [send_eq, if_pos hskip]
    rcases hskip with rfl | hforbidden
    · rw [List.append_nil]
      exact ⟨hblocked, hwritten, hfits, hcut⟩
    · have hnever : ∀ {P : Prop}, bodyAllowed r.status = true → P := by
        intro P hallowed
        rw [hforbidden] at hallowed
        cases hallowed
      exact ⟨hblocked, hnever, hnever, hnever⟩
  · obtain ⟨hne, hallowed⟩ := not_or.mp hskip
    rw [Bool.not_eq_false] at hallowed
    have hpos : 0 < p.length := List.length_pos_iff.mpr hne
    have hcount := hwritten hallowed
    rw [send_eq, if_neg hskip]
    refine ⟨?_, ?_, ?_, ?_⟩
    · intro hforbidden
      exact absurd (hallowed.symm.trans hforbidden) (by decide)
    · intro _
      rw [List.length_append, hcount]
    · intro _ hroom
      have hfit : ¬ r.contentLength.any (fun n => n < ((r.written + p.length : ℕ) : ℤ)) = true := by
        rw [Option.any_eq_true]
        rintro ⟨n, hn, hlt⟩
        have hle := hroom n hn
        rw [decide_eq_true_iff, hcount] at hlt
        rw [List.length_append] at hle
        omega
      have hbody : r.body = data := by
        refine hfits hallowed fun n hn => ?_
        have hle := hroom n hn
        rw [List.length_append] at hle
        omega
      dsimp only
      rw [if_neg hfit, hbody]
    · rintro - ⟨n, hn, hlt⟩
      have hover : r.contentLength.any (fun n => n < ((r.written + p.length : ℕ) : ℤ)) = true := by
        rw [Option.any_eq_true]
        refine ⟨n, hn, ?_⟩
        rw [decide_eq_true_iff, hcount, ← List.length_append]
        exact hlt
      have hshort : r.body.length ≤ data.length := by
        by_cases hroom : ∀ n ∈ r.contentLength, (data.length : ℤ) ≤ n
        · rw [hfits hallowed hroom]
        · simp only [not_forall, not_le, exists_prop] at hroom
          exact (hcut hallowed hroom).le
      dsimp only
      rw [if_pos hover, List.length_append]
      omega

/-- The body is all of the data exactly when a declared length leaves room for it. -/
lemma Sends.body_eq_iff {r : ResponseWriter} {data : List UInt8} (h : r.Sends data)
    (hallowed : bodyAllowed r.status = true) :
    r.body = data ↔ ∀ n ∈ r.contentLength, (data.length : ℤ) ≤ n := by
  constructor
  · intro hbody n hn
    by_contra hlong
    have hlt := h.cut hallowed ⟨n, hn, not_le.mp hlong⟩
    rw [hbody] at hlt
    exact lt_irrefl _ hlt
  · exact h.fits hallowed

end ResponseWriter

/-! ## Headers as they are sent -/

/-- A value as it is written: a line break is a space, and spaces at its ends are lost. -/
def fieldValue (value : GoString) : GoString :=
  Unicode.trim (fun b => b = 0x20 || b = 0x09 || b = 0x0a || b = 0x0d)
    (value.map fun b => if b = 0x0a ∨ b = 0x0d then 0x20 else b)

/-- The headers that are dropped from a response without a body. -/
def suppressedHeaders (status : ℤ) : List GoString :=
  if status = 304 then [ascii "Content-Type", ascii "Content-Length", ascii "Transfer-Encoding"]
  else if bodyAllowed status then []
  else [ascii "Content-Length", ascii "Transfer-Encoding"]

/-- What the server adds of its own to a header map, given by its entries: the date unless the map has an
entry for one, and where a body may follow that is not encoded, the type that is detected on the bytes that
go out with the header, again unless there is an entry. -/
def additions (detect : List UInt8 → GoString) (date : GoString) (status : ℤ)
    (entries : GoString → Option (List GoString)) (opening : List UInt8) (name : GoString) :
    List GoString :=
  let first := fun name => ((entries name).getD []).headD []
  if name = ascii "Content-Type" then
    if bodyAllowed status && (entries name).isNone && first (ascii "Content-Encoding") = []
        && first (ascii "Transfer-Encoding") = [] && opening ≠ [] then [detect opening]
    else []
  else if name = ascii "Date" then if (entries name).isNone then [date] else []
  else []

/-- The values that are sent under a name. -/
def fields (detect : List UInt8 → GoString) (date : GoString) (status : ℤ)
    (entries : GoString → Option (List GoString)) (opening : List UInt8) (name : GoString) :
    List GoString :=
  if (suppressedHeaders status).contains name then []
  else ((entries name).getD []).map fieldValue ++ additions detect date status entries opening name

/-- The values that a response has under a name. -/
def ResponseWriter.fields (detect : List UInt8 → GoString) (date : GoString) (r : ResponseWriter)
    (name : GoString) : List GoString :=
  Go.fields detect date r.status (OrderedMap.get r.sent) (r.opening.getD []) name

section

variable {detect : List UInt8 → GoString} {date : GoString} {status : ℤ} {opening : List UInt8}
variable {entries entries' : GoString → Option (List GoString)} {name : GoString}

/-- Nothing is added where there is an entry. -/
lemma additions_of_entry (h : entries name ≠ none) :
    additions detect date status entries opening name = [] := by
  have hentry : (entries name).isNone = false := Option.isNone_eq_false_iff.mpr (Option.isSome_iff_ne_none.mpr h)
  rw [additions]
  split_ifs with htype hadd hdate hnone
  · rw [hentry] at hadd
    simp at hadd
  · rfl
  · rw [hentry] at hnone
    cases hnone
  · rfl
  · rfl

/-- Nothing but these two is added. -/
lemma additions_ne_nil (h : additions detect date status entries opening name ≠ []) :
    name = ascii "Content-Type" ∨ name = ascii "Date" := by
  by_contra hname
  obtain ⟨htype, hdate⟩ := not_or.mp hname
  rw [additions, if_neg htype, if_neg hdate] at h
  exact h rfl

/-- What is added depends on four of the entries. -/
lemma additions_congr (h : ∀ name ∈ [ascii "Content-Type", ascii "Content-Encoding",
    ascii "Transfer-Encoding", ascii "Date"], entries name = entries' name) :
    additions detect date status entries opening name
      = additions detect date status entries' opening name := by
  simp only [List.forall_mem_cons, List.not_mem_nil, IsEmpty.forall_iff, implies_true, and_true] at h
  obtain ⟨htype, hencoding, htransfer, hdate⟩ := h
  by_cases hname : name = ascii "Content-Type"
  · subst hname
    simp only [additions, htype, hencoding, htransfer, if_pos]
  · by_cases hname' : name = ascii "Date"
    · subst hname'
      simp only [additions, hdate]
      rfl
    · rw [additions, additions, if_neg hname, if_neg hname', if_neg hname, if_neg hname']

/-- The opening of a response counts only where a body is allowed. -/
lemma additions_blocked (h : bodyAllowed status = false) (opening' : List UInt8) :
    additions detect date status entries opening name
      = additions detect date status entries opening' name := by
  simp [additions, h]

end

/-- The handler switches protocols before its response is final. -/
def switches : List HandlerCall → Bool
  | [] => false
  | .Header _ :: rest => switches rest
  | .WriteHeader code :: rest => code = 101 || (informational code && switches rest)
  | .Write _ :: _ => false
  | .Flush :: _ => false

/-! ## Below a capture writer -/

/-- The response follows the capture writer, after the calls `done` of the handler. -/
structure Synced (done : List HandlerCall) (w : CaptureWriter) (r : ResponseWriter) : Prop where
  header : r.header = w.header
  wroteHeader : r.wroteHeader = w.wroteHeader
  response : w.wroteHeader = true → r.status = w.status ∧ r.sent = w.snapshot
    ∧ r.contentLength = declaredLength w.snapshot ∧ 200 ≤ w.status ∧ w.status ≤ 999
  sends : w.wroteHeader = true → r.Sends (written done)
  fresh : w.wroteHeader = false → written done = [] ∧ r.body = [] ∧ r.written = 0

section

variable {done : List HandlerCall} {w w' : CaptureWriter} {r r' : ResponseWriter}
variable {passed : List HandlerCall}

lemma synced_new (header : Header) (limit : ℤ) :
    Synced [] (.new header limit) { header } where
  header := rfl
  wroteHeader := rfl
  response := nofun
  sends := nofun
  fresh _ := ⟨rfl, rfl, rfl⟩

/-- A final status is written on both sides. -/
lemma Synced.writeHeader (h : Synced done w r) (hwrote : w.wroteHeader = false) {code : ℤ}
    (hcode : 200 ≤ code ∧ code ≤ 999) :
    Synced done { w with status := code, wroteHeader := true, snapshot := w.header } { r with
      wroteHeader := true
      status := code
      sent := r.header
      contentLength := declaredLength r.header } := by
  obtain ⟨hwritten, hbody, hcount⟩ := h.fresh hwrote
  refine ⟨h.header, rfl, ?_, ?_, nofun⟩
  · intro _
    exact ⟨rfl, h.header, congrArg declaredLength h.header, hcode.1, hcode.2⟩
  · intro _
    rw [hwritten]
    exact ResponseWriter.sends_nil hbody hcount ResponseWriter.declaredLength_nonneg

/-- The header a `Write` or a `Flush` implies is written on both sides. -/
lemma Synced.ensureHeader (h : Synced done w r) : ∃ r₁, r.calls w.ensureHeader.2 = some r₁
    ∧ Synced done w.ensureHeader.1 r₁ ∧ w.ensureHeader.1.wroteHeader = true := by
  rw [CaptureWriter.ensureHeader]
  by_cases hwrote : w.wroteHeader = true
  · rw [if_pos hwrote]
    exact ⟨r, rfl, h, hwrote⟩
  · rw [Bool.not_eq_true] at hwrote
    have hcode : 200 ≤ (200 : ℤ) ∧ (200 : ℤ) ≤ 999 := by decide
    have hwritten := ResponseWriter.writeHeader_final (h.wroteHeader.trans hwrote) hcode
    have hensured : w.writeHeader 200
        = ({ w with status := 200, wroteHeader := true, snapshot := w.header }, [.WriteHeader 200]) := by
      rw [CaptureWriter.writeHeader, if_neg (by decide), if_neg (by simp [hwrote])]
    rw [if_neg (by simp [hwrote]), hensured]
    refine ⟨_, ?_, h.writeHeader hwrote hcode, rfl⟩
    rw [ResponseWriter.calls, ResponseWriter.step, hwritten]
    rfl

/-- A flush below is not seen above. -/
lemma Synced.flush (h : Synced done w r) : Synced done w r.flush :=
  ⟨h.header, h.wroteHeader, h.response, fun hwrote => (h.sends hwrote).flush, h.fresh⟩

/-- What the response follows does not depend on the calls that write nothing. -/
lemma Synced.congr (h : Synced done w r) {done' : List HandlerCall} (hdone : written done' = written done) :
    Synced done' w r := by
  refine ⟨h.header, h.wroteHeader, h.response, ?_, ?_⟩
  · rw [hdone]
    exact h.sends
  · rw [hdone]
    exact h.fresh

/-- Buffering is not seen below. -/
lemma Synced.buffer (h : Synced done w r) {p : List UInt8} (hbuffer : w.buffer p = some w') :
    Synced done w' r := by
  obtain ⟨hheader, hwrote, hstatus, hsnapshot⟩ := CaptureWriter.buffer_fields hbuffer
  refine ⟨h.header.trans hheader.symm, h.wroteHeader.trans hwrote.symm, ?_, ?_, ?_⟩
  · rw [hwrote, hstatus, hsnapshot]
    exact h.response
  · rw [hwrote]
    exact h.sends
  · rw [hwrote]
    exact h.fresh

/-- **One call on both sides**, unless it switches protocols. -/
lemma Synced.step (h : Synced done w r) {call : HandlerCall} (hstep : w.step call = some (w', passed))
    (hcalls : r.calls passed = some r') (hno : w.wroteHeader = true ∨ call ≠ .WriteHeader 101) :
    Synced (done ++ [call]) w' r' := by
  have hsame : ∀ call : HandlerCall, call.bytes = none → written (done ++ [call]) = written done := by
    intro call hbytes
    simp [written, writes, hbytes]
  cases call with
  | Header change =>
      obtain ⟨rfl, rfl⟩ := Prod.mk.inj (Option.some.inj hstep)
      obtain rfl := Option.some.inj hcalls
      refine Synced.congr ?_ (hsame (.Header change) rfl)
      refine ⟨congrArg change h.header, h.wroteHeader, h.response, ?_, h.fresh⟩
      intro hwrote
      obtain ⟨hblocked, hwritten, hfits, hcut⟩ := h.sends hwrote
      exact ⟨hblocked, hwritten, hfits, hcut⟩
  | WriteHeader code =>
      refine Synced.congr ?_ (hsame (.WriteHeader code) rfl)
      rw [CaptureWriter.step, CaptureWriter.writeHeader] at hstep
      split_ifs at hstep with hinfo hwrote
      · obtain ⟨rfl, rfl⟩ := Prod.mk.inj (Option.some.inj hstep)
        rw [ResponseWriter.calls_singleton, ResponseWriter.step, ResponseWriter.writeHeader, h.wroteHeader] at hcalls
        split_ifs at hcalls with hwrote hrange hgoes
        · exact Option.some.inj hcalls ▸ h
        · exact Option.some.inj hcalls ▸ h
        · have hcode : code ≠ 101 := by
            rintro rfl
            exact hno.elim hwrote fun hne => hne rfl
          exact absurd ⟨hinfo, hcode⟩ hgoes
      · obtain ⟨rfl, rfl⟩ := Prod.mk.inj (Option.some.inj hstep)
        exact Option.some.inj hcalls ▸ h
      · obtain ⟨rfl, rfl⟩ := Prod.mk.inj (Option.some.inj hstep)
        rw [Bool.not_eq_true] at hwrote
        have hcode : 200 ≤ code ∧ code ≤ 999 := by
          by_contra hrange
          simp only [informational, Bool.and_eq_true, decide_eq_true_eq] at hinfo
          rw [ResponseWriter.calls_singleton, ResponseWriter.step, ResponseWriter.writeHeader, h.wroteHeader, hwrote,
            if_neg Bool.false_ne_true, if_pos (by omega)] at hcalls
          cases hcalls
        rw [ResponseWriter.calls_singleton, ResponseWriter.step,
          ResponseWriter.writeHeader_final (h.wroteHeader.trans hwrote) hcode] at hcalls
        exact Option.some.inj hcalls ▸ h.writeHeader hwrote hcode
  | Write p =>
      obtain ⟨r₁, hcalls₁, hsync, hwrote⟩ := h.ensureHeader
      rw [CaptureWriter.step_write] at hstep
      obtain ⟨w₁, hbuffer, heq⟩ := Option.map_eq_some_iff.mp hstep
      obtain ⟨rfl, rfl⟩ := Prod.mk.inj heq
      have hr₁ : r₁.ensureHeader = some r₁ := if_pos (hsync.wroteHeader.trans hwrote)
      rw [ResponseWriter.calls_append, hcalls₁, Option.bind_some, ResponseWriter.calls,
        ResponseWriter.step, hr₁] at hcalls
      obtain rfl := Option.some.inj hcalls
      refine Synced.buffer ?_ hbuffer
      obtain ⟨hheader, hwrote₁, hstatus, hsent, hlength⟩ := r₁.send_fields p
      have hwritten : written (done ++ [.Write p]) = written done ++ p := by
        rw [written_append]
        simp [written, writes, HandlerCall.bytes]
      refine ⟨hheader.trans hsync.header, hwrote₁.trans hsync.wroteHeader, ?_, ?_, ?_⟩
      · rw [hstatus, hsent, hlength]
        exact hsync.response
      · intro _
        rw [hwritten]
        exact (hsync.sends hwrote).send p
      · intro hnot
        exact absurd (hwrote.symm.trans hnot) (by decide)
  | Flush =>
      obtain ⟨r₁, hcalls₁, hsync, hwrote⟩ := h.ensureHeader
      rw [CaptureWriter.step_flush] at hstep
      obtain ⟨rfl, rfl⟩ := Prod.mk.inj (Option.some.inj hstep)
      have hr₁ : r₁.ensureHeader = some r₁ := if_pos (hsync.wroteHeader.trans hwrote)
      rw [ResponseWriter.calls_append, hcalls₁, Option.bind_some, ResponseWriter.calls,
        ResponseWriter.step, hr₁] at hcalls
      obtain rfl := Option.some.inj hcalls
      exact hsync.flush.congr (hsame .Flush rfl)

/-- A run on both sides begins with its first call. -/
lemma run_cons {call : HandlerCall} {rest : List HandlerCall}
    (hrun : CaptureWriter.run (call :: rest) w = some (w', passed)) (hcalls : r.calls passed = some r') :
    ∃ w₁ passed₁ r₁ more, w.step call = some (w₁, passed₁) ∧ r.calls passed₁ = some r₁
      ∧ CaptureWriter.run rest w₁ = some (w', more) ∧ r₁.calls more = some r' := by
  simp only [CaptureWriter.run, Option.bind_eq_bind, Option.bind_eq_some_iff] at hrun
  obtain ⟨⟨w₁, passed₁⟩, hstep, ⟨w₂, more⟩, hrest, heq⟩ := hrun
  obtain ⟨rfl, rfl⟩ := Prod.mk.inj (Option.some.inj heq)
  rw [ResponseWriter.calls_append, Option.bind_eq_some_iff] at hcalls
  obtain ⟨r₁, hfirst, hmore⟩ := hcalls
  exact ⟨w₁, passed₁, r₁, more, hstep, hfirst, hrest, hmore⟩

/-- **The response follows the writer to the end**, unless the handler switches protocols first. -/
theorem calls_synced {calls : List HandlerCall} (h : Synced done w r)
    (hrun : CaptureWriter.run calls w = some (w', passed)) (hcalls : r.calls passed = some r')
    (hno : w.wroteHeader = true ∨ switches calls = false) : Synced (done ++ calls) w' r' := by
  induction calls generalizing done w r passed with
  | nil =>
      obtain ⟨rfl, rfl⟩ := Prod.mk.inj (Option.some.inj hrun)
      obtain rfl := Option.some.inj hcalls
      rw [List.append_nil]
      exact h
  | cons call rest ih =>
      obtain ⟨w₁, passed₁, r₁, more, hstep, hfirst, hrest, hmore⟩ := run_cons hrun hcalls
      have hnow : w.wroteHeader = true ∨ call ≠ .WriteHeader 101 := by
        refine hno.imp_right ?_
        rintro hswitch rfl
        cases hswitch
      have hlater : w₁.wroteHeader = true ∨ switches rest = false := by
        rw [CaptureWriter.step_wroteHeader hstep, Bool.or_eq_true]
        rcases hno with hwrote | hswitch
        · exact Or.inl (Or.inl hwrote)
        · cases call with
          | Header change => exact Or.inr hswitch
          | WriteHeader code =>
              cases hinfo : informational code with
              | true =>
                  rw [switches, hinfo, Bool.true_and, Bool.or_eq_false_iff] at hswitch
                  exact Or.inr hswitch.2
              | false => exact Or.inl (Or.inr (by simp [HandlerCall.commits, hinfo]))
          | Write p => exact Or.inl (Or.inr rfl)
          | Flush => exact Or.inl (Or.inr rfl)
      have hdone := ih (h.step hstep hfirst hnow) hrest hmore hlater
      rwa [List.append_assoc] at hdone

/-- After a final status the status and the length stay. -/
lemma step_wrote (hwrote : r.wroteHeader = true) {call : HandlerCall} (h : r.step call = some r') :
    r'.wroteHeader = true ∧ r'.status = r.status ∧ r'.contentLength = r.contentLength := by
  have hensured : r.ensureHeader = some r := if_pos hwrote
  cases call with
  | Header change =>
      obtain rfl := Option.some.inj h
      exact ⟨hwrote, rfl, rfl⟩
  | WriteHeader code =>
      rw [ResponseWriter.step, ResponseWriter.writeHeader, if_pos hwrote] at h
      obtain rfl := Option.some.inj h
      exact ⟨hwrote, rfl, rfl⟩
  | Write p =>
      rw [ResponseWriter.step, hensured] at h
      obtain rfl := Option.some.inj h
      obtain ⟨-, hwrote', hstatus, -, hlength⟩ := r.send_fields p
      exact ⟨hwrote'.trans hwrote, hstatus, hlength⟩
  | Flush =>
      rw [ResponseWriter.step, hensured] at h
      obtain rfl := Option.some.inj h
      exact ⟨hwrote, rfl, rfl⟩

lemma calls_wrote {cs : List HandlerCall} (hwrote : r.wroteHeader = true) (h : r.calls cs = some r') :
    r'.wroteHeader = true ∧ r'.status = r.status ∧ r'.contentLength = r.contentLength := by
  induction cs generalizing r with
  | nil =>
      obtain rfl := Option.some.inj h
      exact ⟨hwrote, rfl, rfl⟩
  | cons call rest ih =>
      obtain ⟨r₁, hstep, hrest⟩ := Option.bind_eq_some_iff.mp h
      obtain ⟨hwrote₁, hstatus₁, hlength₁⟩ := step_wrote hwrote hstep
      obtain ⟨hwrote', hstatus', hlength'⟩ := ih hwrote₁ hrest
      exact ⟨hwrote', hstatus'.trans hstatus₁, hlength'.trans hlength₁⟩

/-- A handler that switches protocols first has the status 101. -/
lemma switches_status {calls : List HandlerCall} (hr : r.wroteHeader = false)
    (hw : w.wroteHeader = false) (hrun : CaptureWriter.run calls w = some (w', passed))
    (hcalls : r.calls passed = some r') (hswitch : switches calls = true) :
    r'.wroteHeader = true ∧ r'.status = 101 := by
  induction calls generalizing w r passed with
  | nil => cases hswitch
  | cons call rest ih =>
      obtain ⟨w₁, passed₁, r₁, more, hstep, hfirst, hrest, hmore⟩ := run_cons hrun hcalls
      cases call with
      | Header change =>
          obtain ⟨rfl, rfl⟩ := Prod.mk.inj (Option.some.inj hstep)
          obtain rfl := Option.some.inj hfirst
          refine ih ?_ ?_ hrest hmore hswitch
          · exact hr
          · exact hw
      | WriteHeader code =>
          rw [switches, Bool.or_eq_true, decide_eq_true_iff, Bool.and_eq_true] at hswitch
          have hinfo : informational code = true := by
            rcases hswitch with rfl | hswitch
            · decide
            · exact hswitch.1
          rw [CaptureWriter.step, CaptureWriter.writeHeader, if_pos hinfo] at hstep
          obtain ⟨rfl, rfl⟩ := Prod.mk.inj (Option.some.inj hstep)
          have hrange : ¬ (code < 100 ∨ 999 < code) := by
            simp only [informational, Bool.and_eq_true, decide_eq_true_eq] at hinfo
            omega
          rw [ResponseWriter.calls_singleton, ResponseWriter.step, ResponseWriter.writeHeader, if_neg (by simp [hr]),
            if_neg hrange] at hfirst
          by_cases hcode : code = 101
          · rw [if_neg (by simp [hcode])] at hfirst
            obtain rfl := Option.some.inj hfirst
            obtain ⟨hwrote, hstatus, -⟩ := calls_wrote rfl hmore
            exact ⟨hwrote, hstatus.trans hcode⟩
          · rw [if_pos ⟨hinfo, hcode⟩] at hfirst
            obtain rfl := Option.some.inj hfirst
            exact ih hr hw hrest hmore (hswitch.resolve_left hcode).2
      | Write p => cases hswitch
      | Flush => cases hswitch

/-! ## The bytes that go out with the header -/

/-- The bytes that are let through before the buffer is full or flushed, behind `count` that were written
and those that are buffered. -/
def openingOf (allowed : Bool) (length : Option ℤ) : List HandlerCall → ℕ → List UInt8 → List UInt8
  | [], _, buffered => buffered
  | .Header _ :: rest, count, buffered => openingOf allowed length rest count buffered
  | .WriteHeader _ :: rest, count, buffered => openingOf allowed length rest count buffered
  | .Write p :: rest, count, buffered =>
      if p = [] ∨ allowed = false then openingOf allowed length rest count buffered
      else if length.any fun n => n < ((count + p.length : ℕ) : ℤ) then
        openingOf allowed length rest (count + p.length) buffered
      else (spill buffered p).getD (openingOf allowed length rest (count + p.length) (buffered ++ p))
  | .Flush :: _, _, buffered => buffered

/-- What has gone out with the header, or will with the given calls. -/
def ResponseWriter.opens (r : ResponseWriter) (cs : List HandlerCall) : List UInt8 :=
  r.opening.getD (openingOf (bodyAllowed r.status) r.contentLength cs r.written r.body)

/-- **One call** goes on with the bytes that open the response. -/
lemma step_opens (hwrote : r.wroteHeader = true) {call : HandlerCall} (rest : List HandlerCall)
    (h : r.step call = some r') : r'.opens rest = r.opens (call :: rest) := by
  have hensured : r.ensureHeader = some r := if_pos hwrote
  cases call with
  | Header change =>
      obtain rfl := Option.some.inj h
      rfl
  | WriteHeader code =>
      rw [ResponseWriter.step, ResponseWriter.writeHeader, if_pos hwrote] at h
      obtain rfl := Option.some.inj h
      rfl
  | Write p =>
      rw [ResponseWriter.step, hensured] at h
      obtain rfl := Option.some.inj h
      change (r.send p).opens rest = _
      rw [ResponseWriter.send_eq]
      by_cases hskip : p = [] ∨ bodyAllowed r.status = false
      · rw [if_pos hskip, ResponseWriter.opens, ResponseWriter.opens, openingOf, if_pos hskip]
      · rw [if_neg hskip, ResponseWriter.opens, ResponseWriter.opens, openingOf, if_neg hskip]
        dsimp only
        split_ifs with hover
        · rfl
        · cases r.opening <;> cases spill r.body p <;> rfl
  | Flush =>
      rw [ResponseWriter.step, hensured] at h
      obtain rfl := Option.some.inj h
      rfl

/-- **A run** to the end of the request opens the response with what its calls say, once the header is
written. -/
lemma finish_opens {cs : List HandlerCall} {r₁ : ResponseWriter} (hwrote : r.wroteHeader = true)
    (hcalls : r.calls cs = some r₁) (hfinish : r₁.finish = some r') :
    r'.opening = some (r.opens cs) ∧ r'.status = r.status ∧ r'.contentLength = r.contentLength := by
  induction cs generalizing r with
  | nil =>
      obtain rfl := Option.some.inj hcalls
      have hensured : r.ensureHeader = some r := if_pos hwrote
      rw [ResponseWriter.finish, hensured] at hfinish
      obtain rfl := Option.some.inj hfinish
      exact ⟨rfl, rfl, rfl⟩
  | cons call rest ih =>
      obtain ⟨r₀, hstep, hrest⟩ := Option.bind_eq_some_iff.mp hcalls
      obtain ⟨hwrote₀, hstatus, hlength⟩ := step_wrote hwrote hstep
      rw [← step_opens hwrote rest hstep, ← hstatus, ← hlength]
      exact ih hwrote₀ hrest

/-- The header a `Write` or a `Flush` implies is written before it. -/
lemma step_ensured {r₀ : ResponseWriter} (hwrote : r₀.wroteHeader = true) (h : r.ensureHeader = some r₀)
    {call : HandlerCall} (hcall : call = .Flush ∨ ∃ p, call = .Write p) : r.step call = r₀.step call := by
  have hagain : r₀.ensureHeader = some r₀ := if_pos hwrote
  rcases hcall with rfl | ⟨p, rfl⟩
  · rw [ResponseWriter.step, ResponseWriter.step, h, hagain]
  · rw [ResponseWriter.step, ResponseWriter.step, h, hagain]

/-- **The bytes that open a response** are read off the calls, given the status and the length that the
response has in the end. -/
theorem calls_opening {cs : List HandlerCall} {r₁ : ResponseWriter} (hwrote : r.wroteHeader = false)
    (hbody : r.body = []) (hcount : r.written = 0) (hopening : r.opening = none)
    (hcalls : r.calls cs = some r₁) (hfinish : r₁.finish = some r') :
    r'.opening = some (openingOf (bodyAllowed r'.status) r'.contentLength cs 0 []) := by
  -- once the header is written, what opens the response is what the calls to come say
  have hlater : ∀ {r₀ : ResponseWriter} {cs : List HandlerCall}, r₀.wroteHeader = true →
      r₀.body = [] → r₀.written = 0 → r₀.opening = none → r₀.calls cs = some r₁ →
      r'.opening = some (openingOf (bodyAllowed r'.status) r'.contentLength cs 0 []) := by
    intro r₀ cs hwrote₀ hbody₀ hcount₀ hopening₀ hcalls₀
    obtain ⟨hopens, hstatus, hlength⟩ := finish_opens hwrote₀ hcalls₀ hfinish
    rw [hopens, hstatus, hlength, ResponseWriter.opens, hopening₀, hcount₀, hbody₀]
    rfl
  have hcode : 200 ≤ (200 : ℤ) ∧ (200 : ℤ) ≤ 999 := by decide
  induction cs generalizing r with
  | nil =>
      obtain rfl := Option.some.inj hcalls
      rw [ResponseWriter.finish, ResponseWriter.ensureHeader, if_neg (by simp [hwrote]),
        ResponseWriter.writeHeader_final hwrote hcode] at hfinish
      obtain rfl := Option.some.inj hfinish
      simp [ResponseWriter.flush, hopening, hbody, openingOf]
  | cons call rest ih =>
      have himplied : call = .Flush ∨ (∃ p, call = .Write p) →
          r'.opening = some (openingOf (bodyAllowed r'.status) r'.contentLength (call :: rest) 0 []) := by
        intro hcall
        have hensured := ResponseWriter.writeHeader_final hwrote hcode
        rw [ResponseWriter.calls,
          step_ensured rfl ((if_neg (by simp [hwrote])).trans hensured) hcall] at hcalls
        refine hlater ?_ ?_ ?_ ?_ hcalls
        · rfl
        · exact hbody
        · exact hcount
        · exact hopening
      obtain ⟨r₀, hstep, hrest⟩ := Option.bind_eq_some_iff.mp hcalls
      cases call with
      | Header change =>
          obtain rfl := Option.some.inj hstep
          refine ih ?_ ?_ ?_ ?_ hrest
          · exact hwrote
          · exact hbody
          · exact hcount
          · exact hopening
      | WriteHeader code =>
          rw [openingOf]
          rw [ResponseWriter.step, ResponseWriter.writeHeader, if_neg (by simp [hwrote])] at hstep
          split_ifs at hstep with hrange hinfo
          · obtain rfl := Option.some.inj hstep
            exact ih hwrote hbody hcount hopening hrest
          · obtain rfl := Option.some.inj hstep
            refine hlater ?_ ?_ ?_ ?_ hrest
            · rfl
            · exact hbody
            · exact hcount
            · exact hopening
      | Write p => exact himplied (Or.inr ⟨p, rfl⟩)
      | Flush => exact himplied (Or.inl rfl)

/-- A header that is written adds nothing to the bytes. -/
lemma openingOf_implied (w : CaptureWriter) (allowed : Bool) (length : Option ℤ) (cs : List HandlerCall)
    (count : ℕ) (buffered : List UInt8) :
    openingOf allowed length (w.ensureHeader.2 ++ cs) count buffered
      = openingOf allowed length cs count buffered := by
  rw [CaptureWriter.ensureHeader, CaptureWriter.writeHeader]
  split_ifs <;> rfl

/-- The calls that are passed on open a response as the calls of the handler do. -/
lemma openingOf_passed {calls : List HandlerCall} (hrun : CaptureWriter.run calls w = some (w', passed))
    (allowed : Bool) (length : Option ℤ) (count : ℕ) (buffered : List UInt8) :
    openingOf allowed length passed count buffered = openingOf allowed length calls count buffered := by
  induction calls generalizing w passed count buffered with
  | nil =>
      obtain ⟨-, rfl⟩ := Prod.mk.inj (Option.some.inj hrun)
      rfl
  | cons call rest ih =>
      simp only [CaptureWriter.run, Option.bind_eq_bind, Option.bind_eq_some_iff] at hrun
      obtain ⟨⟨w₁, passed₁⟩, hstep, ⟨w₂, more⟩, hrest, heq⟩ := hrun
      obtain ⟨rfl, rfl⟩ := Prod.mk.inj (Option.some.inj heq)
      have hmore := ih hrest
      cases call with
      | Header change =>
          obtain ⟨-, rfl⟩ := Prod.mk.inj (Option.some.inj hstep)
          exact hmore count buffered
      | WriteHeader code =>
          rw [CaptureWriter.step, CaptureWriter.writeHeader] at hstep
          split_ifs at hstep <;> obtain ⟨-, rfl⟩ := Prod.mk.inj (Option.some.inj hstep)
          · exact hmore count buffered
          · exact hmore count buffered
          · exact hmore count buffered
      | Write p =>
          rw [CaptureWriter.step_write] at hstep
          obtain ⟨w₁, -, heq⟩ := Option.map_eq_some_iff.mp hstep
          obtain ⟨-, rfl⟩ := Prod.mk.inj heq
          rw [List.append_assoc, openingOf_implied, List.singleton_append, openingOf, openingOf, hmore, hmore,
            hmore]
      | Flush =>
          rw [CaptureWriter.step_flush] at hstep
          obtain ⟨-, rfl⟩ := Prod.mk.inj (Option.some.inj hstep)
          rw [List.append_assoc, openingOf_implied]
          rfl

end

end Anyonce.Go
