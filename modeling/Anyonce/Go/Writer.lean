import Mathlib.Algebra.Group.Int.Defs
import Anyonce.Go.Engine
import Anyonce.Go.Header
import Mathlib.Data.List.Sort

/-!
# The Go capture writer

`CaptureWriter` of `go/internal/httpx/writer.go`, and `CapResultBytes` and `HeaderSet` of `door.go`.  A
handler is the sequence of the calls it makes; each changes the writer and passes calls on to the writer
below, whose header map the two share.  A `Write` may panic, when it slices by a negative number.

The writer keeps a buffer, two flags and a snapshot.  What they come to is said without them:

* `commit` — the status and the headers of a response, at the call that fixes them.
* `written` — all that was written.
* `run_exact` — below the largest limit no call panics, and the writer holds just that.
* `run_panics` — at the largest limit the first `Write` panics.

A handler that hijacks the connection leaves no result, and is not looked at here.
-/

namespace Anyonce.Go

open Relational

/-! ## Caps -/

/-- The policy cap, lowered to what the store declares it can hold whole. -/
def capResultBytes (declared : Option ℤ) (limit : ℤ) : ℤ :=
  let limit := if limit ≤ 0 then defaultMaxResultBytes else limit
  match declared with
  | none => limit
  | some declared => if declared > 0 ∧ declared < limit then declared else limit

/-- A cap is positive. -/
lemma capResultBytes_pos (declared : Option ℤ) (limit : ℤ) : 0 < capResultBytes declared limit := by
  have hlimit : 0 < if limit ≤ 0 then defaultMaxResultBytes else limit := by
    split_ifs with h
    · decide
    · exact not_le.mp h
  simp only [capResultBytes]
  generalize (if limit ≤ 0 then defaultMaxResultBytes else limit) = limit at hlimit
  cases declared with
  | none => exact hlimit
  | some declared =>
      dsimp only
      split_ifs with h
      · exact h.1
      · exact hlimit

lemma capResultBytes_le_limit {declared : Option ℤ} {limit : ℤ} (h : 0 < limit) :
    capResultBytes declared limit ≤ limit := by
  simp only [capResultBytes, if_neg (not_le.mpr h)]
  cases declared with
  | none => exact le_refl limit
  | some declared =>
      dsimp only
      split_ifs with hlower
      · exact le_of_lt hlower.2
      · exact le_refl limit

/-- It is at most what the store declares. -/
lemma capResultBytes_le {declared limit : ℤ} (h : 0 < declared) :
    capResultBytes (some declared) limit ≤ declared := by
  simp only [capResultBytes]
  split_ifs <;> omega

/-- The allowlist as canonical header names: only a nil list takes the defaults. -/
def headerSet (headers : Option (List GoString)) (defaults : List GoString) : List GoString :=
  (headers.getD defaults).map canonicalHeaderKey

/-! ## The writer -/

/-- What a handler does to its response.  The header map is changed in any way at all. -/
inductive HandlerCall
  | Header (change : Header → Header)
  | WriteHeader (code : ℤ)
  | Write (p : List UInt8)
  | Flush

/-- `header` is the live map of the writer below. -/
structure CaptureWriter where
  header : Header
  status : ℤ := 0
  wroteHeader : Bool := false
  snapshot : Header := Table.empty
  buf : List UInt8 := []
  limit : ℤ
  overCap : Bool := false

/-- An informational status is not the response: the final one is still to come. -/
def informational (code : ℤ) : Bool := code ≥ 100 && code < 200

namespace CaptureWriter

/-- `NewCaptureWriter`. -/
def new (header : Header) (limit : ℤ) : CaptureWriter := { header, limit }

/-- `WriteHeader`, with the calls it passes on. -/
def writeHeader (w : CaptureWriter) (code : ℤ) : CaptureWriter × List HandlerCall :=
  if informational code then (w, [.WriteHeader code])
  else if w.wroteHeader then (w, [])
  else ({ w with status := code, wroteHeader := true, snapshot := w.header }, [.WriteHeader code])

/-- The header a `Write` or a `Flush` implies. -/
def ensureHeader (w : CaptureWriter) : CaptureWriter × List HandlerCall :=
  if w.wroteHeader then (w, []) else w.writeHeader 200

/-- The copy a `Write` buffers; `none` is the panic of `p[:room]`. -/
def buffer (w : CaptureWriter) (p : List UInt8) : Option CaptureWriter :=
  if w.overCap then some w
  else
    let room := wrapInt (wrapInt (w.limit + 1) - w.buf.length)
    if (p.length : ℤ) ≥ room then
      if room < 0 then none
      else some { w with buf := w.buf ++ p.take room.toNat, overCap := true }
    else some { w with buf := w.buf ++ p }

/-- One call; `none` is a panic. -/
def step (w : CaptureWriter) : HandlerCall → Option (CaptureWriter × List HandlerCall)
  | .Header change => some ({ w with header := change w.header }, [.Header change])
  | .WriteHeader code => some (w.writeHeader code)
  | .Write p =>
      let (w, implied) := w.ensureHeader
      (w.buffer p).map fun w => (w, implied ++ [.Write p])
  | .Flush =>
      let (w, implied) := w.ensureHeader
      some (w, implied ++ [.Flush])

/-- The calls of a handler, up to its end or to a panic. -/
def run : List HandlerCall → CaptureWriter → Option (CaptureWriter × List HandlerCall)
  | [], w => some (w, [])
  | call :: rest, w => do
      let (w, passed) ← w.step call
      let (w, more) ← run rest w
      some (w, passed ++ more)

end CaptureWriter

/-- The names of a map, in order. -/
def sortedKeys (h : Header) : List GoString := (h.rows.map Prod.fst).insertionSort (· ≤ ·)

lemma sortedKeys_perm (h : Header) : (sortedKeys h).Perm (h.rows.map Prod.fst) :=
  List.perm_insertionSort _ _

lemma sortedKeys_nodup (h : Header) : (sortedKeys h).Nodup := (sortedKeys_perm h).nodup_iff.mpr h.nodup

/-- The names are in order, and no name is there twice. -/
lemma sortedKeys_pairwise (h : Header) : (sortedKeys h).Pairwise (· < ·) := by
  have hsorted : (sortedKeys h).Pairwise (· ≤ ·) := List.pairwise_insertionSort _ _
  refine hsorted.imp₂ ?_ (sortedKeys_nodup h)
  intro name name' hle hne
  exact List.not_le.mp fun hge => hne (List.le_antisymm hle hge)

/-- The headers that are stored: allowlisted, never `Set-Cookie`, with their names in lower case. -/
def storedHeaders (allow : List GoString) (h : Header) : List (GoString × GoString) :=
  ((sortedKeys h).filter fun name => name ≠ ascii "Set-Cookie" && allow.contains name).flatMap fun name =>
    (h.entry name).map fun value => (toLowerName name, value)

/-- `Result`, once the handler has returned. -/
def CaptureWriter.result (w : CaptureWriter) (allow : List GoString) : StoredResult :=
  let status := if w.wroteHeader then w.status else 200
  let header := if w.wroteHeader then w.snapshot else w.header
  { kind := .Http
    status := status
    headers := some (storedHeaders allow header)
    body := if w.buf = [] then none else some w.buf }

/-! ## What a handler comes to -/

/-- The status and the headers at the call that fixes them: the first `WriteHeader` that is not
informational, or with status 200 the first `Write` or `Flush`, or the return. -/
def commit (h : Header) : List HandlerCall → ℤ × Header
  | [] => (200, h)
  | .Header change :: rest => commit (change h) rest
  | .WriteHeader code :: rest => if informational code then commit h rest else (code, h)
  | .Write _ :: _ => (200, h)
  | .Flush :: _ => (200, h)

/-- The call fixes the response, unless an earlier one has. -/
def HandlerCall.commits : HandlerCall → Bool
  | .Header _ => false
  | .WriteHeader code => !informational code
  | .Write _ => true
  | .Flush => true

/-- What a call writes. -/
def HandlerCall.bytes : HandlerCall → Option (List UInt8)
  | .Write p => some p
  | _ => none

/-- The writes of a handler, in order. -/
def writes (calls : List HandlerCall) : List (List UInt8) := calls.filterMap HandlerCall.bytes

/-- All that a handler writes. -/
def written (calls : List HandlerCall) : List UInt8 := (writes calls).flatten

@[simp] lemma writes_append (calls calls' : List HandlerCall) :
    writes (calls ++ calls') = writes calls ++ writes calls' :=
  List.filterMap_append

@[simp] lemma written_append (calls calls' : List HandlerCall) :
    written (calls ++ calls') = written calls ++ written calls' := by
  simp [written]

/-! ## The writer holds it -/

namespace CaptureWriter

/-- The response of a writer whose handler goes on with the given calls. -/
def committed (w : CaptureWriter) (calls : List HandlerCall) : ℤ × Header :=
  if w.wroteHeader then (w.status, w.snapshot) else commit w.header calls

/-- The buffer holds at most a byte more than the limit, and the flag says when it does. -/
structure Capped (w : CaptureWriter) : Prop where
  length_le : w.buf.length ≤ (w.limit + 1).toNat
  overCap : w.overCap = decide ((w.limit + 1).toNat ≤ w.buf.length)

variable {w w' : CaptureWriter}

lemma capped_new (header : Header) {limit : ℤ} (h : 0 ≤ limit) : (new header limit).Capped where
  length_le := Nat.zero_le _
  overCap := by
    have hpos : ¬ (limit + 1).toNat ≤ 0 := by omega
    simp [new, hpos]

lemma step_write (p : List UInt8) : w.step (.Write p)
    = (w.ensureHeader.1.buffer p).map fun w' => (w', w.ensureHeader.2 ++ [HandlerCall.Write p]) := rfl

lemma step_flush : w.step .Flush = some (w.ensureHeader.1, w.ensureHeader.2 ++ [.Flush]) := rfl

lemma ensureHeader_wroteHeader : w.ensureHeader.1.wroteHeader = true := by
  rw [ensureHeader]
  split_ifs with hwrote
  · exact hwrote
  · simp [writeHeader, informational, hwrote]

lemma buffer_fields {p : List UInt8} (h : w.buffer p = some w') :
    w'.header = w.header ∧ w'.wroteHeader = w.wroteHeader ∧ w'.status = w.status
      ∧ w'.snapshot = w.snapshot := by
  unfold buffer at h
  dsimp only at h
  split_ifs at h <;> (obtain rfl := Option.some.inj h; exact ⟨rfl, rfl, rfl, rfl⟩)

/-- A call leaves a header that is written, and writes one when it fixes the response. -/
lemma step_wroteHeader {call : HandlerCall} {passed : List HandlerCall}
    (h : w.step call = some (w', passed)) : w'.wroteHeader = (w.wroteHeader || call.commits) := by
  cases call with
  | Header change =>
      obtain ⟨rfl, rfl⟩ := Prod.mk.inj (Option.some.inj h)
      exact (Bool.or_false _).symm
  | WriteHeader code =>
      rw [step, writeHeader] at h
      split_ifs at h with hinfo hwrote <;> obtain ⟨rfl, rfl⟩ := Prod.mk.inj (Option.some.inj h)
      · simp [HandlerCall.commits, hinfo]
      · simp [hwrote]
      · simp [HandlerCall.commits, hinfo]
  | Write p =>
      rw [step_write] at h
      obtain ⟨w₁, hbuffer, heq⟩ := Option.map_eq_some_iff.mp h
      obtain ⟨rfl, -⟩ := Prod.mk.inj heq
      rw [(buffer_fields hbuffer).2.1, ensureHeader_wroteHeader]
      exact (Bool.or_true _).symm
  | Flush =>
      rw [step_flush] at h
      obtain ⟨rfl, -⟩ := Prod.mk.inj (Option.some.inj h)
      rw [ensureHeader_wroteHeader]
      exact (Bool.or_true _).symm

/-- Only the status, the flag and the snapshot depend on it. -/
lemma ensureHeader_buffer : w.ensureHeader.1.buf = w.buf ∧ w.ensureHeader.1.limit = w.limit
    ∧ w.ensureHeader.1.overCap = w.overCap := by
  rw [ensureHeader, writeHeader]
  split_ifs <;> exact ⟨rfl, rfl, rfl⟩

lemma ensureHeader_writes (w : CaptureWriter) : Go.writes w.ensureHeader.2 = [] := by
  rw [ensureHeader, writeHeader]
  split_ifs <;> rfl

/-- After it the response is fixed. -/
lemma ensureHeader_committed (calls : List HandlerCall) :
    w.ensureHeader.1.committed calls = if w.wroteHeader then (w.status, w.snapshot) else (200, w.header) := by
  rw [ensureHeader]
  split_ifs with hwrote
  · rw [committed, if_pos hwrote]
  · simp [writeHeader, informational, hwrote, committed]

/-- What is buffered of a `Write`, below the largest limit. -/
lemma buffer_eq (hlow : 0 ≤ w.limit) (hhigh : w.limit < maxInt) (hw : w.Capped) (p : List UInt8) :
    w.buffer p = some { w with
      buf := (w.buf ++ p).take (w.limit + 1).toNat
      overCap := decide ((w.limit + 1).toNat ≤ ((w.buf ++ p).take (w.limit + 1).toNat).length) } := by
  obtain ⟨hlength, hover⟩ := hw
  have hroom : wrapInt (wrapInt (w.limit + 1) - w.buf.length) = w.limit + 1 - w.buf.length := by
    have hnext : wrapInt (w.limit + 1) = w.limit + 1 := wrapInt_of_le (by omega) (by omega)
    rw [hnext, wrapInt_of_le (by omega) (by omega)]
  rw [buffer, hroom]
  cases hfull : w.overCap with
  | true =>
      rw [hover, decide_eq_true_iff] at hfull
      have htake : (w.buf ++ p).take (w.limit + 1).toNat = w.buf := by
        rw [List.take_append_of_le_length hfull, List.take_of_length_le hlength]
      rw [if_pos rfl, htake, ← hover]
  | false =>
      rw [hover, decide_eq_false_iff_not] at hfull
      have htake : (w.buf ++ p).take (w.limit + 1).toNat
          = w.buf ++ p.take (w.limit + 1 - w.buf.length).toNat := by
        rw [List.take_append, List.take_of_length_le hlength]
        congr 2
        omega
      rw [if_neg Bool.false_ne_true]
      dsimp only
      split_ifs with hlong hneg
      · omega
      · have hflag : (w.limit + 1).toNat
            ≤ (w.buf ++ p.take (w.limit + 1 - w.buf.length).toNat).length := by
          rw [List.length_append, List.length_take]
          omega
        rw [htake, decide_eq_true hflag]
      · have hshort : p.take (w.limit + 1 - w.buf.length).toNat = p :=
          List.take_of_length_le (by omega)
        have hflag : ¬ (w.limit + 1).toNat ≤ (w.buf ++ p).length := by
          rw [List.length_append]
          omega
        rw [htake, hshort, decide_eq_false hflag]

/-- What the calls do to a writer, with the calls they pass on. -/
structure Extends (w : CaptureWriter) (calls : List HandlerCall) (w' : CaptureWriter)
    (passed : List HandlerCall) : Prop where
  capped : w'.Capped
  limit : w'.limit = w.limit
  buf : w'.buf = (w.buf ++ written calls).take (w.limit + 1).toNat
  writes : writes passed = writes calls
  committed : ∀ rest, w'.committed rest = w.committed (calls ++ rest)

lemma Extends.refl (hw : w.Capped) : w.Extends [] w [] where
  capped := hw
  limit := rfl
  buf := by simp [written, Go.writes, List.take_of_length_le hw.length_le]
  writes := rfl
  committed _ := rfl

lemma Extends.trans {w'' : CaptureWriter} {calls calls' passed passed' : List HandlerCall}
    (h : w.Extends calls w' passed) (h' : w'.Extends calls' w'' passed') :
    w.Extends (calls ++ calls') w'' (passed ++ passed') where
  capped := h'.capped
  limit := h'.limit.trans h.limit
  buf := by
    have htake : ∀ {n : ℕ} (as bs : List UInt8), (as.take n ++ bs).take n = (as ++ bs).take n := by
      intro n as bs
      simp only [List.take_append, List.take_take, List.length_take, min_self]
      congr 2
      omega
    rw [h'.buf, h.buf, h.limit, written_append, ← List.append_assoc, htake]
  writes := by rw [writes_append, writes_append, h.writes, h'.writes]
  committed rest := by rw [h'.committed, h.committed, List.append_assoc]

/-- **One call does not panic**, but for a `Write` at the largest limit. -/
lemma step_extends (hlow : 0 ≤ w.limit) (hw : w.Capped) {call : HandlerCall}
    (hroom : w.limit < maxInt ∨ Go.writes [call] = []) :
    ∃ w' passed, w.step call = some (w', passed) ∧ w.Extends [call] w' passed := by
  obtain ⟨hbuf, hlimit, hover⟩ := w.ensureHeader_buffer
  have hensured : w.ensureHeader.1.Capped := by
    refine ⟨?_, ?_⟩
    · rw [hbuf, hlimit]
      exact hw.length_le
    · rw [hover, hbuf, hlimit]
      exact hw.overCap
  have hkept : (w.buf ++ []).take (w.limit + 1).toNat = w.buf := by
    rw [List.append_nil, List.take_of_length_le hw.length_le]
  cases call with
  | Header change =>
      refine ⟨_, _, rfl, ⟨hw.length_le, hw.overCap⟩, rfl, hkept.symm, rfl, ?_⟩
      intro rest
      rfl
  | WriteHeader code =>
      refine ⟨(w.writeHeader code).1, (w.writeHeader code).2, rfl, ?_⟩
      unfold writeHeader
      split_ifs with hinfo hwrote
      · refine ⟨hw, rfl, hkept.symm, rfl, ?_⟩
        intro rest
        simp [committed, commit, hinfo]
      · refine ⟨hw, rfl, hkept.symm, rfl, ?_⟩
        intro rest
        simp [committed, hwrote]
      · refine ⟨⟨hw.length_le, hw.overCap⟩, rfl, hkept.symm, rfl, ?_⟩
        intro rest
        simp [committed, commit, hinfo, hwrote]
  | Write p =>
      have hhigh : w.limit < maxInt := hroom.resolve_right (List.cons_ne_nil p [])
      have hbuffer := buffer_eq (hlimit ▸ hlow) (hlimit ▸ hhigh) hensured p
      rw [hbuf, hlimit] at hbuffer
      rw [step_write, hbuffer]
      refine ⟨_, w.ensureHeader.2 ++ [.Write p], rfl, ?_⟩
      refine ⟨⟨List.length_take_le _ _, rfl⟩, rfl, ?_, ?_, ?_⟩
      · simp [written, Go.writes, HandlerCall.bytes]
      · rw [writes_append, w.ensureHeader_writes]
        rfl
      · intro rest
        exact (w.ensureHeader_committed rest).trans rfl
  | Flush =>
      refine ⟨w.ensureHeader.1, w.ensureHeader.2 ++ [.Flush], rfl, hensured, hlimit,
        hbuf.trans hkept.symm, ?_, ?_⟩
      · rw [writes_append, w.ensureHeader_writes]
        rfl
      · intro rest
        exact (w.ensureHeader_committed rest).trans rfl

/-- **The calls of a handler do not panic**, but for a `Write` at the largest limit. -/
lemma run_extends (hlow : 0 ≤ w.limit) (hw : w.Capped) {calls : List HandlerCall}
    (hroom : w.limit < maxInt ∨ Go.writes calls = []) :
    ∃ w' passed, run calls w = some (w', passed) ∧ w.Extends calls w' passed := by
  induction calls generalizing w with
  | nil => exact ⟨w, [], rfl, Extends.refl hw⟩
  | cons call rest ih =>
      rw [← List.singleton_append, writes_append, List.append_eq_nil_iff] at hroom
      obtain ⟨w₁, passed, hstep, h₁⟩ := step_extends hlow hw (hroom.imp_right And.left)
      obtain ⟨w₂, more, hrun, h₂⟩ :=
        ih (h₁.limit ▸ hlow) h₁.capped (h₁.limit ▸ hroom.imp_right And.right)
      refine ⟨w₂, passed ++ more, ?_, h₁.trans h₂⟩
      rw [run, hstep]
      simp [hrun]

/-- The result is made of the committed response and the buffer. -/
lemma result_eq (w : CaptureWriter) (allow : List GoString) : w.result allow =
    { kind := .Http
      status := (w.committed []).1
      headers := some (storedHeaders allow (w.committed []).2)
      body := if w.buf = [] then none else some w.buf } := by
  rw [result, committed]
  cases w.wroteHeader <;> rfl

/-- **Below the largest limit no call panics, and the writer holds the response**: its buffer is what
was written up to a byte over the limit, every write was passed on whole, and the result has the status
and the headers that were committed. -/
theorem run_exact (header : Header) {limit : ℤ} (hlow : 0 ≤ limit) {calls : List HandlerCall}
    (hroom : limit < maxInt ∨ Go.writes calls = []) (allow : List GoString) :
    ∃ w passed, run calls (new header limit) = some (w, passed)
      ∧ w.buf = (written calls).take (limit + 1).toNat
      ∧ Go.writes passed = Go.writes calls
      ∧ w.result allow =
        { kind := .Http
          status := (commit header calls).1
          headers := some (storedHeaders allow (commit header calls).2)
          body := if w.buf = [] then none else some w.buf } := by
  obtain ⟨w, passed, hrun, h⟩ :=
    run_extends (w := new header limit) hlow (capped_new header hlow) hroom
  have hcommitted : w.committed [] = commit header calls := by
    rw [h.committed, List.append_nil]
    rfl
  refine ⟨w, passed, hrun, h.buf, h.writes, ?_⟩
  rw [result_eq, hcommitted]

/-- A writer of the largest limit that has buffered nothing. -/
def Fresh (w : CaptureWriter) : Prop := w.limit = maxInt ∧ w.buf = [] ∧ w.overCap = false

/-- Its next `Write` slices by the least `int`. -/
lemma buffer_fresh (h : w.Fresh) (p : List UInt8) : w.buffer p = none := by
  obtain ⟨hlimit, hbuf, hover⟩ := h
  have hroom : wrapInt (wrapInt (w.limit + 1) - w.buf.length) = -2 ^ 63 := by
    rw [hlimit, hbuf]
    decide
  rw [buffer, hover, hroom]
  simp

/-- **At the largest limit the first `Write` panics.** -/
lemma run_panics (hw : w.Fresh) {calls : List HandlerCall} (h : Go.writes calls ≠ []) :
    run calls w = none := by
  induction calls generalizing w with
  | nil => exact absurd rfl h
  | cons call rest ih =>
      have hensured : w.ensureHeader.1.Fresh := by
        obtain ⟨hbuf, hlimit, hover⟩ := w.ensureHeader_buffer
        exact ⟨hlimit.trans hw.1, hbuf.trans hw.2.1, hover.trans hw.2.2⟩
      have hrest : ∀ {w₁ : CaptureWriter} {passed : List HandlerCall}, w.step call = some (w₁, passed) →
          w₁.Fresh → HandlerCall.bytes call = none → run (call :: rest) w = none := by
        intro w₁ passed hstep hfresh hbytes
        have hmore : Go.writes rest ≠ [] := by simpa [Go.writes, hbytes] using h
        rw [run, hstep]
        simp [ih hfresh hmore]
      cases call with
      | Header change => exact hrest rfl hw rfl
      | WriteHeader code =>
          have hwritten : (w.writeHeader code).1.Fresh := by
            unfold writeHeader
            split_ifs <;> exact hw
          exact hrest rfl hwritten rfl
      | Write p =>
          have hstep : w.step (.Write p) = none := by
            rw [step_write, buffer_fresh hensured]
            rfl
          rw [run, hstep]
          rfl
      | Flush => exact hrest rfl hensured rfl

end CaptureWriter

end Anyonce.Go
