import Anyonce.Go.Writer

/-!
# Byte limits

The two limits of a Go door: `ReadBody` of `go/internal/httpx/request.go`, which reads at most one byte
more than the request limit, and the capture writer, which buffers at most one byte more than the result
cap.  Both add one to a 64-bit integer, and the largest one wraps.

* `readsExactly_iff`, `passesOn_iff` — each does what its limit says, unless the limit is the largest
  integer and there is something to read or to write.
-/

namespace Anyonce.Go

open Relational

/-! ## Reading a body -/

/-- A request body as a reader: the bytes up to its end, or up to an error. -/
structure Body where
  content : List UInt8
  readErr : Option GoError := none

/-- The content length is -1 when none is declared; the body is `none` when it is nil or `NoBody`. -/
structure BodyRequest where
  contentLength : ℤ
  body : Option Body

/-- Why a body was not read: it is above the limit, or the reader failed. -/
inductive ReadError
  | TooLarge
  | ReadBody (err : GoError)

/-- The default bound on the request body. -/
def defaultMaxRequestBytes : ℤ := 1048576

/-- The bound of resolved options. -/
def resolveMaxRequestBytes (maxRequestBytes : ℤ) : ℤ :=
  if maxRequestBytes ≤ 0 then defaultMaxRequestBytes else maxRequestBytes

/-- `io.ReadAll` of an `io.LimitReader`, which does not look past the limit. -/
def readLimited (b : Body) (n : ℤ) : Except GoError (List UInt8) :=
  match b.readErr with
  | none => .ok (b.content.take n.toNat)
  | some err => if b.content.length < n.toNat then .error err else .ok (b.content.take n.toNat)

/-- **`ReadBody`**, with the request it leaves. -/
def readBody (r : BodyRequest) (limit : ℤ) : Except ReadError (List UInt8) × BodyRequest :=
  if r.contentLength > limit then (.error .TooLarge, r)
  else
    match r.body with
    | none => (.ok [], r)
    | some b =>
        match readLimited b (wrapInt (limit + 1)) with
        | .error err => (.error (.ReadBody err), { r with body := some { b with content := [] } })
        | .ok body =>
            if (body.length : ℤ) > limit then
              (.error .TooLarge, { r with body := some { b with content := b.content.drop body.length } })
            else (.ok body, { r with body := some ⟨body, none⟩ })

namespace BodyRequest

/-- The bytes the body yields. -/
def content (r : BodyRequest) : List UInt8 := (r.body.map Body.content).getD []

/-- The body reads without an error, and a declared length, which is an `int64`, is its length. -/
structure WellFormed (r : BodyRequest) : Prop where
  int64 : r.contentLength ≤ maxInt
  readErr : ∀ b ∈ r.body, b.readErr = none
  contentLength : r.contentLength = -1 ∨ r.contentLength = r.content.length

/-- The whole body within the limit, which the request still yields, and an error beyond it. -/
def ReadsExactly (r : BodyRequest) (limit : ℤ) : Prop :=
  if (r.content.length : ℤ) ≤ limit then
    (readBody r limit).1 = .ok r.content ∧ (readBody r limit).2.content = r.content
  else (readBody r limit).1 = .error .TooLarge

/-- Below the largest limit a body is read as far as it has to be. -/
lemma readBody_below {r : BodyRequest} (hr : r.WellFormed) {limit : ℤ} (hpos : 0 < limit)
    (hmax : limit < maxInt) : r.ReadsExactly limit := by
  obtain ⟨contentLength, body⟩ := r
  obtain ⟨-, hread, hlength⟩ := hr
  have hnext : wrapInt (limit + 1) = limit + 1 := wrapInt_of_le (by omega) (by omega)
  rw [ReadsExactly, readBody]
  dsimp only at hread hlength ⊢
  cases body with
  | none =>
      have hshort : ¬ contentLength > limit := by
        simp only [content, Option.map_none, Option.getD_none, List.length_nil] at hlength
        omega
      simp [content, hpos.le, if_neg hshort]
  | some b =>
      obtain ⟨bytes, readErr⟩ := b
      obtain rfl : readErr = none := hread _ rfl
      simp only [content, Option.map_some, Option.getD_some, readLimited, hnext] at hlength ⊢
      split_ifs with hfits hdeclared hover hdeclared hover
      · omega
      · rw [List.length_take] at hover
        omega
      · have htake : bytes.take (limit + 1).toNat = bytes := List.take_of_length_le (by omega)
        rw [htake]
        exact ⟨rfl, rfl⟩
      · rfl
      · rfl
      · rw [List.length_take] at hover
        omega

/-- At the largest limit nothing is read. -/
lemma readBody_maxInt {r : BodyRequest} (hr : r.WellFormed) :
    (readBody r maxInt).1 = .ok [] ∧ (readBody r maxInt).2.content = [] := by
  obtain ⟨contentLength, body⟩ := r
  obtain ⟨hint, hread, -⟩ := hr
  have hzero : (wrapInt (maxInt + 1)).toNat = 0 := by decide
  rw [readBody, if_neg (not_lt.mpr hint)]
  cases body with
  | none => exact ⟨rfl, rfl⟩
  | some b =>
      have hb : b.readErr = none := hread b rfl
      have hlimited : readLimited b (wrapInt (maxInt + 1)) = .ok [] := by
        rw [readLimited, hb, hzero]
        rfl
      have hfits : ¬ (([] : List UInt8).length : ℤ) > maxInt := by decide
      simp only [hlimited, if_neg hfits]
      simp [content]

/-- **A body is read exactly** unless it is not empty and the limit the largest integer. -/
lemma readsExactly_iff {r : BodyRequest} (hr : r.WellFormed) {limit : ℤ} (hpos : 0 < limit)
    (hmax : limit ≤ maxInt) : r.ReadsExactly limit ↔ limit ≠ maxInt ∨ r.content = [] := by
  rcases lt_or_eq_of_le hmax with hlt | rfl
  · exact iff_of_true (readBody_below hr hpos hlt) (Or.inl (ne_of_lt hlt))
  · obtain ⟨hbody, hleft⟩ := readBody_maxInt hr
    rw [ReadsExactly, hbody, hleft]
    simp only [ne_eq, not_true_eq_false, false_or, Except.ok.injEq, reduceCtorEq, if_false_right]
    constructor
    · rintro ⟨-, h, -⟩
      exact h.symm
    · intro h
      rw [h]
      exact ⟨by decide, rfl, rfl⟩

end BodyRequest

/-! ## Writing a response -/

/-- A handler is served without a panic, and each of its writes is passed on whole. -/
def PassesOn (header : Header) (limit : ℤ) (calls : List HandlerCall) : Prop :=
  ∃ w passed, CaptureWriter.run calls (.new header limit) = some (w, passed) ∧ writes passed = writes calls

/-- **Every write is passed on** unless there is one and the limit is the largest integer. -/
lemma passesOn_iff (header : Header) {limit : ℤ} (hpos : 0 < limit) (hmax : limit ≤ maxInt)
    (calls : List HandlerCall) : PassesOn header limit calls ↔ limit ≠ maxInt ∨ writes calls = [] := by
  rcases lt_or_eq_of_le hmax with hlt | rfl
  · refine iff_of_true ?_ (Or.inl (ne_of_lt hlt))
    obtain ⟨w, passed, hrun, -, hwrites, -⟩ := CaptureWriter.run_exact header hpos.le (Or.inl hlt) []
    exact ⟨w, passed, hrun, hwrites⟩
  · simp only [ne_eq, not_true_eq_false, false_or]
    constructor
    · rintro ⟨w, passed, hrun, -⟩
      by_contra hne
      rw [CaptureWriter.run_panics ⟨rfl, rfl, rfl⟩ hne] at hrun
      cases hrun
    · intro hnone
      obtain ⟨w, passed, hrun, -, hwrites, -⟩ :=
        CaptureWriter.run_exact header hpos.le (Or.inr hnone) []
      exact ⟨w, passed, hrun, hwrites⟩

/-- The effective cap is the largest integer only when nothing smaller is declared. -/
lemma capResultBytes_eq_maxInt {declared : Option ℤ} {limit : ℤ} (hpos : 0 < limit)
    (hmax : limit ≤ maxInt) : capResultBytes declared limit ≠ maxInt
      ↔ limit ≠ maxInt ∨ ∃ d ∈ declared, 0 < d ∧ d < maxInt := by
  simp only [capResultBytes, if_neg (not_le.mpr hpos)]
  cases declared with
  | none => simp
  | some d =>
      simp only [Option.mem_def, Option.some.injEq, exists_eq_left']
      split_ifs with h
      · constructor
        · intro _
          omega
        · omega
      · omega

/-- **The byte limits hold** exactly where one more is still an integer: the request limit on a body, and
the effective cap on the writes of a handler. -/
theorem byte_limits_iff {r : BodyRequest} (hr : r.WellFormed) {maxRequestBytes maxResultBytes : ℤ}
    (hrequest : 0 < maxRequestBytes ∧ maxRequestBytes ≤ maxInt)
    (hresult : 0 < maxResultBytes ∧ maxResultBytes ≤ maxInt) (declared : Option ℤ) (header : Header)
    (calls : List HandlerCall) :
    (r.ReadsExactly (resolveMaxRequestBytes maxRequestBytes)
        ↔ maxRequestBytes ≠ maxInt ∨ r.content = [])
      ∧ (PassesOn header (capResultBytes declared maxResultBytes) calls
        ↔ (maxResultBytes ≠ maxInt ∨ ∃ d ∈ declared, 0 < d ∧ d < maxInt) ∨ writes calls = []) := by
  have hcap : capResultBytes declared maxResultBytes ≤ maxInt :=
    le_trans (capResultBytes_le_limit hresult.1) hresult.2
  rw [resolveMaxRequestBytes, if_neg (not_le.mpr hrequest.1),
    BodyRequest.readsExactly_iff hr hrequest.1 hrequest.2,
    passesOn_iff header (capResultBytes_pos declared maxResultBytes) hcap calls,
    capResultBytes_eq_maxInt hresult.1 hresult.2]
  exact ⟨Iff.rfl, Iff.rfl⟩

/-- A chunked request whose body is one byte. -/
def byteRequest : BodyRequest := ⟨-1, some ⟨[0x61], none⟩⟩

lemma byteRequest_wellFormed : byteRequest.WellFormed where
  int64 := by decide
  readErr := by
    rintro b ⟨⟩
    rfl
  contentLength := Or.inl rfl

theorem byte_limits_below_maxInt : byteRequest.ReadsExactly (maxInt - 1)
    ∧ PassesOn Table.empty (maxInt - 1) [.Write [0x61], .Flush, .Write [0x62]] := by
  have hlimit : 0 < maxInt - 1 ∧ maxInt - 1 ≤ maxInt := by decide
  have h := byte_limits_iff byteRequest_wellFormed hlimit hlimit none Table.empty
    [.Write [0x61], .Flush, .Write [0x62]]
  exact ⟨h.1.mpr (Or.inl (by decide)), h.2.mpr (Or.inl (Or.inl (by decide)))⟩

/-- At the largest limit the byte is not read, and the handler panics as it writes one. -/
theorem byte_limits_at_maxInt :
    (∃ r : BodyRequest, r.WellFormed ∧ r.content = [0x61] ∧ (readBody r maxInt).1 = .ok []
        ∧ ¬ r.ReadsExactly maxInt)
      ∧ ¬ PassesOn Table.empty maxInt [.Write [0x61]] := by
  refine ⟨⟨byteRequest, byteRequest_wellFormed, rfl,
    (BodyRequest.readBody_maxInt byteRequest_wellFormed).1, ?_⟩, ?_⟩
  · rw [BodyRequest.readsExactly_iff byteRequest_wellFormed (by decide) le_rfl]
    rintro (h | h)
    · exact h rfl
    · cases h
  · rw [passesOn_iff Table.empty (by decide) le_rfl]
    rintro (h | h)
    · exact h rfl
    · cases h

end Anyonce.Go
