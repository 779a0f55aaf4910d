import Anyonce.Go.Settlement
import Anyonce.Go.Writer

/-!
# What a Go door stores of a response

The capture writer and the engine together.  The writer buffers a byte more than the cap, so that the
engine can tell a response over the cap from one that just fits, and then stores it without its body.

* `StoredExactly` — what is stored of a handler's calls, said without the writer.
* `capture_exact` — every run of the door completes with that.
-/

namespace Anyonce.Go

open Interaction

/-! ## Stored headers -/

/-- The allowlisted names of a map beside `Set-Cookie`, in order, with the values of each. -/
def ListsHeaders (allow : List GoString) (h : Header) (stored : List (GoString × GoString)) : Prop :=
  ∃ names : List GoString, names.Pairwise (· < ·)
    ∧ (∀ name, name ∈ names
        ↔ name ∈ h.rows.map Prod.fst ∧ name ≠ ascii "Set-Cookie" ∧ name ∈ allow)
    ∧ stored = names.flatMap fun name => (h.entry name).map fun value => (toLowerName name, value)

lemma storedHeaders_lists (allow : List GoString) (h : Header) :
    ListsHeaders allow h (storedHeaders allow h) := by
  refine ⟨_, (sortedKeys_pairwise h).filter _, ?_, rfl⟩
  intro name
  rw [List.mem_filter, (sortedKeys_perm h).mem_iff]
  simp

/-! ## Stored responses -/

/-- What is stored of the calls of a handler under a cap. -/
structure StoredExactly (cap : ℤ) (allow : List GoString) (header : Header) (calls : List HandlerCall)
    (payload : StoredResult) : Prop where
  status : payload.status = (commit header calls).1
  headers : ∃ stored, payload.headers = some stored ∧ ListsHeaders allow (commit header calls).2 stored
  whole : ((written calls).length : ℤ) ≤ cap →
    payload.body.getD [] = written calls ∧ payload.omitted = false
  omitted : cap < (written calls).length → payload.body = none ∧ payload.omitted = true

/-- A result is stored exactly, once it is capped. -/
lemma payload_storedExactly {cfg : DoorConfig} {allow : List GoString} {header : Header}
    {calls : List HandlerCall} {result : StoredResult}
    (hstatus : result.status = (commit header calls).1)
    (hheaders : result.headers = some (storedHeaders allow (commit header calls).2))
    (hbody : result.body.getD [] = (written calls).take (cfg.limit + 1).toNat)
    (homitted : result.omitted = false) (hpos : 0 < cfg.limit) :
    StoredExactly cfg.limit allow header calls (cfg.payload result) := by
  have hsize : resultSize result = min (cfg.limit + 1).toNat (written calls).length := by
    rw [← List.length_take, ← hbody, resultSize]
    cases result.body <;> rfl
  rw [DoorConfig.payload]
  split_ifs with hover
  · refine ⟨hstatus, ⟨_, hheaders, storedHeaders_lists allow _⟩, ?_, ?_⟩
    · intro hfits
      omega
    · intro _
      exact ⟨rfl, rfl⟩
  · refine ⟨hstatus, ⟨_, hheaders, storedHeaders_lists allow _⟩, ?_, ?_⟩
    · intro hfits
      refine ⟨?_, homitted⟩
      rw [hbody, List.take_of_length_le (by omega)]
    · intro hlong
      omega

/-- Nothing that is stored is longer than the cap. -/
lemma resultSize_payload (cfg : DoorConfig) (result : StoredResult) (hpos : 0 < cfg.limit) :
    (resultSize (cfg.payload result) : ℤ) ≤ cfg.limit := by
  rw [DoorConfig.payload]
  split_ifs with hover
  · exact hpos.le
  · exact not_lt.mp hover

/-- **The capture is exact at the cap**, for every limit below the largest integer.  The writer buffers
what is written up to a byte over the limit, and in every run of the door in which the handler makes these
calls, whatever is completed is their response: whole when it is within the limit, else without its body,
and never longer than what the store declares. -/
theorem capture_exact {V : Type} {cfg : DoorConfig} {declared : Option ℤ} {maxResultBytes : ℤ}
    (hcfg : cfg.maxResultBytes = capResultBytes declared maxResultBytes) (hlimit : cfg.limit < maxInt)
    (header : Header) (calls : List HandlerCall) (allow : List GoString) :
    ∃ w passed, CaptureWriter.run calls (.new header cfg.limit) = some (w, passed)
      ∧ w.buf = (written calls).take (min (written calls).length (cfg.limit + 1).toNat)
      ∧ ∀ op (t : List (DoorEvent V)) out, Runs (doorCalls cfg op) t out →
        (∀ fence handled, ⟨.Serve fence, handled⟩ ∈ t → handled = .Wrote (w.result allow)) →
        ∀ ctx op' fence payload now r, ⟨.Complete ctx op' fence payload now, r⟩ ∈ t →
          StoredExactly cfg.limit allow header calls payload
            ∧ ∀ d ∈ declared, 0 < d → (resultSize payload : ℤ) ≤ d := by
  have hcap : cfg.limit = capResultBytes declared maxResultBytes := by
    rw [DoorConfig.limit, hcfg, if_neg (not_le.mpr (capResultBytes_pos declared maxResultBytes))]
  have hpos : 0 < cfg.limit := hcap ▸ capResultBytes_pos declared maxResultBytes
  obtain ⟨w, passed, hrun, hbuf, -, hresult⟩ :=
    CaptureWriter.run_exact header hpos.le (Or.inl hlimit) allow
  refine ⟨w, passed, hrun, ?_, ?_⟩
  · rw [hbuf, min_comm, ← List.take_eq_take_min]
  · intro op t out hdoor hserved ctx op' fence payload now r hmem
    obtain ⟨fence', result, hserve, rfl⟩ := door_payload hdoor ctx op' fence payload now r hmem
    obtain rfl : result = w.result allow := by
      have hwrote := hserved fence' _ hserve
      cases hwrote
      rfl
    have hbody : (w.result allow).body.getD [] = w.buf := by
      rw [hresult]
      dsimp only
      split_ifs with hempty
      · exact hempty.symm
      · rfl
    refine ⟨payload_storedExactly ?_ ?_ (hbody.trans hbuf) ?_ hpos, ?_⟩
    · rw [hresult]
    · rw [hresult]
    · rw [hresult]
    · rintro d ⟨⟩ hd
      calc (resultSize (cfg.payload (w.result allow)) : ℤ)
          ≤ cfg.limit := resultSize_payload cfg _ hpos
        _ = capResultBytes (some d) maxResultBytes := hcap
        _ ≤ d := capResultBytes_le hd

/-- A store that holds four bytes under a policy of ten. -/
def fourBytes : DoorConfig where
  name := []
  lease := 1
  ttl := 1
  maxResultBytes := 4
  onStoreErrorMode := .Unset
  storeResult := true

/-- A handler that sends an informational status, its final one, and five bytes in two writes. -/
def fiveBytes : List HandlerCall :=
  [.WriteHeader 103, .WriteHeader 201, .Write [1, 2, 3], .Write [4, 5]]

/-- A run in which the handler writes `result`, and the predicate keeps it. -/
def keptRun (result : StoredResult) : List (DoorEvent Unit) :=
  [⟨.CtxErr, none⟩, ⟨.Now, 0⟩, ⟨.Begin .Caller ⟨[], [], []⟩ ⟨1, 1, 0⟩, .ok (.Acquired 1)⟩,
    ⟨.Serve 1, .Wrote result⟩, ⟨.StoreResult result, .ok true⟩, ⟨.Now, 2⟩,
    ⟨.Complete .Bookkeeping ⟨[], [], []⟩ 1 (fourBytes.payload result) 2, .ok .Ok⟩]

lemma runs_keptRun (result : StoredResult) :
    Runs (doorCalls fourBytes ⟨[], [], []⟩) (keptRun result) (.ok ()) :=
  Steps.call _ (Steps.call _ (Steps.call _ (Steps.call _ (Steps.call _ (Steps.call _ (Steps.call _
    (Steps.refl _)))))))

theorem capture_exact_over_cap : ∃ result payload,
    Runs (doorCalls fourBytes ⟨[], [], []⟩) (keptRun result) (.ok ())
      ∧ ⟨.Complete .Bookkeeping ⟨[], [], []⟩ 1 payload 2, .ok .Ok⟩ ∈ keptRun result
      ∧ payload.status = 201 ∧ payload.body = none ∧ payload.omitted = true := by
  have hdeclared : fourBytes.maxResultBytes = capResultBytes (some 4) 10 := rfl
  obtain ⟨w, passed, -, -, hdoor⟩ := capture_exact (V := Unit) hdeclared (by decide)
    Relational.Table.empty fiveBytes []
  have hmem : ⟨.Complete .Bookkeeping ⟨[], [], []⟩ 1 (fourBytes.payload (w.result [])) 2, .ok .Ok⟩
      ∈ keptRun (w.result []) := by simp [keptRun]
  obtain ⟨hstored, -⟩ := hdoor _ _ _ (runs_keptRun _) (by simp [keptRun]) _ _ _ _ _ _ hmem
  obtain ⟨hbody, homitted⟩ := hstored.omitted (by decide)
  exact ⟨_, _, runs_keptRun _, hmem, hstored.status, hbody, homitted⟩

end Anyonce.Go
