import Mathlib.Algebra.GroupWithZero.Nat
import Mathlib.Logic.Relation
import Anyonce.Core.Reader
import Anyonce.Types

/-!
# Streaming capture

`captureResponse` of `packages/core/src/http/capture.ts`, for a response with a body.  Two consumers share the
reader of the handler's body: `pull`, which the client drives, and `drain`, which a cancel of the client starts
while a pull may still be waiting.  Each runs on its own between its reads, and the reads are answered in the
order in which they were made.

* `CaptureStep` — what can happen: a pull, an answer of the source, the next part of a pull or of the drain, a
  read and a cancel of the client.
* `Captured` — what holds after the chunks `taken` have been handled, whoever handled them.
* `Captured.step` — every step keeps it.
* `CaptureStep.errored` — the client sees an error of the source after all the chunks.
* `Captured.settles` — a capture that is not settled can be, whatever has happened to it.
-/

namespace Anyonce

open Streams

/-! ## The code -/

/-- Who reads from the source. -/
inductive Consumer
  | Pull
  | Drain
  deriving DecidableEq

/-- One chunk of a body. -/
abbrev Chunk : Type := List UInt8

/-- `out.set(chunk, offset)`. -/
def setBytes (out : Chunk) (offset : ℕ) (chunk : Chunk) : Chunk :=
  out.take offset ++ chunk ++ out.drop (offset + chunk.length)

/-- The loop of `concat`, from an offset. -/
def concatFrom (out : Chunk) (offset : ℕ) : List Chunk → Chunk
  | [] => out
  | chunk :: chunks => concatFrom (setBytes out offset chunk) (offset + chunk.length) chunks

/-- The chunks copied one after another into an array of the given size. -/
def concat (chunks : List Chunk) (size : ℕ) : Chunk := concatFrom (List.replicate size 0) 0 chunks

/-- The variables of a capture and the two streams.  `settlements` are the calls of `resolveStored` and
`rejectStored`, and `pulling` says that a pull has not returned. -/
structure CaptureState (E : Type) where
  reader : Reader Consumer Chunk E
  chunks : List Chunk := []
  size : ℕ := 0
  overCap : Bool := false
  clientOpen : Bool := true
  settled : Bool := false
  settlements : List (Except E Chunk) := []
  pulling : Bool := false
  client : Controller Chunk E := {}

namespace CaptureState

variable {E : Type} (released : E) (maxResultBytes : ℤ) (s : CaptureState E)

def record (value : Chunk) : CaptureState E :=
  if s.overCap then s
  else { s with
    chunks := s.chunks ++ [value]
    size := s.size + value.length
    overCap := maxResultBytes < (s.size + value.length : ℕ) }

/-- The source is exhausted or errored; `released` is what a read of a released reader fails with. -/
def finish (error : Option E) : CaptureState E :=
  if s.settled then s
  else { s with
    settled := true
    reader := s.reader.release released
    settlements := s.settlements ++ [match error with
      | some reason => .error reason
      | none => .ok (concat s.chunks s.size)] }

/-- The client stream asks for a chunk. -/
def pull : CaptureState E :=
  if s.settled then s else { s with pulling := true, reader := s.reader.read released .Pull }

/-- A chunk for the client, if it is still there. -/
def offer (value : Chunk) : CaptureState E :=
  if s.clientOpen then
    match s.client.enqueue value with
    | some client => { s with client := client }
    | none => { s with clientOpen := false }
  else s

/-- A pull goes on with what its read was answered. -/
def pullRead (result : ReadResult Chunk E) : CaptureState E :=
  let s := { s with pulling := false }
  match result with
  | .Failed error =>
      (if s.clientOpen then { s with clientOpen := false, client := s.client.error error } else s).finish
        released (some error)
  | .Done => s.finish released none
  | .Value value => (s.offer value).record maxResultBytes value

/-- The loop of `drain`, from a read to the next one. -/
def drainRead : ReadResult Chunk E → CaptureState E
  | .Failed error => s.finish released (some error)
  | .Done => s.finish released none
  | .Value value =>
      let s := s.record maxResultBytes value
      { s with reader := s.reader.read released .Drain }

/-- The client cancels its stream, unless the stream is over. -/
def cancel : Option (CaptureState E) :=
  s.client.clientCancel.map fun client =>
    { s with client := client, clientOpen := false, reader := s.reader.read released .Drain }

/-- `none` where it throws. -/
def close : Option (CaptureState E) :=
  if s.clientOpen then s.client.close.map fun client => { s with clientOpen := false, client := client }
  else some s

def fail (reason : E) : CaptureState E :=
  if s.clientOpen then
    let s := { s with clientOpen := false, client := s.client.error reason }
    if s.settled then s
    else { s with reader := s.reader.cancel }.finish released (some reason)
  else s

end CaptureState

/-- A capture of a body that gives these chunks and then ends, closed or errored. -/
def captureResponse {E : Type} (chunks : List Chunk) (ending : Option E) : CaptureState E :=
  { reader := { source := .Open chunks ending } }

/-- What can happen to a capture.  The client stream pulls when its queue, which has room for one chunk, is empty. -/
inductive CaptureStep {E : Type} (released : E) (maxResultBytes : ℤ) : CaptureState E → CaptureState E → Prop
  | pull {s : CaptureState E} (hidle : s.pulling = false) (hstate : s.client.state = .Readable)
      (hopen : s.client.closeRequested = false) (hqueue : s.client.queue = []) :
      CaptureStep released maxResultBytes s (s.pull released)
  | deliver {s : CaptureState E} {reader : Reader Consumer Chunk E} (hreader : s.reader.deliver = some reader) :
      CaptureStep released maxResultBytes s { s with reader := reader }
  | pullRead {s : CaptureState E} {result : ReadResult Chunk E} {answered : List (Consumer × ReadResult Chunk E)}
      (hanswered : s.reader.answered = (.Pull, result) :: answered) :
      CaptureStep released maxResultBytes s
        ({ s with reader := { s.reader with answered := answered } }.pullRead released maxResultBytes result)
  | drainRead {s : CaptureState E} {result : ReadResult Chunk E} {answered : List (Consumer × ReadResult Chunk E)}
      (hanswered : s.reader.answered = (.Drain, result) :: answered) :
      CaptureStep released maxResultBytes s
        ({ s with reader := { s.reader with answered := answered } }.drainRead released maxResultBytes result)
  | clientRead {s : CaptureState E} {client : Controller Chunk E} (hclient : s.client.clientRead = some client) :
      CaptureStep released maxResultBytes s { s with client := client }
  | cancel {s s' : CaptureState E} (hcancel : s.cancel released = some s') :
      CaptureStep released maxResultBytes s s'

/-! ## The copy -/

lemma concatFrom_eq (done : Chunk) (chunks : List Chunk) (rest : Chunk) (hrest : rest.length = chunks.flatten.length) :
    concatFrom (done ++ rest) done.length chunks = done ++ chunks.flatten := by
  induction chunks generalizing done rest with
  | nil =>
      obtain rfl : rest = [] := List.length_eq_zero_iff.mp hrest
      simp [concatFrom]
  | cons chunk chunks ih =>
      rw [List.flatten_cons, List.length_append] at hrest
      have hset : setBytes (done ++ rest) done.length chunk = (done ++ chunk) ++ rest.drop chunk.length := by
        rw [setBytes, List.take_left, List.drop_append]
        simp
      rw [concatFrom, hset, ← List.length_append, ih (done ++ chunk) _ (by rw [List.length_drop]; omega),
        List.flatten_cons, List.append_assoc]

/-- The bytes of the chunks, when the size is right. -/
lemma concat_eq {chunks : List Chunk} {size : ℕ} (hsize : size = chunks.flatten.length) :
    concat chunks size = chunks.flatten := by
  have h := concatFrom_eq [] chunks (List.replicate size 0) (by rw [List.length_replicate, hsize])
  simpa [concat] using h

/-- **The copy** of the chunks `taken`: all of them, or so many that they are over the cap. -/
structure Recorded (maxResultBytes : ℤ) (taken chunks : List Chunk) (size : ℕ) (overCap : Bool) : Prop where
  size_eq : size = chunks.flatten.length
  below : overCap = false → chunks = taken
  above : overCap = true → chunks <+: taken ∧ maxResultBytes < size

section

variable {maxResultBytes : ℤ} {taken chunks : List Chunk} {size : ℕ} {overCap : Bool}

lemma Recorded.record {E : Type} {s : CaptureState E}
    (h : Recorded maxResultBytes taken s.chunks s.size s.overCap) (value : Chunk) :
    Recorded maxResultBytes (taken ++ [value]) (s.record maxResultBytes value).chunks
      (s.record maxResultBytes value).size (s.record maxResultBytes value).overCap := by
  rw [CaptureState.record]
  split_ifs with hover
  · refine ⟨h.size_eq, fun hbelow => ?_, fun _ => ⟨(h.above hover).1.trans (List.prefix_append _ _), (h.above hover).2⟩⟩
    rw [hover] at hbelow
    cases hbelow
  · have hchunks := h.below (by simpa using hover)
    refine ⟨by simp [h.size_eq], fun _ => by rw [← hchunks], fun habove => ⟨?_, by simpa using habove⟩⟩
    exact hchunks ▸ List.prefix_rfl

/-- **The body that is stored**: the chunks, or something that is over the cap as they are. -/
lemma Recorded.body (h : Recorded maxResultBytes taken chunks size overCap) :
    (concat chunks size).length ≤ taken.flatten.length
      ∧ (concat chunks size = taken.flatten ∨ maxResultBytes < (concat chunks size).length) := by
  rw [concat_eq h.size_eq]
  cases overCap with
  | false =>
      rw [h.below rfl]
      exact ⟨Nat.le_refl _, Or.inl rfl⟩
  | true =>
      obtain ⟨⟨rest, hrest⟩, habove⟩ := h.above rfl
      refine ⟨?_, Or.inr ?_⟩
      · rw [← hrest, List.flatten_append, List.length_append]
        omega
      · rwa [← h.size_eq]

end

/-! ## The client -/

section

variable {E : Type} {taken : List Chunk} {settled clientOpen : Bool} {client client' : Controller Chunk E}

/-- **What the client has been given** of the chunks `taken`: all of them, as long as it has not cancelled and
nothing has failed. -/
structure Given (taken : List Chunk) (settled clientOpen : Bool) (client : Controller Chunk E) : Prop where
  open_iff : clientOpen = true ↔ client.state = .Readable ∧ client.closeRequested = false
  closed : client.closeRequested = true ∨ client.state ≠ .Readable ∧ client.state ≠ .Cancelled → settled = true
  received : client.received ++ client.queue <+: taken
  complete : client.state = .Readable ∨ client.state = .Closed → client.received ++ client.queue = taken
  emptied : client.state = .Closed → client.queue = [] ∧ client.closeRequested = true
  pending : client.state = .Readable → client.closeRequested = true → client.queue ≠ []

lemma Given.settle (h : Given taken settled clientOpen client) : Given taken true clientOpen client :=
  ⟨h.open_iff, fun _ => rfl, h.received, h.complete, h.emptied, h.pending⟩

lemma Given.enqueue (h : Given taken settled true client) (value : Chunk) :
    ∃ client', client.enqueue value = some client' ∧ Given (taken ++ [value]) settled true client' := by
  obtain ⟨hstate, hclose⟩ := h.open_iff.mp rfl
  have henqueue : client.enqueue value = some { client with queue := client.queue ++ [value] } := by
    simp [Controller.enqueue, hstate, hclose]
  refine ⟨_, henqueue, ?_⟩
  have hcomplete := h.complete (Or.inl hstate)
  exact {
    open_iff := iff_of_true rfl ⟨hstate, hclose⟩
    closed := h.closed
    received := by simp only [← List.append_assoc, hcomplete, List.prefix_rfl]
    complete := fun _ => by rw [← List.append_assoc, hcomplete]
    emptied := fun hclosed => by rw [hstate] at hclosed; cases hclosed
    pending := fun _ _ => by simp }

/-- A chunk that the client is not given any more. -/
lemma Given.skip (h : Given taken false false client) (value : Chunk) : Given (taken ++ [value]) false false client where
  open_iff := h.open_iff
  closed := h.closed
  received := h.received.trans (List.prefix_append _ _)
  complete hstate := by
    have hclosed := mt h.closed (by simp)
    simp only [not_or, Bool.not_eq_true] at hclosed
    rcases hstate with hstate | hstate
    · cases h.open_iff.mpr ⟨hstate, hclosed.1⟩
    · exact absurd ⟨by rw [hstate]; simp, by rw [hstate]; simp⟩ hclosed.2
  emptied := h.emptied
  pending := h.pending

lemma Given.error (h : Given taken true true client) (reason : E) :
    Given taken true false (client.error reason) := by
  obtain ⟨hstate, hclose⟩ := h.open_iff.mp rfl
  have herror : client.error reason = { client with state := .Errored reason, queue := [] } := by
    rw [Controller.error, hstate]
  rw [herror]
  exact {
    open_iff := by simp
    closed := fun _ => rfl
    received := by
      rw [List.append_nil]
      exact (List.prefix_append _ _).trans h.received
    complete := fun hstate => by rcases hstate with h | h <;> cases h
    emptied := fun hclosed => by cases hclosed
    pending := fun hreadable => by cases hreadable }

lemma Given.close (h : Given taken true true client) :
    ∃ client', client.close = some client' ∧ Given taken true false client' := by
  obtain ⟨hstate, hclose⟩ := h.open_iff.mp rfl
  have hclosed : client.close = some { client with
      closeRequested := true
      state := if client.queue.isEmpty then .Closed else .Readable } := by
    simp [Controller.close, hstate, hclose]
  refine ⟨_, hclosed, ?_⟩
  exact {
    open_iff := by simp
    closed := fun _ => rfl
    received := h.received
    complete := fun _ => h.complete (Or.inl hstate)
    emptied := fun hclosed => by
      cases hempty : client.queue with
      | nil => exact ⟨rfl, rfl⟩
      | cons chunk queue => simp [hempty] at hclosed
    pending := fun hreadable _ => by
      intro hempty
      simp only at hempty
      simp [hempty] at hreadable }

lemma Given.clientRead (h : Given taken settled clientOpen client) (hread : client.clientRead = some client') :
    Given taken settled clientOpen client' ∧ (client'.state = .Cancelled ↔ client.state = .Cancelled) := by
  unfold Controller.clientRead at hread
  split at hread
  · next chunk queue hstate hqueue =>
      obtain rfl := Option.some.inj hread
      have hreceived : client.received ++ [chunk] ++ queue = client.received ++ client.queue := by
        rw [hqueue, List.append_assoc, List.singleton_append]
      refine ⟨?_, by rw [hstate]; dsimp only; split_ifs <;> simp⟩
      exact {
        open_iff := by
          have hopen := h.open_iff
          rw [hstate] at hopen
          rw [hopen]
          cases client.closeRequested <;> simp
        closed := fun hclosed => by
          rcases hclosed with hrequested | hclosed
          · exact h.closed (Or.inl hrequested)
          · refine h.closed (Or.inl ?_)
            cases hrequested : client.closeRequested with
            | true => rfl
            | false => exact absurd (by simp [hrequested]) hclosed.1
        received := by rw [hreceived]; exact h.received
        complete := fun _ => by rw [hreceived]; exact h.complete (Or.inl hstate)
        emptied := fun hclosed => by
          cases queue with
          | nil =>
              refine ⟨rfl, ?_⟩
              cases hrequested : client.closeRequested with
              | true => rfl
              | false => simp [hrequested] at hclosed
          | cons chunk queue => simp at hclosed
        pending := fun hreadable hrequested hempty => by
          simp only at hempty hrequested
          simp [hempty, hrequested] at hreadable }
  · cases hread

lemma Given.cancel (h : Given taken settled clientOpen client) (hcancel : client.clientCancel = some client') :
    Given taken settled false client' ∧ client'.state = .Cancelled := by
  unfold Controller.clientCancel at hcancel
  split at hcancel
  · obtain rfl := Option.some.inj hcancel
    refine ⟨?_, rfl⟩
    exact {
      open_iff := by simp
      closed := fun hclosed => by
        rcases hclosed with hrequested | hclosed
        · exact h.closed (Or.inl hrequested)
        · exact absurd rfl hclosed.2
      received := by
        rw [List.append_nil]
        exact (List.prefix_append _ _).trans h.received
      complete := fun hstate => by rcases hstate with h | h <;> cases h
      emptied := fun hclosed => by cases hclosed
      pending := fun hreadable => by cases hreadable }
  · cases hcancel

end

/-! ## The invariant -/

section

variable {E : Type} {released : E} {maxResultBytes : ℤ} {chunks taken : List Chunk} {ending : Option E}
  {s s' : CaptureState E}

/-- What is stored in the end. -/
def CaptureState.settlement (s : CaptureState E) : Option E → Except E Chunk
  | some reason => .error reason
  | none => .ok (concat s.chunks s.size)

/-- **What holds of a capture** of `chunks` after the chunks `taken`, whoever has handled them. -/
structure Captured (maxResultBytes : ℤ) (chunks : List Chunk) (ending : Option E) (taken : List Chunk)
    (s : CaptureState E) : Prop where
  progress : taken ++ s.reader.values = chunks
  recorded : Recorded maxResultBytes taken s.chunks s.size s.overCap
  reading : s.settled = false → s.reader.locked = true ∧ Orderly ending s.reader ∧ s.settlements = []
  ended : s.settled = true → s.reader.values = [] ∧ (∀ rest ending', s.reader.source ≠ .Open rest ending')
    ∧ s.settlements = [s.settlement ending]
  given : Given taken s.settled s.clientOpen s.client
  source : s.reader.source.ending = ending
  prefetch : s.pulling = true → s.client.queue = []
  pulls : s.reader.asks .Pull = if s.pulling then 1 else 0
  late : s.settled = true → s.pulling = true → s.client.state = .Cancelled
  flushed : s.settled = true → s.clientOpen = true → s.client.queue = []
  alone : s.client.state ≠ .Cancelled → ¬ s.reader.Asked .Drain
  drained : s.client.state = .Cancelled → s.settled = false → s.reader.Asked .Drain
  pulled : s.pulling = true → s.settled = false → s.reader.Asked .Pull

lemma captured_start (maxResultBytes : ℤ) (chunks : List Chunk) (ending : Option E) :
    Captured maxResultBytes chunks ending [] (captureResponse chunks ending) where
  progress := rfl
  recorded := ⟨rfl, fun _ => rfl, fun h => by cases h⟩
  reading _ := ⟨rfl, orderly_start chunks ending, rfl⟩
  ended h := by cases h
  given := ⟨by simp [captureResponse], fun h => by simp [captureResponse] at h, List.prefix_rfl, fun _ => rfl,
    fun h => by simp [captureResponse] at h, fun _ h => by cases h⟩
  source := rfl
  prefetch h := by cases h
  pulls := rfl
  late h := by cases h
  flushed h := by cases h
  alone _ h := by
    rcases h with h | ⟨_, h⟩
    · cases h
    · cases h
  drained h := by cases h
  pulled h := by cases h

/-- A settled capture has no chunk to handle. -/
lemma Captured.not_value (h : Captured maxResultBytes chunks ending taken s) (hsettled : s.settled = true)
    {w : Consumer} {value : Chunk} {answered : List (Consumer × ReadResult Chunk E)} :
    s.reader.answered ≠ (w, .Value value) :: answered := by
  intro hanswered
  have hvalues := (h.ended hsettled).1
  rw [Reader.values_take hanswered] at hvalues
  cases hvalues

lemma Captured.pull (h : Captured maxResultBytes chunks ending taken s) (hidle : s.pulling = false)
    (hqueue : s.client.queue = []) : Captured maxResultBytes chunks ending taken (s.pull released) := by
  rw [CaptureState.pull]
  split_ifs with hsettled
  · exact h
  · have hunsettled : s.settled = false := by simpa using hsettled
    obtain ⟨hlocked, horderly, hsettlements⟩ := h.reading hunsettled
    exact {
      progress := by rw [Reader.values_read]; exact h.progress
      recorded := h.recorded
      reading := fun _ => ⟨by rw [Reader.locked_read]; exact hlocked, horderly.read released hlocked .Pull, hsettlements⟩
      ended := fun hs => absurd hs hsettled
      given := h.given
      source := by rw [Reader.source_read]; exact h.source
      prefetch := fun _ => hqueue
      pulls := by
        rw [Reader.asks_read, h.pulls, hidle]
        rfl
      late := fun hs => absurd hs hsettled
      flushed := fun hs => absurd hs hsettled
      alone := fun hne hasked => h.alone hne (hasked.of_read (by simp))
      drained := fun hcancelled hs => (h.drained hcancelled hs).read released .Pull
      pulled := fun _ _ => Reader.asked_read released s.reader .Pull }

lemma Captured.deliver (h : Captured maxResultBytes chunks ending taken s) {reader : Reader Consumer Chunk E}
    (hreader : s.reader.deliver = some reader) :
    Captured maxResultBytes chunks ending taken { s with reader := reader } := by
  have hunsettled : s.settled = false := by
    rw [← Bool.not_eq_true]
    intro hsettled
    have hopen := (h.ended hsettled).2.1
    unfold Reader.deliver at hreader
    split at hreader
    · next hsource _ => exact hopen _ _ hsource
    · next hsource => exact hopen _ _ hsource
    · next hsource => exact hopen _ _ hsource
    · cases hreader
  obtain ⟨hlocked, horderly, hsettlements⟩ := h.reading hunsettled
  exact {
    progress := by rw [Reader.values_deliver hreader]; exact h.progress
    recorded := h.recorded
    reading := fun _ => ⟨by rw [Reader.locked_deliver hreader]; exact hlocked, horderly.deliver hreader, hsettlements⟩
    ended := fun hs => by rw [hunsettled] at hs; cases hs
    given := h.given
    source := (Reader.ending_deliver hreader).trans h.source
    prefetch := h.prefetch
    pulls := (Reader.asks_deliver hreader).trans h.pulls
    late := h.late
    flushed := h.flushed
    alone := fun hne hasked => h.alone hne (hasked.of_deliver hreader)
    drained := fun hcancelled hs => (h.drained hcancelled hs).deliver hreader
    pulled := fun hpulling hs => (h.pulled hpulling hs).deliver hreader }

lemma Captured.clientRead (h : Captured maxResultBytes chunks ending taken s) {client : Controller Chunk E}
    (hclient : s.client.clientRead = some client) :
    Captured maxResultBytes chunks ending taken { s with client := client } := by
  obtain ⟨hgiven, hcancelled⟩ := h.given.clientRead hclient
  exact {
    progress := h.progress
    recorded := h.recorded
    reading := h.reading
    ended := h.ended
    given := hgiven
    source := h.source
    prefetch := fun hpulling => by
      rw [Controller.clientRead, h.prefetch hpulling] at hclient
      cases hstate : s.client.state <;> simp [hstate] at hclient
    pulls := h.pulls
    late := fun hs hpulling => hcancelled.mpr (h.late hs hpulling)
    flushed := fun hs hopen => by
      rw [Controller.clientRead, h.flushed hs hopen] at hclient
      cases hstate : s.client.state <;> simp [hstate] at hclient
    alone := fun hne => h.alone (mt hcancelled.mpr hne)
    drained := fun hstate => h.drained (hcancelled.mp hstate)
    pulled := h.pulled }

lemma Captured.cancel (h : Captured maxResultBytes chunks ending taken s) (hcancel : s.cancel released = some s') :
    Captured maxResultBytes chunks ending taken s' := by
  obtain ⟨client, hclient, rfl⟩ := Option.map_eq_some_iff.mp hcancel
  obtain ⟨hgiven, hcancelled⟩ := h.given.cancel hclient
  exact {
    progress := by rw [Reader.values_read]; exact h.progress
    recorded := h.recorded
    reading := fun hs => by
      obtain ⟨hlocked, horderly, hsettlements⟩ := h.reading hs
      exact ⟨by rw [Reader.locked_read]; exact hlocked, horderly.read released hlocked .Drain, hsettlements⟩
    ended := fun hs => by
      obtain ⟨hvalues, hsource, hsettlements⟩ := h.ended hs
      exact ⟨by rw [Reader.values_read]; exact hvalues, by rw [Reader.source_read]; exact hsource, hsettlements⟩
    given := hgiven
    source := by rw [Reader.source_read]; exact h.source
    prefetch := fun hpulling => by
      unfold Controller.clientCancel at hclient
      split at hclient
      · rw [← Option.some.inj hclient]
      · cases hclient
    pulls := by
      rw [Reader.asks_read, h.pulls]
      rfl
    late := fun _ _ => hcancelled
    flushed := fun _ hopen => by cases hopen
    alone := fun hne => absurd hcancelled hne
    drained := fun _ _ => Reader.asked_read released s.reader .Drain
    pulled := fun hpulling hs => (h.pulled hpulling hs).read released .Drain }

@[simp] lemma CaptureState.record_settled (value : Chunk) :
    (s.record maxResultBytes value).settled = s.settled := by
  rw [record]
  split_ifs <;> rfl

@[simp] lemma CaptureState.record_settlements (value : Chunk) :
    (s.record maxResultBytes value).settlements = s.settlements := by
  rw [record]
  split_ifs <;> rfl

/-- An end is handled, and the capture settles, if it has not. -/
lemma Captured.finish (h : Captured maxResultBytes chunks ending taken s) {w : Consumer}
    {result : ReadResult Chunk E} {answered : List (Consumer × ReadResult Chunk E)}
    (hanswered : s.reader.answered = (w, result) :: answered) (hresult : ∀ value, result ≠ .Value value)
    {error : Option E} (herror : s.settled = false → error = ending) (pulling : Bool) {clientOpen : Bool}
    {client : Controller Chunk E} (hgiven : Given taken true clientOpen client)
    (hprefetch : pulling = true → client.queue = [])
    (hpulls : s.reader.asks .Pull = (if pulling then 1 else 0) + if w = .Pull then 1 else 0)
    (hlate : pulling = true → client.state = .Cancelled) (hflushed : clientOpen = true → client.queue = [])
    (hstate : client.state ≠ .Cancelled → s.client.state ≠ .Cancelled) :
    Captured maxResultBytes chunks ending taken
      (({ s with
        reader := { s.reader with answered := answered }
        pulling := pulling
        clientOpen := clientOpen
        client := client } : CaptureState E).finish released error) := by
  have hvalues := Reader.values_take_end hanswered hresult
  have hasks := Reader.asks_take (w := .Pull) hanswered
  rw [hpulls, Nat.add_right_cancel_iff] at hasks
  have halone : client.state ≠ .Cancelled →
      ¬ ({ s.reader with answered := answered } : Reader Consumer Chunk E).Asked .Drain :=
    fun hne hasked => h.alone (hstate hne) (hasked.of_take hanswered)
  unfold CaptureState.finish
  cases hsettled : s.settled with
  | true =>
      rw [if_pos rfl]
      obtain ⟨hnone, hsource, hsettlements⟩ := h.ended hsettled
      exact {
        progress := by rw [← hvalues]; exact h.progress
        recorded := h.recorded
        reading := fun hs => by cases hs
        ended := fun _ => ⟨by rw [← hvalues]; exact hnone, hsource, hsettlements⟩
        given := hgiven
        source := h.source
        prefetch := hprefetch
        pulls := hasks.symm
        late := fun _ => hlate
        flushed := fun _ => hflushed
        alone := halone
        drained := fun _ hs => by cases hs
        pulled := fun _ hs => by cases hs }
  | false =>
      rw [if_neg (by simp), herror hsettled]
      obtain ⟨-, horderly, hsettlements⟩ := h.reading hsettled
      obtain ⟨-, hnone, hsource⟩ := (horderly.head hanswered).resolve_left fun ⟨value, hvalue⟩ => hresult value hvalue
      exact {
        progress := by rw [Reader.values_release, ← hvalues]; exact h.progress
        recorded := h.recorded
        reading := fun hs => by cases hs
        ended := fun _ => ⟨by rw [Reader.values_release, ← hvalues]; exact hnone, hsource, by
          rw [hsettlements]
          cases ending <;> rfl⟩
        given := hgiven
        source := h.source
        prefetch := hprefetch
        pulls := (Reader.asks_release released).trans hasks.symm
        late := fun _ => hlate
        flushed := fun _ => hflushed
        alone := fun hne hasked => halone hne hasked.of_release
        drained := fun _ hs => by cases hs
        pulled := fun _ hs => by cases hs }

/-- How a source that failed, or was read to its end, ends. -/
lemma Captured.ending_of_answer (h : Captured maxResultBytes chunks ending taken s) {w : Consumer}
    {result : ReadResult Chunk E} {answered : List (Consumer × ReadResult Chunk E)}
    (hanswered : s.reader.answered = (w, result) :: answered) (hresult : ∀ value, result ≠ .Value value)
    (hsettled : s.settled = false) : result = endResult ending :=
  (((h.reading hsettled).2.1.head hanswered).resolve_left fun ⟨value, hvalue⟩ => hresult value hvalue).1

/-- A chunk is offered to the client, which takes it unless it has gone. -/
lemma Given.offer {clientOpen : Bool} {client : Controller Chunk E} (h : Given taken false clientOpen client)
    (value : Chunk) : ∃ clientOpen' client',
      (∀ s : CaptureState E, s.clientOpen = clientOpen → s.client = client →
        s.offer value = { s with clientOpen := clientOpen', client := client' })
      ∧ Given (taken ++ [value]) false clientOpen' client' ∧ client'.state = client.state := by
  cases clientOpen with
  | false =>
      refine ⟨false, client, fun s hopen hclient => ?_, h.skip value, rfl⟩
      rw [CaptureState.offer, if_neg (by simp [hopen]), ← hopen, ← hclient]
  | true =>
      obtain ⟨client', henqueue, h'⟩ := h.enqueue value
      obtain ⟨hstate', -⟩ := h'.open_iff.mp rfl
      obtain ⟨hstate, -⟩ := h.open_iff.mp rfl
      refine ⟨true, client', fun s hopen hclient => ?_, h', by rw [hstate, hstate']⟩
      rw [CaptureState.offer, if_pos hopen, hclient, henqueue, ← hopen]

/-- The one request of a pull is the one that is answered. -/
lemma Captured.pulling_of_answer (h : Captured maxResultBytes chunks ending taken s) {result : ReadResult Chunk E}
    {answered : List (Consumer × ReadResult Chunk E)} (hanswered : s.reader.answered = (.Pull, result) :: answered) :
    s.pulling = true ∧ s.reader.asks .Pull = (if false then 1 else 0) + if Consumer.Pull = .Pull then 1 else 0 := by
  have hasks := Reader.asks_take (w := .Pull) hanswered
  have hpulls := h.pulls
  rw [if_pos rfl] at hasks
  cases hpulling : s.pulling with
  | true =>
      rw [hpulling] at hpulls
      exact ⟨rfl, hpulls⟩
  | false =>
      rw [hpulling] at hpulls
      simp only [Bool.false_eq_true, if_false] at hpulls
      omega

/-- A drain that is answered was started by a cancel. -/
lemma Captured.cancelled_of_answer (h : Captured maxResultBytes chunks ending taken s) {result : ReadResult Chunk E}
    {answered : List (Consumer × ReadResult Chunk E)} (hanswered : s.reader.answered = (.Drain, result) :: answered) :
    s.client.state = .Cancelled := by
  by_contra hne
  exact h.alone hne (Or.inr ⟨_, by rw [hanswered]; exact List.mem_cons_self⟩)

lemma Captured.shut_of_answer (h : Captured maxResultBytes chunks ending taken s) {result : ReadResult Chunk E}
    {answered : List (Consumer × ReadResult Chunk E)} (hanswered : s.reader.answered = (.Drain, result) :: answered) :
    ¬ s.clientOpen = true := by
  rw [h.given.open_iff, h.cancelled_of_answer hanswered]
  simp

/-- **The next part of a pull.** -/
lemma Captured.pullRead (h : Captured maxResultBytes chunks ending taken s) {result : ReadResult Chunk E}
    {answered : List (Consumer × ReadResult Chunk E)} (hanswered : s.reader.answered = (.Pull, result) :: answered) :
    ∃ taken', Captured maxResultBytes chunks ending taken'
      (({ s with reader := { s.reader with answered := answered } } : CaptureState E).pullRead released
        maxResultBytes result) := by
  obtain ⟨hpulling, hpulls⟩ := h.pulling_of_answer hanswered
  cases result with
  | Failed error =>
      have hending : s.settled = false → some error = ending := by
        intro hsettled
        have hend := h.ending_of_answer hanswered (by simp) hsettled
        cases ending with
        | none => cases hend
        | some reason => exact congrArg some (ReadResult.Failed.inj hend)
      refine ⟨taken, ?_⟩
      cases hopen : s.clientOpen with
      | false =>
          have hgiven := h.given.settle
          simp only [CaptureState.pullRead, Bool.false_eq_true, if_false]
          rw [hopen] at hgiven
          exact h.finish hanswered (by simp) hending false hgiven (by simp) hpulls (by simp) (by simp) id
      | true =>
          have hgiven := h.given.settle
          rw [hopen] at hgiven
          simp only [CaptureState.pullRead, if_true]
          refine h.finish hanswered (by simp) hending false (hgiven.error error) (by simp) hpulls (by simp) (by simp) fun _ => ?_
          obtain ⟨hstate, -⟩ := hgiven.open_iff.mp rfl
          rw [hstate]
          simp
  | Done =>
      have hending : s.settled = false → none = ending := by
        intro hsettled
        have hend := h.ending_of_answer hanswered (by simp) hsettled
        cases ending with
        | none => rfl
        | some reason => cases hend
      exact ⟨taken, h.finish hanswered (by simp) hending false h.given.settle (by simp) hpulls (by simp)
        (fun _ => h.prefetch hpulling) id⟩
  | Value value =>
      have hsettled : s.settled = false := by
        rw [← Bool.not_eq_true]
        exact fun hsettled => h.not_value hsettled hanswered
      have hgiven := h.given
      rw [hsettled] at hgiven
      obtain ⟨clientOpen, client, hoffer, hgiven, hstate⟩ := hgiven.offer value
      obtain ⟨hlocked, horderly, hsettlements⟩ := h.reading hsettled
      have hrecorded := h.recorded.record value
      have hprogress := h.progress
      rw [Reader.values_take hanswered, ← List.singleton_append, ← List.append_assoc] at hprogress
      have heq : ({ s with reader := { s.reader with answered := answered } } : CaptureState E).pullRead released
            maxResultBytes (.Value value)
          = { s.record maxResultBytes value with
              reader := { s.reader with answered := answered }
              pulling := false
              clientOpen := clientOpen
              client := client } := by
        have hoffered := hoffer { s with pulling := false, reader := { s.reader with answered := answered } } rfl rfl
        rw [CaptureState.pullRead]
        dsimp only
        rw [hoffered, CaptureState.record, CaptureState.record]
        split_ifs <;> rfl
      refine ⟨taken ++ [value], ?_⟩
      rw [heq]
      exact {
        progress := hprogress
        recorded := hrecorded
        reading := fun _ => ⟨hlocked, horderly.take hanswered, by rw [CaptureState.record_settlements]; exact hsettlements⟩
        ended := fun hs => by
          rw [CaptureState.record_settled, hsettled] at hs
          cases hs
        given := by
          rw [CaptureState.record_settled, hsettled]
          exact hgiven
        source := h.source
        prefetch := fun hpulling => by cases hpulling
        pulls := by
          have hasks := Reader.asks_take (w := .Pull) hanswered
          rw [hpulls, Nat.add_right_cancel_iff] at hasks
          exact hasks.symm
        late := fun _ hpulling => by cases hpulling
        flushed := fun hs => by
          rw [CaptureState.record_settled, hsettled] at hs
          cases hs
        alone := fun hne hasked => h.alone (by rwa [← hstate]) (hasked.of_take hanswered)
        drained := fun hcancelled _ => (h.drained (by rwa [← hstate]) hsettled).take hanswered (by simp)
        pulled := fun hpulling => by cases hpulling }

/-- **The next part of the drain.** -/
lemma Captured.drainRead (h : Captured maxResultBytes chunks ending taken s) {result : ReadResult Chunk E}
    {answered : List (Consumer × ReadResult Chunk E)} (hanswered : s.reader.answered = (.Drain, result) :: answered) :
    ∃ taken', Captured maxResultBytes chunks ending taken'
      (({ s with reader := { s.reader with answered := answered } } : CaptureState E).drainRead released
        maxResultBytes result) := by
  cases result with
  | Failed error =>
      refine ⟨taken, ?_⟩
      rw [CaptureState.drainRead]
      refine h.finish hanswered (by simp) (fun hsettled => ?_) s.pulling h.given.settle h.prefetch
        h.pulls (fun _ => h.cancelled_of_answer hanswered) (fun hopen => absurd hopen (h.shut_of_answer hanswered)) id
      have hend := h.ending_of_answer hanswered (by simp) hsettled
      cases ending with
      | none => cases hend
      | some reason => exact congrArg some (ReadResult.Failed.inj hend)
  | Done =>
      refine ⟨taken, ?_⟩
      rw [CaptureState.drainRead]
      refine h.finish hanswered (by simp) (fun hsettled => ?_) s.pulling h.given.settle h.prefetch
        h.pulls (fun _ => h.cancelled_of_answer hanswered) (fun hopen => absurd hopen (h.shut_of_answer hanswered)) id
      have hend := h.ending_of_answer hanswered (by simp) hsettled
      cases ending with
      | none => rfl
      | some reason => cases hend
  | Value value =>
      have hsettled : s.settled = false := by
        rw [← Bool.not_eq_true]
        exact fun hsettled => h.not_value hsettled hanswered
      have hcancelled := h.cancelled_of_answer hanswered
      obtain ⟨hlocked, horderly, hsettlements⟩ := h.reading hsettled
      have hrecorded := h.recorded.record value
      have hprogress := h.progress
      rw [Reader.values_take hanswered, ← List.singleton_append, ← List.append_assoc] at hprogress
      have hgiven : Given (taken ++ [value]) false s.clientOpen s.client := by
        have hgiven := h.given
        have hopen : s.clientOpen = false := by
          rw [← Bool.not_eq_true]
          exact h.shut_of_answer hanswered
        rw [hsettled, hopen] at hgiven
        rw [hopen]
        exact hgiven.skip value
      have heq : ({ s with reader := { s.reader with answered := answered } } : CaptureState E).drainRead released
            maxResultBytes (.Value value)
          = { s.record maxResultBytes value with
              reader := ({ s.reader with answered := answered } : Reader Consumer Chunk E).read released .Drain
              pulling := s.pulling
              clientOpen := s.clientOpen
              client := s.client } := by
        rw [CaptureState.drainRead, CaptureState.record, CaptureState.record]
        split_ifs <;> rfl
      refine ⟨taken ++ [value], ?_⟩
      rw [heq]
      exact {
        progress := by rw [Reader.values_read]; exact hprogress
        recorded := hrecorded
        reading := fun _ => ⟨by rw [Reader.locked_read]; exact hlocked,
          (horderly.take hanswered).read released hlocked .Drain,
          by rw [CaptureState.record_settlements]; exact hsettlements⟩
        ended := fun hs => by
          rw [CaptureState.record_settled, hsettled] at hs
          cases hs
        given := by
          rw [CaptureState.record_settled, hsettled]
          exact hgiven
        source := by rw [Reader.source_read]; exact h.source
        prefetch := h.prefetch
        pulls := by
          rw [Reader.asks_read, ← h.pulls, Reader.asks_take (w := .Pull) hanswered]
        late := fun _ _ => hcancelled
        flushed := fun _ hopen => absurd hopen (h.shut_of_answer hanswered)
        alone := fun hne => absurd hcancelled hne
        drained := fun _ _ => Reader.asked_read released _ Consumer.Drain
        pulled := fun hpulling _ => ((h.pulled hpulling hsettled).take hanswered (by simp)).read released .Drain }

/-- **Every step keeps what holds of a capture.** -/
lemma Captured.step (h : Captured maxResultBytes chunks ending taken s)
    (hstep : CaptureStep released maxResultBytes s s') :
    ∃ taken', Captured maxResultBytes chunks ending taken' s' := by
  cases hstep with
  | pull hidle hstate hopen hqueue => exact ⟨taken, h.pull hidle hqueue⟩
  | deliver hreader => exact ⟨taken, h.deliver hreader⟩
  | pullRead hanswered => exact h.pullRead hanswered
  | drainRead hanswered => exact h.drainRead hanswered
  | clientRead hclient => exact ⟨taken, h.clientRead hclient⟩
  | cancel hcancel => exact ⟨taken, h.cancel hcancel⟩

/-! ## Progress -/

def isCancelled : StreamState E → Bool
  | .Cancelled => true
  | _ => false

/-- A chunk that is answered is still to be handled, and may then be queued and pulled after. -/
def answerWeight (answer : Consumer × ReadResult Chunk E) : ℕ := if answer.2.value?.isSome then 4 else 1

/-- The chunks a source has, and its end. -/
def sourceWeight : Source Chunk E → ℕ
  | .Open rest _ => 5 * rest.length + 1
  | _ => 0

/-- How much there is to do until a capture is settled, at most. -/
def CaptureState.remaining (s : CaptureState E) : ℕ :=
  sourceWeight s.reader.source + (s.reader.answered.map answerWeight).sum + s.reader.waiting.length
    + s.client.queue.length + if s.pulling || isCancelled s.client.state then 0 else 2

/-- A read of a reader that has its lock waits, or is answered with an end. -/
lemma Reader.read_weight (r : Reader Consumer Chunk E) (hlocked : r.locked = true) (released : E) (w : Consumer) :
    sourceWeight (r.read released w).source = sourceWeight r.source
      ∧ ((r.read released w).answered.map answerWeight).sum + (r.read released w).waiting.length
        = (r.answered.map answerWeight).sum + r.waiting.length + 1 := by
  refine ⟨by rw [Reader.source_read], ?_⟩
  rw [Reader.read, if_pos hlocked]
  split <;> simp [answerWeight, ReadResult.value?] <;> omega

/-- A step of the source is progress. -/
lemma Reader.deliver_weight {r r' : Reader Consumer Chunk E} (hr : r.deliver = some r') :
    sourceWeight r'.source + (r'.answered.map answerWeight).sum + r'.waiting.length
      < sourceWeight r.source + (r.answered.map answerWeight).sum + r.waiting.length := by
  have hends : ∀ (result : ReadResult Chunk E), result.value? = none → ∀ waiting : List Consumer,
      ((waiting.map fun w => (w, result)).map answerWeight).sum = waiting.length := by
    intro result hresult waiting
    induction waiting with
    | nil => rfl
    | cons w waiting ih =>
        rw [List.map_cons, List.map_cons, List.sum_cons, ih, List.length_cons, answerWeight, hresult]
        simp [Nat.add_comm]
  unfold Reader.deliver at hr
  split at hr
  · next hsource hwaiting =>
      rw [← Option.some.inj hr, hsource, hwaiting]
      simp [sourceWeight, answerWeight, ReadResult.value?]
      omega
  · next hsource =>
      rw [← Option.some.inj hr, hsource]
      dsimp only
      rw [List.map_append, List.sum_append, hends _ rfl]
      simp [sourceWeight]
  · next hsource =>
      rw [← Option.some.inj hr, hsource]
      dsimp only
      rw [List.map_append, List.sum_append, hends _ rfl]
      simp [sourceWeight]
  · cases hr

/-- An end that is handled settles a capture. -/
lemma CaptureState.finish_settled (error : Option E) : (s.finish released error).settled = true := by
  unfold finish
  split_ifs with hsettled
  · exact hsettled
  · rfl

/-- A chunk that is offered is queued at most. -/
lemma CaptureState.offer_queue (value : Chunk) :
    (s.offer value).reader = s.reader ∧ (s.offer value).pulling = s.pulling
      ∧ (s.offer value).client.queue.length ≤ s.client.queue.length + 1 := by
  rw [offer]
  split_ifs
  · cases henqueue : s.client.enqueue value with
    | none => exact ⟨rfl, rfl, Nat.le_succ _⟩
    | some client =>
        refine ⟨rfl, rfl, ?_⟩
        unfold Controller.enqueue at henqueue
        split at henqueue
        · split_ifs at henqueue
          rw [← Option.some.inj henqueue]
          simp
        · cases henqueue
  · exact ⟨rfl, rfl, Nat.le_succ _⟩

@[simp] lemma CaptureState.record_reader (value : Chunk) :
    (s.record maxResultBytes value).reader = s.reader ∧ (s.record maxResultBytes value).pulling = s.pulling
      ∧ (s.record maxResultBytes value).client = s.client := by
  rw [record]
  split_ifs <;> exact ⟨rfl, rfl, rfl⟩

/-- **A capture that is not settled makes progress**: the client asks for a chunk or reads one, or the source or
one of the consumers has its turn. -/
lemma Captured.progresses (released : E) (h : Captured maxResultBytes chunks ending taken s)
    (hsettled : s.settled = false) :
    ∃ s', CaptureStep released maxResultBytes s s' ∧ (s'.settled = true ∨ s'.remaining < s.remaining) := by
  obtain ⟨hlocked, horderly, -⟩ := h.reading hsettled
  have hasked : ∀ w, s.reader.Asked w →
      ∃ s', CaptureStep released maxResultBytes s s' ∧ (s'.settled = true ∨ s'.remaining < s.remaining) := by
    intro w hw
    rcases hw.enabled horderly with hanswered | ⟨reader, hreader⟩
    · obtain ⟨⟨consumer, result⟩, answered, heq⟩ := List.exists_cons_of_ne_nil hanswered
      have hsum : ∀ value, result = .Value value →
          (s.reader.answered.map answerWeight).sum = 4 + (answered.map answerWeight).sum := by
        rintro value rfl
        rw [heq]
        rfl
      cases consumer with
      | Pull =>
          refine ⟨_, CaptureStep.pullRead heq, ?_⟩
          cases result with
          | Failed error => exact Or.inl (CaptureState.finish_settled _)
          | Done => exact Or.inl (CaptureState.finish_settled _)
          | Value value =>
              obtain ⟨hreader, hpulling, hqueue⟩ := CaptureState.offer_queue (s := { s with
                reader := { s.reader with answered := answered }
                pulling := false }) value
              refine Or.inr ?_
              simp only [CaptureState.pullRead, CaptureState.remaining, CaptureState.record_reader, hreader,
                hsum value rfl]
              dsimp only at hqueue ⊢
              split_ifs <;> omega
      | Drain =>
          refine ⟨_, CaptureStep.drainRead heq, ?_⟩
          cases result with
          | Failed error => exact Or.inl (CaptureState.finish_settled _)
          | Done => exact Or.inl (CaptureState.finish_settled _)
          | Value value =>
              obtain ⟨hsource, hweight⟩ := Reader.read_weight
                { s.reader with answered := answered } hlocked released .Drain
              dsimp only at hsource hweight
              refine Or.inr ?_
              simp only [CaptureState.drainRead, CaptureState.remaining, CaptureState.record_reader, hsource,
                hsum value rfl]
              omega
    · refine ⟨_, CaptureStep.deliver hreader, Or.inr ?_⟩
      have hweight := Reader.deliver_weight hreader
      simp only [CaptureState.remaining]
      omega
  by_cases hcancelled : s.client.state = .Cancelled
  · exact hasked .Drain (h.drained hcancelled hsettled)
  cases hpulling : s.pulling with
  | true => exact hasked .Pull (h.pulled hpulling hsettled)
  | false =>
      have hclosed := mt h.given.closed (by simp [hsettled])
      simp only [not_or, Bool.not_eq_true, not_and, ne_eq, not_not] at hclosed
      have hstate : s.client.state = .Readable := by
        by_contra hne
        exact hcancelled (hclosed.2 hne)
      cases hqueue : s.client.queue with
      | nil =>
          have hpull : s.pull released = { s with pulling := true, reader := s.reader.read released .Pull } :=
            if_neg (by simp [hsettled])
          refine ⟨_, CaptureStep.pull hpulling hstate hclosed.1 hqueue, Or.inr ?_⟩
          obtain ⟨hsource, hweight⟩ := Reader.read_weight s.reader hlocked released .Pull
          rw [hpull]
          simp only [CaptureState.remaining, hsource, hpulling, hstate, isCancelled, Bool.true_or, if_true,
            Bool.or_self, Bool.false_eq_true, if_false]
          omega
      | cons chunk queue =>
          have hread : s.client.clientRead = some { s.client with
              queue := queue
              received := s.client.received ++ [chunk]
              state := if s.client.closeRequested && queue.isEmpty then .Closed else .Readable } := by
            rw [Controller.clientRead, hstate, hqueue]
          refine ⟨_, CaptureStep.clientRead hread, Or.inr ?_⟩
          simp [CaptureState.remaining, hclosed.1, hstate, hqueue, isCancelled]

/-- **A capture that is not settled can be**, in some number of steps. -/
lemma Captured.settles (released : E) (h : Captured maxResultBytes chunks ending taken s) :
    ∃ s', Relation.ReflTransGen (CaptureStep released maxResultBytes) s s' ∧ s'.settled = true := by
  -- by what remains to be done
  induction hremaining : s.remaining using Nat.strongRecOn generalizing s taken with
  | ind n ih =>
      cases hsettled : s.settled with
      | true => exact ⟨s, .refl, hsettled⟩
      | false =>
          obtain ⟨s', hstep, hover | hless⟩ := h.progresses released hsettled
          · exact ⟨s', .single hstep, hover⟩
          · obtain ⟨taken', h'⟩ := h.step hstep
            obtain ⟨s'', hsteps, hover⟩ := ih _ (hremaining ▸ hless) h' rfl
            exact ⟨s'', .head hstep hsteps, hover⟩

/-! ## What a step leaves alone -/

@[simp] lemma CaptureState.record_client (value : Chunk) : (s.record maxResultBytes value).client = s.client := by
  rw [record]
  split_ifs <;> rfl

@[simp] lemma CaptureState.finish_client (error : Option E) : (s.finish released error).client = s.client := by
  unfold finish
  split_ifs <;> rfl

lemma CaptureState.offer_closeRequested (value : Chunk) :
    (s.offer value).client.closeRequested = s.client.closeRequested := by
  rw [offer]
  split_ifs with hopen
  · cases henqueue : s.client.enqueue value with
    | none => rfl
    | some client =>
        unfold Controller.enqueue at henqueue
        split at henqueue
        · split_ifs at henqueue
          rw [← Option.some.inj henqueue]
        · cases henqueue
  · rfl

/-- Only `close` asks the client stream to close. -/
lemma CaptureStep.closeRequested (hstep : CaptureStep released maxResultBytes s s') :
    s'.client.closeRequested = s.client.closeRequested := by
  cases hstep with
  | pull hidle hstate hopen hqueue =>
      rw [CaptureState.pull]
      split_ifs <;> rfl
  | deliver hreader => rfl
  | @pullRead result answered hanswered =>
      cases result with
      | Failed error =>
          simp only [CaptureState.pullRead, CaptureState.finish_client]
          split_ifs
          · rw [Controller.error]
            split <;> rfl
          · rfl
      | Done => simp only [CaptureState.pullRead, CaptureState.finish_client]
      | Value value => simp only [CaptureState.pullRead, CaptureState.record_client, CaptureState.offer_closeRequested]
  | @drainRead result answered hanswered => cases result <;> simp [CaptureState.drainRead]
  | @clientRead client hclient =>
      unfold Controller.clientRead at hclient
      split at hclient
      · rw [← Option.some.inj hclient]
      · cases hclient
  | cancel hcancel =>
      obtain ⟨client, hclient, rfl⟩ := Option.map_eq_some_iff.mp hcancel
      unfold Controller.clientCancel at hclient
      split at hclient
      · rw [← Option.some.inj hclient]
      · cases hclient

lemma CaptureState.offer_state (value : Chunk) : (s.offer value).client.state = s.client.state
    ∧ (s.offer value).client.received = s.client.received := by
  rw [offer]
  split_ifs with hopen
  · cases henqueue : s.client.enqueue value with
    | none => exact ⟨rfl, rfl⟩
    | some client =>
        unfold Controller.enqueue at henqueue
        split at henqueue
        · split_ifs at henqueue
          rw [← Option.some.inj henqueue]
          exact ⟨rfl, rfl⟩
        · cases henqueue
  · exact ⟨rfl, rfl⟩

/-- **An error of the source** is seen after all the chunks: a pull that waits has an empty queue behind it. -/
lemma CaptureStep.errored (h : Captured maxResultBytes chunks ending taken s)
    (hstep : CaptureStep released maxResultBytes s s') {reason : E} (herror : s'.client.state = .Errored reason) :
    (s.client.state = .Errored reason ∧ s'.client.received = s.client.received)
      ∨ ending = some reason ∧ s'.client.received = chunks := by
  cases hstep with
  | pull hidle hstate hopen hqueue =>
      refine Or.inl ?_
      rw [CaptureState.pull] at herror ⊢
      split_ifs at herror ⊢ <;> exact ⟨herror, rfl⟩
  | deliver hreader => exact Or.inl ⟨herror, rfl⟩
  | @pullRead result answered hanswered =>
      cases result with
      | Failed error =>
          simp only [CaptureState.pullRead, CaptureState.finish_client] at herror ⊢
          split_ifs at herror ⊢ with hopen
          · obtain ⟨hstate, -⟩ := h.given.open_iff.mp hopen
            obtain ⟨hpulling, -⟩ := h.pulling_of_answer hanswered
            have hunsettled : s.settled = false := by
              by_contra hne
              have hcancelled := h.late (by simpa using hne) hpulling
              rw [hstate] at hcancelled
              cases hcancelled
            have hend := h.ending_of_answer hanswered (by simp) hunsettled
            obtain ⟨-, horderly, -⟩ := h.reading hunsettled
            have hvalues : s.reader.values = [] := by
              rcases horderly.head hanswered with ⟨value, hvalue⟩ | ⟨-, hvalues, -⟩
              · cases hvalue
              · exact hvalues
            have hprogress := h.progress
            have hreceived := h.given.complete (Or.inl hstate)
            rw [hvalues, List.append_nil] at hprogress
            rw [h.prefetch hpulling, List.append_nil, hprogress] at hreceived
            rw [Controller.error, hstate] at herror ⊢
            refine Or.inr ⟨?_, hreceived⟩
            cases ending with
            | none => cases hend
            | some reason' =>
                rw [← ReadResult.Failed.inj hend]
                exact congrArg some (StreamState.Errored.inj herror)
          · exact Or.inl ⟨herror, rfl⟩
      | Done =>
          simp only [CaptureState.pullRead, CaptureState.finish_client] at herror ⊢
          exact Or.inl ⟨herror, trivial⟩
      | Value value =>
          simp only [CaptureState.pullRead, CaptureState.record_client, CaptureState.offer_state] at herror ⊢
          exact Or.inl ⟨herror, trivial⟩
  | @drainRead result answered hanswered =>
      refine Or.inl ?_
      cases result <;> simp only [CaptureState.drainRead, CaptureState.finish_client, CaptureState.record_client] at herror ⊢
      all_goals exact ⟨herror, trivial⟩
  | @clientRead client hclient =>
      unfold Controller.clientRead at hclient
      split at hclient
      · rw [← Option.some.inj hclient] at herror
        dsimp only at herror
        split_ifs at herror
      · cases hclient
  | cancel hcancel =>
      obtain ⟨client, hclient, rfl⟩ := Option.map_eq_some_iff.mp hcancel
      obtain ⟨-, hcancelled⟩ := h.given.cancel hclient
      dsimp only at herror
      rw [hcancelled] at herror
      cases herror

/-- A client stream that was closed, failed or cancelled is not written again. -/
lemma CaptureStep.clientOpen (hstep : CaptureStep released maxResultBytes s s') (hopen : s.clientOpen = false) :
    s'.clientOpen = false := by
  have hfinish : ∀ (t : CaptureState E) (error : Option E), (t.finish released error).clientOpen = t.clientOpen := by
    intro t error
    unfold CaptureState.finish
    split_ifs <;> rfl
  have hrecord : ∀ (t : CaptureState E) (value : Chunk), (t.record maxResultBytes value).clientOpen = t.clientOpen := by
    intro t value
    rw [CaptureState.record]
    split_ifs <;> rfl
  cases hstep with
  | pull hidle hstate hrequested hqueue =>
      rw [CaptureState.pull]
      split_ifs <;> exact hopen
  | deliver hreader => exact hopen
  | @pullRead result answered hanswered =>
      cases result with
      | Failed error =>
          rw [CaptureState.pullRead, hfinish]
          split_ifs
          · rfl
          · exact hopen
      | Done => exact (hfinish _ _).trans hopen
      | Value value =>
          rw [CaptureState.pullRead, hrecord, CaptureState.offer, if_neg (by simp [hopen])]
          exact hopen
  | @drainRead result answered hanswered =>
      cases result with
      | Failed error => exact (hfinish _ _).trans hopen
      | Done => exact (hfinish _ _).trans hopen
      | Value value => exact (hrecord _ value).trans hopen
  | clientRead hclient => exact hopen
  | cancel hcancel =>
      obtain ⟨client, -, rfl⟩ := Option.map_eq_some_iff.mp hcancel
      rfl

lemma CaptureState.offer_settled (value : Chunk) :
    (s.offer value).settled = s.settled ∧ (s.offer value).settlements = s.settlements := by
  rw [offer]
  split_ifs
  · split <;> exact ⟨rfl, rfl⟩
  · exact ⟨rfl, rfl⟩

/-- **What is settled stays settled.** -/
lemma CaptureStep.settled (hstep : CaptureStep released maxResultBytes s s') (hsettled : s.settled = true) :
    s'.settled = true ∧ s'.settlements = s.settlements := by
  have hfinish : ∀ (t : CaptureState E) (error : Option E), t.settled = true → t.settlements = s.settlements →
      (t.finish released error).settled = true ∧ (t.finish released error).settlements = s.settlements := by
    intro t error ht hsettlements
    rw [show t.finish released error = t from if_pos ht]
    exact ⟨ht, hsettlements⟩
  cases hstep with
  | pull hidle hstate hopen hqueue =>
      rw [CaptureState.pull, if_pos hsettled]
      exact ⟨hsettled, rfl⟩
  | deliver hreader => exact ⟨hsettled, rfl⟩
  | @pullRead result answered hanswered =>
      cases result with
      | Failed error =>
          rw [CaptureState.pullRead]
          refine hfinish _ _ ?_ ?_
          · split_ifs <;> exact hsettled
          · split_ifs <;> rfl
      | Done => exact hfinish _ _ hsettled rfl
      | Value value =>
          simp only [CaptureState.pullRead, CaptureState.record_settled, CaptureState.record_settlements,
            CaptureState.offer_settled]
          exact ⟨hsettled, trivial⟩
  | @drainRead result answered hanswered =>
      cases result with
      | Failed error => exact hfinish _ (some error) hsettled rfl
      | Done => exact hfinish _ none hsettled rfl
      | Value value =>
          simp only [CaptureState.drainRead, CaptureState.record_settled, CaptureState.record_settlements]
          exact ⟨hsettled, trivial⟩
  | clientRead hclient => exact ⟨hsettled, rfl⟩
  | cancel hcancel =>
      obtain ⟨client, -, rfl⟩ := Option.map_eq_some_iff.mp hcancel
      exact ⟨hsettled, rfl⟩

/-! ## The end -/

/-- **A settled capture is closed** without an error. -/
lemma Captured.close (h : Captured maxResultBytes chunks ending taken s) (hsettled : s.settled = true) :
    ∃ s', s.close = some s' ∧ Captured maxResultBytes chunks ending taken s' ∧ s'.settled = true
      ∧ s'.settlements = s.settlements := by
  have hgiven := h.given
  rw [CaptureState.close]
  cases hopen : s.clientOpen with
  | false => exact ⟨s, rfl, h, hsettled, rfl⟩
  | true =>
      rw [hsettled, hopen] at hgiven
      obtain ⟨client, hclient, hgiven'⟩ := hgiven.close
      refine ⟨{ s with clientOpen := false, client := client }, by rw [if_pos rfl, hclient]; rfl, ?_, hsettled, rfl⟩
      obtain ⟨hstate, -⟩ := hgiven.open_iff.mp rfl
      exact {
        progress := h.progress
        recorded := h.recorded
        reading := h.reading
        ended := h.ended
        given := by
          show Given taken s.settled false client
          rw [hsettled]
          exact hgiven'
        source := h.source
        prefetch := fun hpulling => by
          rw [Controller.close, hstate] at hclient
          dsimp only at hclient
          split_ifs at hclient <;> (rw [← Option.some.inj hclient]; exact h.prefetch hpulling)
        pulls := h.pulls
        late := fun _ hpulling => by
          have hcancelled := h.late hsettled hpulling
          rw [hstate] at hcancelled
          cases hcancelled
        flushed := fun _ hopen => by cases hopen
        alone := fun _ => h.alone (by rw [hstate]; simp)
        drained := fun _ hs => by
          rw [hsettled] at hs
          cases hs
        pulled := h.pulled }

/-- A stream that was closed is not written again. -/
lemma CaptureState.close_clientOpen (hclose : s.close = some s') : s'.clientOpen = false := by
  rw [CaptureState.close] at hclose
  split_ifs at hclose with hopen
  · obtain ⟨client, -, rfl⟩ := Option.map_eq_some_iff.mp hclose
    rfl
  · obtain rfl := Option.some.inj hclose
    simpa using hopen

/-- The stream of a settled capture fails; what is stored stays. -/
lemma Captured.fail (h : Captured maxResultBytes chunks ending taken s) (hsettled : s.settled = true) (released reason : E) :
    Captured maxResultBytes chunks ending taken (s.fail released reason) ∧ (s.fail released reason).settled = true
      ∧ (s.fail released reason).settlements = s.settlements
      ∧ (s.fail released reason).client.closeRequested = s.client.closeRequested := by
  have hgiven := h.given
  cases hopen : s.clientOpen with
  | false =>
      have hfail : s.fail released reason = s := by
        rw [CaptureState.fail, if_neg (by simp [hopen])]
      rw [hfail]
      exact ⟨h, hsettled, rfl, rfl⟩
  | true =>
      rw [hsettled, hopen] at hgiven
      have hfail : s.fail released reason = { s with clientOpen := false, client := s.client.error reason } := by
        rw [CaptureState.fail, if_pos hopen]
        exact if_pos hsettled
      obtain ⟨hstate, -⟩ := hgiven.open_iff.mp rfl
      rw [hfail]
      refine ⟨?_, hsettled, rfl, by rw [Controller.error, hstate]⟩
      exact {
        progress := h.progress
        recorded := h.recorded
        reading := h.reading
        ended := h.ended
        given := by
          show Given taken s.settled false (s.client.error reason)
          rw [hsettled]
          exact hgiven.error reason
        source := h.source
        prefetch := fun _ => by rw [Controller.error, hstate]
        pulls := h.pulls
        late := fun _ hpulling => by
          have hcancelled := h.late hsettled hpulling
          rw [hstate] at hcancelled
          cases hcancelled
        flushed := fun _ hopen => by cases hopen
        alone := fun _ => h.alone (by rw [hstate]; simp)
        drained := fun _ hs => by
          rw [hsettled] at hs
          cases hs
        pulled := h.pulled }

/-- A close is no error. -/
lemma CaptureState.close_errored (hclose : s.close = some s') {reason : E} (herror : s'.client.state = .Errored reason) :
    s.client.state = .Errored reason ∧ s'.client.received = s.client.received := by
  rw [CaptureState.close] at hclose
  split_ifs at hclose with hopen
  · obtain ⟨client, hclient, rfl⟩ := Option.map_eq_some_iff.mp hclose
    unfold Controller.close at hclient
    split at hclient
    · split_ifs at hclient
      all_goals
        rw [← Option.some.inj hclient] at herror
        cases herror
    · cases hclient
  · obtain rfl := Option.some.inj hclose
    exact ⟨herror, rfl⟩

/-- **A failure reaches the client** after all the chunks, unless its stream is over. -/
lemma Captured.fail_errored (h : Captured maxResultBytes chunks ending taken s) (hsettled : s.settled = true)
    (released reason : E) :
    (s.fail released reason).clientOpen = false
      ∧ ∀ reason', (s.fail released reason).client.state = .Errored reason' →
        (s.client.state = .Errored reason' ∧ (s.fail released reason).client.received = s.client.received)
          ∨ reason' = reason ∧ (s.fail released reason).client.received = taken := by
  cases hopen : s.clientOpen with
  | false =>
      have hfail : s.fail released reason = s := by rw [CaptureState.fail, if_neg (by simp [hopen])]
      rw [hfail]
      exact ⟨hopen, fun reason' herror => Or.inl ⟨herror, rfl⟩⟩
  | true =>
      have hfail : s.fail released reason = { s with clientOpen := false, client := s.client.error reason } := by
        rw [CaptureState.fail, if_pos hopen]
        exact if_pos hsettled
      obtain ⟨hstate, -⟩ := h.given.open_iff.mp hopen
      have hreceived := h.given.complete (Or.inl hstate)
      rw [h.flushed hsettled hopen, List.append_nil] at hreceived
      rw [hfail]
      refine ⟨rfl, fun reason' herror => ?_⟩
      rw [Controller.error, hstate] at herror ⊢
      exact Or.inr ⟨(StreamState.Errored.inj herror).symm, hreceived⟩

/-- What is to be stored is known when the capture is settled, and not before. -/
lemma Captured.settlement_of_head (h : Captured maxResultBytes chunks ending taken s) {stored : Except E Chunk}
    (hstored : s.settlements.head? = some stored) :
    s.settled = true ∧ s.settlements = [stored] ∧ stored = s.settlement ending := by
  cases hsettled : s.settled with
  | false =>
      rw [(h.reading hsettled).2.2] at hstored
      cases hstored
  | true =>
      have hsettlements := (h.ended hsettled).2.2
      rw [hsettlements] at hstored
      obtain rfl := Option.some.inj hstored
      exact ⟨rfl, hsettlements, rfl⟩

/-- All the chunks have been handled when the capture is settled. -/
lemma Captured.taken_eq (h : Captured maxResultBytes chunks ending taken s) (hsettled : s.settled = true) :
    taken = chunks := by
  have hprogress := h.progress
  rwa [(h.ended hsettled).1, List.append_nil] at hprogress

end

end Anyonce
