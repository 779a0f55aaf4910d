import Mathlib.Data.List.Basic

/-!
# A stream and its reader

The two ends of a stream, as the Streams standard has them.

**A reader** of a source.  Read requests wait in line; a chunk answers the first of them and the end of the
source answers them all.  What is answered is handled in the order of the answers.  A reader that is released
answers with an error.  Whoever reads, the chunks are handled once each and in order (`Reader.values`), and an
end is handled after the last chunk (`Orderly.head`).

**A controller** of a stream that a client reads.  Chunks are queued; after `close` the client reads what is
queued and then sees the end.
-/

namespace Streams

variable {W α E : Type}

/-! ## Readers -/

/-- What a read is answered with. -/
inductive ReadResult (α E : Type)
  | Value (chunk : α)
  | Done
  | Failed (reason : E)

/-- A source: the chunks it still has and how it ends, closed or errored. -/
inductive Source (α E : Type)
  | Open (rest : List α) (ending : Option E)
  | Closed
  | Errored (reason : E)

/-- A reader of a stream: the source it locks, the reads that wait, and those that were answered. -/
structure Reader (W α E : Type) where
  source : Source α E
  locked : Bool := true
  waiting : List W := []
  answered : List (W × ReadResult α E) := []

def ReadResult.value? : ReadResult α E → Option α
  | .Value chunk => some chunk
  | _ => none

/-- The chunks a source still has. -/
def Source.rest : Source α E → List α
  | .Open rest _ => rest
  | _ => []

/-- How a source ends. -/
def Source.ending : Source α E → Option E
  | .Open _ ending => ending
  | .Closed => none
  | .Errored reason => some reason

/-- What a source answers at its end. -/
def endResult : Option E → ReadResult α E
  | none => .Done
  | some reason => .Failed reason

namespace Reader

/-- A read request of `w`. -/
def read (released : E) (w : W) (r : Reader W α E) : Reader W α E :=
  if r.locked then
    match r.source with
    | .Open _ _ => { r with waiting := r.waiting ++ [w] }
    | .Closed => { r with answered := r.answered ++ [(w, .Done)] }
    | .Errored reason => { r with answered := r.answered ++ [(w, .Failed reason)] }
  else { r with answered := r.answered ++ [(w, .Failed released)] }

/-- A step of the source: a chunk for the first in line, or the end for all of them. -/
def deliver (r : Reader W α E) : Option (Reader W α E) :=
  match r.source, r.waiting with
  | .Open (chunk :: rest) ending, w :: waiting =>
      some { r with
        source := .Open rest ending
        waiting := waiting
        answered := r.answered ++ [(w, .Value chunk)] }
  | .Open [] none, waiting =>
      some { r with
        source := .Closed
        waiting := []
        answered := r.answered ++ waiting.map fun w => (w, .Done) }
  | .Open [] (some reason), waiting =>
      some { r with
        source := .Errored reason
        waiting := []
        answered := r.answered ++ waiting.map fun w => (w, .Failed reason) }
  | _, _ => none

/-- The lock is given up. -/
def release (released : E) (r : Reader W α E) : Reader W α E :=
  { r with
    locked := false
    waiting := []
    answered := r.answered ++ r.waiting.map fun w => (w, .Failed released) }

/-- The reader cancels its source. -/
def cancel (r : Reader W α E) : Reader W α E :=
  match r.source with
  | .Open _ _ =>
      { r with
        source := .Closed
        waiting := []
        answered := r.answered ++ r.waiting.map fun w => (w, .Done) }
  | _ => r

/-- The chunks that are still to be handled, in order. -/
def values (r : Reader W α E) : List α := r.answered.filterMap (fun a => a.2.value?) ++ r.source.rest

end Reader

/-- **A reader that has its lock**: chunks are answered before the end, and the end is that of the source. -/
structure Orderly (ending : Option E) (r : Reader W α E) : Prop where
  ending_eq : r.source.ending = ending
  answered_eq : ∃ (chunks : List (W × α)) (ends : List W),
    r.answered = chunks.map (fun a => (a.1, .Value a.2)) ++ ends.map (fun w => (w, endResult ending))
      ∧ (∀ rest ending', r.source = .Open rest ending' → ends = [])
  waiting_open : r.waiting ≠ [] → ∃ rest ending', r.source = .Open rest ending'

section

variable {ending : Option E} {r r' : Reader W α E} {w : W}

lemma orderly_start (chunks : List α) (ending : Option E) :
    Orderly ending ({ source := .Open chunks ending } : Reader W α E) :=
  ⟨rfl, ⟨[], [], rfl, fun _ _ _ => rfl⟩, fun h => absurd rfl h⟩

lemma value?_endResult (ending : Option E) : (endResult ending : ReadResult α E).value? = none := by
  cases ending <;> rfl

/-- The first answer is a chunk, or the end, after which there are no chunks. -/
lemma Orderly.head (h : Orderly ending r) {res : ReadResult α E} {answered : List (W × ReadResult α E)}
    (hr : r.answered = (w, res) :: answered) :
    (∃ chunk, res = .Value chunk)
      ∨ res = endResult ending ∧ r.values = [] ∧ ∀ rest ending', r.source ≠ .Open rest ending' := by
  obtain ⟨chunks, ends, heq, hopen⟩ := h.answered_eq
  rw [hr] at heq
  cases chunks with
  | cons a chunks =>
      obtain ⟨ha, -⟩ := List.cons.inj heq
      exact Or.inl ⟨a.2, congrArg Prod.snd ha⟩
  | nil =>
      cases ends with
      | nil => cases heq
      | cons w' ends =>
          have hover : ∀ rest ending', r.source ≠ .Open rest ending' := by
            intro rest ending' hsource
            cases hopen rest ending' hsource
          refine Or.inr ⟨congrArg Prod.snd (List.cons.inj heq).1, ?_, hover⟩
          have hrest : r.source.rest = [] := by
            cases hsource : r.source with
            | Open rest ending' => exact absurd hsource (hover rest ending')
            | Closed => rfl
            | Errored reason => rfl
          rw [Reader.values, hr, heq, hrest, List.append_nil, List.filterMap_eq_nil_iff]
          intro a ha
          rw [List.map_nil, List.nil_append] at ha
          obtain ⟨w'', -, rfl⟩ := List.mem_map.mp ha
          exact value?_endResult ending

/-- The first answer is handled. -/
lemma Orderly.take (h : Orderly ending r) {a : W × ReadResult α E} {answered : List (W × ReadResult α E)}
    (hr : r.answered = a :: answered) : Orderly ending { r with answered := answered } := by
  obtain ⟨chunks, ends, heq, hopen⟩ := h.answered_eq
  refine ⟨h.ending_eq, ?_, h.waiting_open⟩
  rw [hr] at heq
  cases chunks with
  | cons c chunks => exact ⟨chunks, ends, (List.cons.inj heq).2, hopen⟩
  | nil =>
      cases ends with
      | nil => cases heq
      | cons w ends =>
          refine ⟨[], ends, (List.cons.inj heq).2, fun rest ending' hsource => ?_⟩
          cases hopen rest ending' hsource

lemma Orderly.read (h : Orderly ending r) (released : E) (hlocked : r.locked = true) (w : W) :
    Orderly ending (r.read released w) := by
  obtain ⟨chunks, ends, heq, hopen⟩ := h.answered_eq
  have hending := h.ending_eq
  rw [Reader.read, if_pos hlocked]
  split
  · next rest ending' hsource =>
      exact ⟨hending, ⟨chunks, ends, heq, hopen⟩, fun _ => ⟨rest, ending', hsource⟩⟩
  · next hsource =>
      rw [hsource] at hending
      refine ⟨by rw [hsource]; exact hending, ⟨chunks, ends ++ [w], ?_, ?_⟩, h.waiting_open⟩
      · simp [heq, ← hending, Source.ending, endResult]
      · intro rest ending' h'
        rw [hsource] at h'
        cases h'
  · next reason hsource =>
      rw [hsource] at hending
      refine ⟨by rw [hsource]; exact hending, ⟨chunks, ends ++ [w], ?_, ?_⟩, h.waiting_open⟩
      · simp [heq, ← hending, Source.ending, endResult]
      · intro rest ending' h'
        rw [hsource] at h'
        cases h'

lemma Orderly.deliver (h : Orderly ending r) (hr : r.deliver = some r') : Orderly ending r' := by
  obtain ⟨chunks, ends, heq, hopen⟩ := h.answered_eq
  have hending := h.ending_eq
  unfold Reader.deliver at hr
  split at hr
  · next chunk rest ending' w waiting hsource hwaiting =>
      obtain rfl := Option.some.inj hr
      rw [hsource] at hending
      obtain rfl := hopen _ _ hsource
      exact ⟨hending, ⟨chunks ++ [(w, chunk)], [], by simp [heq], fun _ _ _ => rfl⟩, fun _ => ⟨rest, ending', rfl⟩⟩
  · next waiting hsource =>
      obtain rfl := Option.some.inj hr
      rw [hsource] at hending
      refine ⟨hending, ⟨chunks, ends ++ r.waiting, ?_, by simp⟩, fun h => absurd rfl h⟩
      simp [heq, ← hending, Source.ending, endResult]
  · next reason waiting hsource =>
      obtain rfl := Option.some.inj hr
      rw [hsource] at hending
      refine ⟨hending, ⟨chunks, ends ++ r.waiting, ?_, by simp⟩, fun h => absurd rfl h⟩
      simp [heq, ← hending, Source.ending, endResult]
  · cases hr

lemma Reader.locked_read (released : E) (w : W) (r : Reader W α E) : (r.read released w).locked = r.locked := by
  rw [Reader.read]
  split_ifs
  · split <;> rfl
  · rfl

lemma Reader.source_read (released : E) (w : W) (r : Reader W α E) : (r.read released w).source = r.source := by
  rw [Reader.read]
  split_ifs
  · split <;> rfl
  · rfl

lemma Reader.locked_deliver (hr : r.deliver = some r') : r'.locked = r.locked := by
  unfold Reader.deliver at hr
  split at hr
  · rw [← Option.some.inj hr]
  · rw [← Option.some.inj hr]
  · rw [← Option.some.inj hr]
  · cases hr

/-- A source ends as it was going to. -/
lemma Reader.ending_deliver (hr : r.deliver = some r') : r'.source.ending = r.source.ending := by
  unfold Reader.deliver at hr
  split at hr
  · next hsource _ => rw [← Option.some.inj hr, hsource]; rfl
  · next hsource => rw [← Option.some.inj hr, hsource]; rfl
  · next hsource => rw [← Option.some.inj hr, hsource]; rfl
  · cases hr

/-- Asking for a chunk does not change what is to come. -/
lemma Reader.values_read (released : E) (w : W) (r : Reader W α E) : (r.read released w).values = r.values := by
  rw [Reader.read]
  split_ifs
  · split <;> simp [Reader.values, ReadResult.value?]
  · simp [Reader.values, ReadResult.value?]

/-- A chunk that is delivered keeps its place. -/
lemma Reader.values_deliver (hr : r.deliver = some r') : r'.values = r.values := by
  unfold Reader.deliver at hr
  split at hr
  · next hsource _ =>
      rw [← Option.some.inj hr, Reader.values, Reader.values, hsource]
      simp [ReadResult.value?, Source.rest]
  · next hsource =>
      rw [← Option.some.inj hr, Reader.values, Reader.values, hsource]
      simp [ReadResult.value?, Source.rest]
  · next hsource =>
      rw [← Option.some.inj hr, Reader.values, Reader.values, hsource]
      simp [ReadResult.value?, Source.rest]
  · cases hr

/-- The chunk that is handled is the next one. -/
lemma Reader.values_take {chunk : α} {answered : List (W × ReadResult α E)}
    (hr : r.answered = (w, .Value chunk) :: answered) :
    r.values = chunk :: ({ r with answered := answered } : Reader W α E).values := by
  simp [Reader.values, hr, ReadResult.value?]

/-- An end that is handled takes no chunk away. -/
lemma Reader.values_take_end {res : ReadResult α E} {answered : List (W × ReadResult α E)}
    (hr : r.answered = (w, res) :: answered) (hres : ∀ chunk, res ≠ .Value chunk) :
    r.values = ({ r with answered := answered } : Reader W α E).values := by
  have hnone : res.value? = none := by
    cases res with
    | Value chunk => exact absurd rfl (hres chunk)
    | Done => rfl
    | Failed reason => rfl
  simp [Reader.values, hr, hnone]

lemma Reader.values_release (released : E) (r : Reader W α E) : (r.release released).values = r.values := by
  have hnone : (r.waiting.map fun w => (w, (.Failed released : ReadResult α E))).filterMap (fun a => a.2.value?) = [] := by
    rw [List.filterMap_eq_nil_iff]
    intro a ha
    obtain ⟨w, -, rfl⟩ := List.mem_map.mp ha
    rfl
  rw [Reader.values, Reader.release, List.filterMap_append, hnone, List.append_nil, Reader.values]

/-- Requests that wait for an answer, or have one that is not handled. -/
def Reader.Asked (r : Reader W α E) (w : W) : Prop := w ∈ r.waiting ∨ ∃ res, (w, res) ∈ r.answered

/-- A request that is made waits or is answered. -/
lemma Reader.asked_read (released : E) (r : Reader W α E) (w : W) : (r.read released w).Asked w := by
  rw [Reader.read]
  split_ifs
  · split
    · exact Or.inl (List.mem_append_right _ List.mem_cons_self)
    · exact Or.inr ⟨_, List.mem_append_right _ List.mem_cons_self⟩
    · exact Or.inr ⟨_, List.mem_append_right _ List.mem_cons_self⟩
  · exact Or.inr ⟨_, List.mem_append_right _ List.mem_cons_self⟩

lemma Reader.Asked.read (h : r.Asked w) (released : E) (w' : W) : (r.read released w').Asked w := by
  rw [Reader.read]
  rcases h with hwaiting | ⟨res, hanswered⟩
  · split_ifs
    · split
      · exact Or.inl (List.mem_append_left _ hwaiting)
      · exact Or.inl hwaiting
      · exact Or.inl hwaiting
    · exact Or.inl hwaiting
  · split_ifs
    · split
      · exact Or.inr ⟨res, hanswered⟩
      · exact Or.inr ⟨res, List.mem_append_left _ hanswered⟩
      · exact Or.inr ⟨res, List.mem_append_left _ hanswered⟩
    · exact Or.inr ⟨res, List.mem_append_left _ hanswered⟩

lemma Reader.Asked.deliver (h : r.Asked w) (hr : r.deliver = some r') : r'.Asked w := by
  unfold Reader.deliver at hr
  split at hr
  · next chunk rest ending' w' waiting hsource hwaiting =>
      rw [← Option.some.inj hr]
      rcases h with hmem | ⟨res, hmem⟩
      · rw [hwaiting] at hmem
        rcases List.mem_cons.mp hmem with rfl | hmem
        · exact Or.inr ⟨_, List.mem_append_right _ List.mem_cons_self⟩
        · exact Or.inl hmem
      · exact Or.inr ⟨res, List.mem_append_left _ hmem⟩
  · rw [← Option.some.inj hr]
    rcases h with hmem | ⟨res, hmem⟩
    · exact Or.inr ⟨.Done, List.mem_append_right _ (List.mem_map.mpr ⟨w, hmem, rfl⟩)⟩
    · exact Or.inr ⟨res, List.mem_append_left _ hmem⟩
  · next reason hsource =>
      rw [← Option.some.inj hr]
      rcases h with hmem | ⟨res, hmem⟩
      · exact Or.inr ⟨.Failed reason, List.mem_append_right _ (List.mem_map.mpr ⟨w, hmem, rfl⟩)⟩
      · exact Or.inr ⟨res, List.mem_append_left _ hmem⟩
  · cases hr

lemma Reader.Asked.of_read {released : E} {w' : W} (h : (r.read released w').Asked w) (hne : w ≠ w') : r.Asked w := by
  rw [Reader.read] at h
  split_ifs at h
  · split at h
    · rcases h with hmem | hmem
      · exact Or.inl (by simpa [hne] using hmem)
      · exact Or.inr hmem
    · rcases h with hmem | ⟨res, hmem⟩
      · exact Or.inl hmem
      · exact Or.inr ⟨res, by simpa [hne] using hmem⟩
    · rcases h with hmem | ⟨res, hmem⟩
      · exact Or.inl hmem
      · exact Or.inr ⟨res, by simpa [hne] using hmem⟩
  · rcases h with hmem | ⟨res, hmem⟩
    · exact Or.inl hmem
    · exact Or.inr ⟨res, by simpa [hne] using hmem⟩

lemma Reader.Asked.of_deliver (h : r'.Asked w) (hr : r.deliver = some r') : r.Asked w := by
  unfold Reader.deliver at hr
  split at hr
  · next chunk rest ending' w' waiting hsource hwaiting =>
      rw [← Option.some.inj hr] at h
      rcases h with hmem | ⟨res, hmem⟩
      · exact Or.inl (by rw [hwaiting]; exact List.mem_cons_of_mem _ hmem)
      · rcases List.mem_append.mp hmem with hmem | hmem
        · exact Or.inr ⟨res, hmem⟩
        · obtain ⟨rfl, -⟩ := Prod.mk.inj (List.mem_singleton.mp hmem)
          exact Or.inl (by rw [hwaiting]; exact List.mem_cons_self)
  · rw [← Option.some.inj hr] at h
    rcases h with hmem | ⟨res, hmem⟩
    · cases hmem
    · rcases List.mem_append.mp hmem with hmem | hmem
      · exact Or.inr ⟨res, hmem⟩
      · obtain ⟨w', hw', heq⟩ := List.mem_map.mp hmem
        exact Or.inl ((Prod.mk.inj heq).1 ▸ hw')
  · rw [← Option.some.inj hr] at h
    rcases h with hmem | ⟨res, hmem⟩
    · cases hmem
    · rcases List.mem_append.mp hmem with hmem | hmem
      · exact Or.inr ⟨res, hmem⟩
      · obtain ⟨w', hw', heq⟩ := List.mem_map.mp hmem
        exact Or.inl ((Prod.mk.inj heq).1 ▸ hw')
  · cases hr

/-- What another request has been answered is handled. -/
lemma Reader.Asked.of_take {a : W × ReadResult α E} {answered : List (W × ReadResult α E)}
    (hr : r.answered = a :: answered) (h : ({ r with answered := answered } : Reader W α E).Asked w) : r.Asked w := by
  rcases h with hmem | ⟨res, hmem⟩
  · exact Or.inl hmem
  · exact Or.inr ⟨res, by rw [hr]; exact List.mem_cons_of_mem _ hmem⟩

lemma Reader.Asked.take {a : W × ReadResult α E} {answered : List (W × ReadResult α E)}
    (hr : r.answered = a :: answered) (h : r.Asked w) (hne : w ≠ a.1) :
    ({ r with answered := answered } : Reader W α E).Asked w := by
  rcases h with hmem | ⟨res, hmem⟩
  · exact Or.inl hmem
  · rw [hr] at hmem
    rcases List.mem_cons.mp hmem with rfl | hmem
    · exact absurd rfl hne
    · exact Or.inr ⟨res, hmem⟩

lemma Reader.Asked.of_release {released : E} (h : (r.release released).Asked w) : r.Asked w := by
  rcases h with hmem | ⟨res, hmem⟩
  · cases hmem
  · rcases List.mem_append.mp hmem with hmem | hmem
    · exact Or.inr ⟨res, hmem⟩
    · obtain ⟨w', hw', heq⟩ := List.mem_map.mp hmem
      exact Or.inl ((Prod.mk.inj heq).1 ▸ hw')

/-- How many requests of `w` wait for an answer, or have one that is not handled. -/
def Reader.asks [DecidableEq W] (r : Reader W α E) (w : W) : ℕ :=
  r.waiting.count w + (r.answered.map Prod.fst).count w

section

variable [DecidableEq W]

lemma Reader.asks_read (released : E) (w' : W) (r : Reader W α E) :
    (r.read released w').asks w = r.asks w + if w' = w then 1 else 0 := by
  have hcount : [w'].count w = if w' = w then 1 else 0 := by simp [List.count_singleton]
  rw [Reader.read]
  by_cases hlocked : r.locked = true
  · rw [if_pos hlocked]
    split
    · simp only [Reader.asks, List.count_append, hcount]
      omega
    · simp only [Reader.asks, List.map_append, List.map_cons, List.map_nil, List.count_append, hcount]
      omega
    · simp only [Reader.asks, List.map_append, List.map_cons, List.map_nil, List.count_append, hcount]
      omega
  · rw [if_neg hlocked]
    simp only [Reader.asks, List.map_append, List.map_cons, List.map_nil, List.count_append, hcount]
    omega

/-- An answer takes the place of a request. -/
lemma Reader.asks_deliver (hr : r.deliver = some r') : r'.asks w = r.asks w := by
  unfold Reader.deliver at hr
  split at hr
  · next hwaiting =>
      rw [← Option.some.inj hr]
      simp [Reader.asks, hwaiting, List.count_append, List.count_cons]
      omega
  · rw [← Option.some.inj hr]
    simp [Reader.asks, List.count_append, List.map_map, Function.comp_def]
    omega
  · rw [← Option.some.inj hr]
    simp [Reader.asks, List.count_append, List.map_map, Function.comp_def]
    omega
  · cases hr

lemma Reader.asks_take {a : W × ReadResult α E} {answered : List (W × ReadResult α E)}
    (hr : r.answered = a :: answered) :
    r.asks w = ({ r with answered := answered } : Reader W α E).asks w + if a.1 = w then 1 else 0 := by
  simp [Reader.asks, hr, List.count_cons]
  omega

lemma Reader.asks_release (released : E) : (r.release released).asks w = r.asks w := by
  simp [Reader.asks, Reader.release, List.count_append, List.map_map, Function.comp_def]
  omega

end

/-- A reader somebody waits for is not stuck: an answer can be handled, or the source can go on. -/
lemma Reader.Asked.enabled (h : r.Asked w) (horderly : Orderly ending r) :
    r.answered ≠ [] ∨ ∃ r', r.deliver = some r' := by
  rcases h with hmem | ⟨res, hmem⟩
  · obtain ⟨rest, ending', hsource⟩ := horderly.waiting_open (List.ne_nil_of_mem hmem)
    obtain ⟨w', waiting, hwaiting⟩ := List.exists_cons_of_ne_nil (List.ne_nil_of_mem hmem)
    refine Or.inr ?_
    cases rest with
    | nil => cases ending' <;> exact ⟨_, by rw [Reader.deliver, hsource]⟩
    | cons chunk rest => exact ⟨_, by rw [Reader.deliver, hsource, hwaiting]⟩
  · exact Or.inl (List.ne_nil_of_mem hmem)

end

/-! ## Controllers -/

/-- The state of a stream as its reader sees it; a cancelled one gives no chunk any more. -/
inductive StreamState (E : Type)
  | Readable
  | Closed
  | Errored (reason : E)
  | Cancelled

/-- A stream that is written by its controller; `received` is what its client has read. -/
structure Controller (α E : Type) where
  state : StreamState E := .Readable
  closeRequested : Bool := false
  queue : List α := []
  received : List α := []

namespace Controller

/-- `none` where it throws. -/
def enqueue (chunk : α) (c : Controller α E) : Option (Controller α E) :=
  match c.state with
  | .Readable => if c.closeRequested then none else some { c with queue := c.queue ++ [chunk] }
  | _ => none

/-- `none` where it throws. -/
def close (c : Controller α E) : Option (Controller α E) :=
  match c.state with
  | .Readable =>
      if c.closeRequested then none
      else some { c with closeRequested := true, state := if c.queue.isEmpty then .Closed else .Readable }
  | _ => none

def error (reason : E) (c : Controller α E) : Controller α E :=
  match c.state with
  | .Readable => { c with state := .Errored reason, queue := [] }
  | _ => c

/-- A read of the client that finds a chunk. -/
def clientRead (c : Controller α E) : Option (Controller α E) :=
  match c.state, c.queue with
  | .Readable, chunk :: queue =>
      some { c with
        queue := queue
        received := c.received ++ [chunk]
        state := if c.closeRequested && queue.isEmpty then .Closed else .Readable }
  | _, _ => none

/-- A cancel by the client of a stream that is not over. -/
def clientCancel (c : Controller α E) : Option (Controller α E) :=
  match c.state with
  | .Readable => some { c with state := .Cancelled, queue := [] }
  | _ => none

end Controller

end Streams
