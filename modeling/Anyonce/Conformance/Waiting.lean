import Anyonce.Conformance.Bookkeeping
import Mathlib.Data.List.Find

/-!
# The steps that wait, in the variables of the runners

The TypeScript runner keeps the steps that wait in a map, which has the order of insertion; the Go runner
keeps them in a map and their ids in a slice, which it filters in place.

* `Go.filterInPlace_eq` — the filter that overwrites the slice it reads is a filter.
* `lawful`, `Go.lawful` — both ways to keep them are lawful bookkeeping.
* `Runner.meets` — so both runners follow the plan.
-/

namespace Anyonce.Conformance

open Interaction Prog Relational

section

variable {K Q X P B F : Type} [DecidableEq K]

/-! ## A map that holds entries -/

/-- The map holds these entries, in this order. -/
def Holds (pending : OrderedMap K (Step K Q X × ℕ)) (entries : List (Step K Q X × ℕ)) : Prop :=
  pending.rows = entries.map fun entry => (entry.1.id, entry)

variable {pending : OrderedMap K (Step K Q X × ℕ)} {entries : List (Step K Q X × ℕ)}

lemma Holds.get (h : Holds pending entries) (id : K) : pending.get id = entryOf entries id := by
  rw [OrderedMap.get, Table.lookup, h, List.find?_map, Option.map_map, entryOf]
  simp [Function.comp_def]

lemma Holds.delete (h : Holds pending entries) (id : K) :
    Holds (pending.delete id) (entries.filter fun entry => entry.1.id ≠ id) := by
  rw [Holds, OrderedMap.delete, Table.remove_rows, h, List.filter_map]
  simp [Function.comp_def]

lemma Holds.deletes (h : Holds pending entries) (ids : List K) :
    Holds (ids.foldl OrderedMap.delete pending) (entries.filter fun entry => entry.1.id ∉ ids) := by
  induction ids generalizing pending entries with
  | nil => simpa using h
  | cons id ids ih =>
      have hrest := ih (h.delete id)
      rw [List.filter_filter] at hrest
      simpa [Bool.and_comm] using hrest

/-- A step that is not held goes to the end. -/
lemma Holds.set (h : Holds pending entries) {step : Step K Q X} {request : ℕ}
    (hnew : ∀ entry ∈ entries, entry.1.id ≠ step.id) :
    Holds (pending.set step.id (step, request)) (entries ++ [(step, request)]) := by
  have hany : (pending.rows.any fun row => row.1 = step.id) = false := by
    rw [h, List.any_map, List.any_eq_false]
    simpa using hnew
  rw [Holds, OrderedMap.set, Table.put_rows, Table.putRows, hany, h]
  simp

omit [DecidableEq K] in
lemma Holds.entries_eq (h : Holds pending entries) : pending.rows.map Prod.snd = entries := by
  rw [h, List.map_map]
  exact List.map_id _

lemma missing_entries (entries : List (Step K Q X × ℕ)) (step : Step K Q X) :
    missing (entries.map Prod.fst) step = step.partners.find? fun id => (entryOf entries id).isNone := by
  simp [missing, waiting_map_fst]

/-! ## TypeScript -/

/-- The entries of the partners, or the first that is missing. -/
lemma findGroup_eq (h : Holds pending entries) (ids : List K) :
    findGroup pending ids = match ids.find? fun id => (entryOf entries id).isNone with
      | some id => .error id
      | none => .ok (ids.filterMap (entryOf entries)) := by
  induction ids with
  | nil => rfl
  | cons id ids ih =>
      rw [findGroup, h.get]
      cases hentry : entryOf entries id with
      | none => simp [hentry]
      | some entry =>
          simp only [ih, List.find?_cons, hentry, Option.isNone_some]
          cases ids.find? fun id => (entryOf entries id).isNone with
          | some other => rfl
          | none => simp [hentry]

variable {counts : X → Bool} {body : P → B}

/-- A group is evaluated as planned, from the responses to its requests. -/
lemma meets_evaluateGroup {n : Notes K Q X P B F} {rest : List (Mark K Q X)}
    (htodo : n.todo = evaluations (entries.map Prod.fst) ++ rest) (htracked : Tracked n entries)
    {requests : List ℕ} (hrequests : requests = entries.map Prod.snd) (responses : Responses P requests) :
    (evaluateGroup counts body ((entries.map Prod.fst).zip responses.1) n.journal).Meets (contract body .TypeScript true)
      (fun n' journal => n.Reaches (evaluations (entries.map Prod.fst)) n' ∧ n'.journal = journal)
      (n.hear requests responses.1) := by
  subst hrequests
  exact (meets_readCounter _ _).bind fun _ => meets_evaluated evaluates_one (by simpa using responses.2) htodo htracked

omit [DecidableEq K] in
/-- The own response of a step is the last of its group's. -/
lemma zip_own (group : List (Step K Q X × ℕ)) (step : Step K Q X) (request : ℕ) {responses : List P}
    (hlength : responses.length = group.length + 1) :
    (group.map Prod.fst).zip responses ++ responses.getLast?.toList.map (fun r => (step, r))
      = ((group ++ [(step, request)]).map Prod.fst).zip responses := by
  induction group generalizing responses with
  | nil =>
      obtain ⟨r, rfl⟩ := List.length_eq_one_iff.mp hlength
      rfl
  | cons entry group ih =>
      cases responses with
      | nil => simp at hlength
      | cons r responses =>
          have hrest : responses.length = group.length + 1 := by simpa using hlength
          have hlast : (r :: responses).getLast? = responses.getLast? := by
            cases responses with
            | nil => simp at hrest
            | cons r' responses => rfl
          rw [hlast]
          exact congrArg ((entry.1, r) :: ·) (ih hrest)

/-- The bookkeeping of the TypeScript runner. -/
def bookkeeping (counts : X → Bool) (body : P → B) : Bookkeeping K Q X P B F (RunState K Q X B F) where
  journal st := st.journal
  settle := settlePending counts body
  sleep := sleep
  hold step st := { st with sent := st.sent + 1, pending := st.pending.set step.id (step, st.sent) }
  finish step st := finishStep counts body step st.sent { st with sent := st.sent + 1 }

/-- The variables hold the entries. -/
def Rep (st : RunState K Q X B F) (sent : ℕ) (entries : List (Step K Q X × ℕ)) : Prop :=
  st.sent = sent ∧ Holds st.pending entries

/-- The sleep leaves the notes alone. -/
lemma meets_ask_sleep (who : Runner) (inside : Bool) (ms : ℤ) (n : Notes K Q X P B F) :
    (runnerAsk (.Sleep ms) : RunnerProg K Q X P B F _).Meets (contract body who inside) (fun n' _ => n' = n) n :=
  ⟨trivial, fun _ => rfl⟩

lemma meets_settlePending {n : Notes K Q X P B F} {st : RunState K Q X B F} {rest : List (Mark K Q X)}
    (hk : (bookkeeping counts body).Keeps Rep n st entries)
    (htodo : n.todo = evaluations (entries.map Prod.fst) ++ rest) :
    (settlePending counts body st).Meets (contract body .TypeScript true) (fun n' st' =>
      n.Reaches (evaluations (entries.map Prod.fst)) n' ∧ (bookkeeping counts body).Keeps Rep n' st' []) n := by
  obtain ⟨hsent, hholds⟩ := hk.rep
  have hjournal : n.journal = st.journal := hk.journal
  rw [settlePending, ← hjournal, hholds.entries_eq]
  split_ifs with hempty
  · have hnil : entries = [] := by rw [← hholds.entries_eq, hempty, List.map_nil]
    subst hnil
    exact ⟨.refl n, hk⟩
  · rw [call_bind]
    refine ⟨hk.tracked.sent, fun responses => meets_bind_iff.mpr ?_⟩
    refine (meets_evaluateGroup htodo hk.tracked rfl responses).mono ?_
    rintro n' journal ⟨hreach, hjournal'⟩
    refine ⟨hreach, hjournal', ⟨?_, rfl⟩, by simp [Tracked]⟩
    simpa [hreach.begun] using hsent

/-- The entries of a group were sent. -/
lemma Tracked.group {n : Notes K Q X P B F} {step : Step K Q X} {request : ℕ}
    (h : Tracked n (entries ++ [(step, request)])) : Tracked n (groupEntries entries step request) := by
  intro entry hentry
  rcases List.mem_append.mp hentry with hentry | hentry
  · obtain ⟨id, -, hid⟩ := List.mem_filterMap.mp hentry
    exact h entry (List.mem_append_left _ (List.mem_of_find?_eq_some hid))
  · exact h entry (List.mem_append_right _ hentry)

lemma Tracked.left {n : Notes K Q X P B F} {step : Step K Q X} {request : ℕ}
    (h : Tracked n (entries ++ [(step, request)])) : Tracked n (leftEntries entries step) :=
  fun entry hentry => h entry (List.mem_append_left _ (List.mem_of_mem_filter hentry))

/-- What the variables hold when a group is gone. -/
lemma keeps_left {n n' : Notes K Q X P B F} {step : Step K Q X} {st st' : RunState K Q X B F}
    {group : List (Step K Q X)} (hs : (bookkeeping counts body : Bookkeeping K Q X P B F _).Sent Rep n step st
      st.sent entries) (hreach : n.Reaches (evaluations group) n') (hjournal : n'.journal = st'.journal)
    (hsent : st'.sent = st.sent + 1) (hholds : Holds st'.pending (leftEntries entries step)) :
    (bookkeeping counts body).Keeps Rep n' st' (leftEntries entries step) := by
  refine ⟨hjournal, ⟨?_, hholds⟩, hs.tracked.left.reaches hreach⟩
  rw [hreach.begun_eq, hs.count, hsent]

lemma finishes {n : Notes K Q X P B F} {step : Step K Q X} {st : RunState K Q X B F}
    (hs : (bookkeeping counts body).Sent Rep n step st st.sent entries) :
    (bookkeeping counts body).Finishes .TypeScript true body Rep n step st entries := by
  have hjournal : n.journal = st.journal := hs.journal
  have hholds := hs.rep.2
  have hgroup := hs.tracked.group
  have hprog : (bookkeeping counts body : Bookkeeping K Q X P B F _).finish step st
      = finishStep counts body step st.sent { st with sent := st.sent + 1 } := rfl
  rw [Bookkeeping.Finishes, hprog, finishStep]
  split_ifs with hpartners
  · have hmissing : missing (entries.map Prod.fst) step = none := by simp [missing, hpartners]
    have hsingle : groupEntries entries step st.sent = [(step, st.sent)] := by simp [groupEntries, hpartners]
    have hleft : leftEntries entries step = entries := by simp [leftEntries, hpartners]
    rw [hmissing]
    intro rest htodo
    rw [← map_fst_groupEntries entries step st.sent] at htodo ⊢
    rw [hsingle] at hgroup htodo ⊢
    rw [call_bind, ← hjournal]
    refine ⟨hgroup.sent, fun response => meets_bind_iff.mpr ?_⟩
    have hown : response.1.map (fun r => (step, r)) = ([(step, st.sent)].map Prod.fst).zip response.1 := by
      obtain ⟨r, hr⟩ := List.length_eq_one_iff.mp response.2
      rw [hr]
      rfl
    rw [hown]
    refine (meets_evaluateGroup htodo hgroup rfl response).mono ?_
    rintro n' journal ⟨hreach, hjournal'⟩
    exact ⟨hreach, keeps_left hs hreach hjournal' rfl (hleft.symm ▸ hholds), rfl⟩
  · rw [findGroup_eq hholds, ← missing_entries]
    cases hmissing : missing (entries.map Prod.fst) step with
    | some id => exact ⟨rfl, hjournal, rfl⟩
    | none =>
        intro rest htodo
        rw [← map_fst_groupEntries entries step st.sent] at htodo ⊢
        have hrequests : (step.partners.filterMap (entryOf entries)).map Prod.snd ++ [st.sent]
            = (groupEntries entries step st.sent).map Prod.snd := by simp [groupEntries]
        dsimp only
        rw [call_bind, ← hjournal]
        refine ⟨hrequests ▸ hgroup.sent, fun responses => meets_bind_iff.mpr ?_⟩
        rw [zip_own _ step st.sent (by simpa using responses.2)]
        refine (meets_evaluateGroup htodo hgroup hrequests responses).mono ?_
        rintro n' journal ⟨hreach, hjournal'⟩
        exact ⟨hreach, keeps_left hs hreach hjournal' rfl (hholds.deletes step.partners), rfl⟩

/-- **The map of the TypeScript runner is lawful bookkeeping.** -/
lemma lawful : (bookkeeping counts body : Bookkeeping K Q X P B F _).Lawful .TypeScript true body Rep where
  settle hk _ htodo := meets_settlePending hk htodo
  sleep step n := by
    show (sleep step).Meets _ _ _
    rw [sleep]
    split
    · exact rfl
    · split_ifs
      · exact meets_ask_sleep .TypeScript true _ n
      · exact rfl
  hold := by
    rintro step st sent entries ⟨rfl, hholds⟩ hnew
    exact ⟨⟨rfl, hholds.set hnew⟩, rfl⟩
  finish := by
    rintro n step st sent entries hs - -
    obtain rfl := hs.rep.1
    exact finishes hs

lemma runSteps_eq (deferred : List K) (steps : List (Step K Q X)) (st : RunState K Q X B F) :
    (runSteps counts body deferred steps st : RunnerProg K Q X P B F _)
      = (bookkeeping counts body).runSteps deferred steps st := by
  induction steps generalizing st with
  | nil => rfl
  | cons step steps ih =>
      simp only [runSteps, Bookkeeping.runSteps, ih]
      rfl

/-! ## Go -/

namespace Go

omit [DecidableEq K] in
/-- **The filter that overwrites its slice** is a filter of what it has not read yet.  Between the kept ids
and the unread ones lie as many ids as were dropped. -/
lemma filterInPlace_eq (keep : K → Bool) (kept dropped unread : List K) :
    filterInPlace keep unread.length (kept.length + dropped.length) kept.length (kept ++ dropped ++ unread)
      = kept ++ unread.filter keep := by
  induction unread generalizing kept dropped with
  | nil => simp [filterInPlace]
  | cons id unread ih =>
      have hread : (kept ++ dropped ++ id :: unread)[kept.length + dropped.length]? = some id := by
        rw [← List.length_append, List.getElem?_append_right Nat.le.refl]
        simp
      rw [List.length_cons, filterInPlace, hread]
      dsimp only
      split_ifs with hkeep
      · cases dropped with
        | nil =>
            have hset : (kept ++ [] ++ id :: unread).set kept.length id = (kept ++ [id]) ++ [] ++ unread := by
              simp
            have hnext := ih (kept ++ [id]) []
            rw [hset, List.filter_cons_of_pos hkeep]
            simpa using hnext
        | cons other dropped =>
            have hset : (kept ++ other :: dropped ++ id :: unread).set kept.length id
                = (kept ++ [id]) ++ (dropped ++ [id]) ++ unread := by simp
            have hnext := ih (kept ++ [id]) (dropped ++ [id])
            have hindex : (kept ++ [id]).length + (dropped ++ [id]).length
                = kept.length + (other :: dropped).length + 1 := by
              simp
              omega
            rw [hindex] at hnext
            rw [hset, List.filter_cons_of_pos hkeep]
            simpa using hnext
      · have hnext := ih kept (dropped ++ [id])
        rw [List.filter_cons_of_neg hkeep]
        simpa [Nat.add_assoc] using hnext

/-- To take one entry is not to take another. -/
lemma entryOf_filter (entries : List (Step K Q X × ℕ)) {id other : K} (hne : other ≠ id) :
    entryOf (entries.filter fun entry => entry.1.id ≠ id) other = entryOf entries other := by
  rw [entryOf, List.find?_filter, entryOf]
  congr 1
  funext entry
  by_cases hentry : entry.1.id = other
  · simp [hentry, hne]
  · simp [hentry]

/-- The entries of the partners, taken out of the map one after another. -/
lemma takeGroup_eq {ids : List K} (hids : ids.Nodup) {pending : OrderedMap K (Step K Q X × ℕ)}
    {entries : List (Step K Q X × ℕ)} (h : Holds pending entries) :
    takeGroup ids pending = match ids.find? fun id => (entryOf entries id).isNone with
      | some id => .error id
      | none => .ok (ids.filterMap (entryOf entries), ids.foldl OrderedMap.delete pending) := by
  induction ids generalizing pending entries with
  | nil => rfl
  | cons id ids ih =>
      obtain ⟨hnew, hids⟩ := List.nodup_cons.mp hids
      have hothers : ∀ other ∈ ids,
          entryOf (entries.filter fun entry => entry.1.id ≠ id) other = entryOf entries other := by
        intro other hother
        refine entryOf_filter entries ?_
        rintro rfl
        exact hnew hother
      rw [takeGroup, h.get]
      cases hentry : entryOf entries id with
      | none => simp [hentry]
      | some entry =>
          have hfind : ids.find? (fun other => (entryOf (entries.filter fun e => e.1.id ≠ id) other).isNone)
              = ids.find? fun other => (entryOf entries other).isNone :=
            List.find?_congr fun other hother => by rw [hothers other hother]
          have hmap : ids.filterMap (entryOf (entries.filter fun e => e.1.id ≠ id))
              = ids.filterMap (entryOf entries) := List.filterMap_congr hothers
          simp only [ih hids (h.delete id), hfind, hmap, List.find?_cons, hentry, Option.isNone_some]
          cases ids.find? fun other => (entryOf entries other).isNone with
          | some other => rfl
          | none => simp [hentry]

variable {counts : X → Bool} {body : P → B}

/-- Responses that are received one after another. -/
lemma meets_receive {requests : List ℕ} {n : Notes K Q X P B F}
    (hsent : ∀ request ∈ requests, request < n.begun.length) :
    (receive requests).Meets (contract body .Go false) (fun n' responses =>
      n' = n.hear requests responses ∧ responses.length = requests.length) n := by
  induction requests generalizing n with
  | nil => exact ⟨by simp [Notes.hear], rfl⟩
  | cons request requests ih =>
      rw [receive, call_bind]
      refine ⟨?_, fun response => ?_⟩
      · rintro other hother
        exact hsent other (by simp_all)
      · obtain ⟨r, hr⟩ := List.length_eq_one_iff.mp response.2
        refine meets_bind_iff.mpr ((ih (n := n.hear [request] response.1) ?_).mono ?_)
        · exact fun other hother => hsent other (List.mem_cons_of_mem _ hother)
        · rintro n' responses ⟨rfl, hlength⟩
          rw [hr]
          exact ⟨by simp [Notes.hear], by simpa using hlength⟩

/-- A group is evaluated as planned, once its responses are received. -/
lemma meets_evaluateGroup {n : Notes K Q X P B F} {rest : List (Mark K Q X)}
    (htodo : n.todo = evaluations (entries.map Prod.fst) ++ rest) (htracked : Tracked n entries) :
    (evaluateGroup counts body entries n.journal).Meets (contract body .Go false)
      (fun n' journal => n.Reaches (evaluations (entries.map Prod.fst)) n' ∧ n'.journal = journal) n := by
  refine meets_bind_iff.mpr ((meets_receive htracked.sent).mono ?_)
  rintro n' responses ⟨rfl, hlength⟩
  exact (meets_readCounter _ _).bind fun _ => meets_evaluated Go.evaluates_one (by simpa using hlength) htodo htracked

/-- The bookkeeping of the Go runner. -/
def bookkeeping (counts : X → Bool) (body : P → B) : Bookkeeping K Q X P B F (RunState K Q X B F) where
  journal st := st.journal
  settle := settlePending counts body
  sleep := sleep
  hold step st := { st with
    sent := st.sent + 1
    pending := st.pending.set step.id (step, st.sent)
    pendingOrder := st.pendingOrder ++ [step.id] }
  finish step st := finishStep counts body step st.sent { st with sent := st.sent + 1 }

/-- The variables hold the entries. -/
def Rep (st : RunState K Q X B F) (sent : ℕ) (entries : List (Step K Q X × ℕ)) : Prop :=
  st.sent = sent ∧ Holds st.pending entries ∧ st.pendingOrder = entries.map fun entry => entry.1.id

lemma runSteps_eq (deferred : List K) (steps : List (Step K Q X)) (st : RunState K Q X B F) :
    (runSteps counts body deferred steps st : RunnerProg K Q X P B F _)
      = (bookkeeping counts body).runSteps deferred steps st := by
  induction steps generalizing st with
  | nil => rfl
  | cons step steps ih =>
      have hbefore : ∀ st : RunState K Q X B F, (settleBefore counts body step st : RunnerProg K Q X P B F _)
          = (bookkeeping counts body).settleBefore step st := by
        intro st
        simp only [settleBefore, Bookkeeping.settleBefore, List.length_eq_zero_iff]
        rfl
      simp only [runSteps, Bookkeeping.runSteps, ih, hbefore]
      rfl

lemma meets_settlePending {n : Notes K Q X P B F} {st : RunState K Q X B F} {rest : List (Mark K Q X)}
    (hk : (bookkeeping counts body).Keeps Rep n st entries) (hdistinct : Distinct (entries.map Prod.fst))
    (htodo : n.todo = evaluations (entries.map Prod.fst) ++ rest) :
    (settlePending counts body st).Meets (contract body .Go false) (fun n' st' =>
      n.Reaches (evaluations (entries.map Prod.fst)) n' ∧ (bookkeeping counts body).Keeps Rep n' st' []) n := by
  obtain ⟨hsent, hholds, horder⟩ := hk.rep
  have hjournal : n.journal = st.journal := hk.journal
  have hgroup : st.pendingOrder.filterMap st.pending.get = entries := by
    rw [horder, List.filterMap_map]
    refine (List.filterMap_congr fun entry hentry => ?_).trans List.filterMap_some
    exact (OrderedMap.get_eq_some_iff.mpr (hholds ▸ List.mem_map_of_mem hentry))
  rw [settlePending, hgroup, ← hjournal]
  split_ifs with hempty
  · have hnil : entries = [] := by rw [← hholds.entries_eq, List.length_eq_zero_iff.mp hempty, List.map_nil]
    subst hnil
    exact ⟨.refl n, hk⟩
  · refine meets_bind_iff.mpr ((meets_evaluateGroup htodo hk.tracked).mono ?_)
    rintro n' journal ⟨hreach, hjournal'⟩
    refine ⟨hreach, hjournal', ⟨?_, rfl, rfl⟩, by simp [Tracked]⟩
    simpa [hreach.begun_eq] using hsent

/-- The slice, filtered by what is still in the map. -/
lemma filterInPlace_left {pending : OrderedMap K (Step K Q X × ℕ)} {step : Step K Q X}
    (h : Holds pending (leftEntries entries step)) {order : List K}
    (horder : order = entries.map fun entry => entry.1.id) :
    filterInPlace (fun id => (pending.get id).isSome) order.length 0 0 order
      = (leftEntries entries step).map fun entry => entry.1.id := by
  have hfilter := filterInPlace_eq (fun id => (pending.get id).isSome) [] [] order
  simp only [List.nil_append, List.length_nil] at hfilter
  rw [hfilter, horder, List.filter_map, leftEntries]
  congr 1
  refine List.filter_congr fun entry hentry => ?_
  rw [Function.comp_apply, h.get, entryOf, Bool.eq_iff_iff, List.find?_isSome]
  simp only [leftEntries, List.mem_filter, decide_eq_true_iff]
  constructor
  · rintro ⟨other, ⟨-, hleft⟩, hid⟩
    rwa [← hid]
  · intro hleft
    exact ⟨entry, ⟨hentry, hleft⟩, rfl⟩

lemma finishes {n : Notes K Q X P B F} {step : Step K Q X} {st : RunState K Q X B F}
    (hs : (bookkeeping counts body).Sent Rep n step st st.sent entries) (hpartners : step.partners.Nodup) :
    (bookkeeping counts body).Finishes .Go false body Rep n step st entries := by
  have hjournal : n.journal = st.journal := hs.journal
  obtain ⟨-, hholds, horder⟩ := hs.rep
  have hgroup := hs.tracked.group
  have hprog : (bookkeeping counts body : Bookkeeping K Q X P B F _).finish step st
      = finishStep counts body step st.sent { st with sent := st.sent + 1 } := rfl
  rw [Bookkeeping.Finishes, hprog, finishStep]
  split_ifs with hlength
  · rw [takeGroup_eq hpartners hholds, ← missing_entries]
    cases hmissing : missing (entries.map Prod.fst) step with
    | some id => exact ⟨rfl, hjournal, rfl⟩
    | none =>
        intro rest htodo
        rw [← map_fst_groupEntries entries step st.sent] at htodo ⊢
        dsimp only
        rw [← hjournal]
        refine meets_bind_iff.mpr ((meets_evaluateGroup htodo hgroup).mono ?_)
        rintro n' journal ⟨hreach, hjournal'⟩
        have hleft : Holds (step.partners.foldl OrderedMap.delete st.pending) (leftEntries entries step) :=
          hholds.deletes step.partners
        refine ⟨hreach, ⟨hjournal', ⟨?_, hleft, filterInPlace_left hleft horder⟩,
          hs.tracked.left.reaches hreach⟩, rfl⟩
        rw [hreach.begun_eq, hs.count]
  · have hnone : step.partners = [] := by simpa using hlength
    have hmissing : missing (entries.map Prod.fst) step = none := by simp [missing, hnone]
    have hsingle : groupEntries entries step st.sent = [(step, st.sent)] := by simp [groupEntries, hnone]
    have hleft : leftEntries entries step = entries := by simp [leftEntries, hnone]
    rw [hmissing]
    intro rest htodo
    rw [← map_fst_groupEntries entries step st.sent] at htodo ⊢
    rw [hsingle] at hgroup htodo ⊢
    rw [← hjournal]
    refine meets_bind_iff.mpr ((meets_evaluateGroup htodo hgroup).mono ?_)
    rintro n' journal ⟨hreach, hjournal'⟩
    refine ⟨hreach, ⟨hjournal', ⟨?_, hleft.symm ▸ hholds, hleft.symm ▸ horder⟩,
      hs.tracked.left.reaches hreach⟩, rfl⟩
    rw [hreach.begun_eq, hs.count]

/-- **The map and the slice of the Go runner are lawful bookkeeping.** -/
lemma lawful : (bookkeeping counts body : Bookkeeping K Q X P B F _).Lawful .Go false body Rep where
  settle := meets_settlePending
  sleep step n := by
    show (sleep step).Meets _ _ _
    rw [sleep]
    split_ifs
    · exact meets_ask_sleep .Go false _ n
    · exact rfl
  hold := by
    rintro step st sent entries ⟨rfl, hholds, horder⟩ hnew
    exact ⟨⟨rfl, hholds.set hnew, by simp [bookkeeping, horder]⟩, rfl⟩
  finish := by
    rintro n step st sent entries hs - hpartners
    obtain rfl := hs.rep.1
    exact finishes hs hpartners

end Go

/-! ## Both -/

variable {counts : X → Bool} {body : P → B} {steps : List (Step K Q X)}

/-- **Both runners follow the plan of the vector.** -/
theorem Runner.meets (runner : Runner) (hdistinct : Distinct steps)
    (hpartners : ∀ step ∈ steps, step.partners.Nodup) :
    (runner.runVector counts body steps : RunnerProg K Q X P B F _).Meets (contract body runner false) (Returns steps)
      (Notes.start steps) := by
  cases runner with
  | TypeScript =>
      have heq : (runVectorBody counts body steps : RunnerProg K Q X P B F _)
          = (bookkeeping counts body).runVector {} steps := by
        simp only [runVectorBody, Bookkeeping.runVector, runSteps_eq]
        rfl
      have hrep : Rep ({} : RunState K Q X B F) 0 [] := ⟨rfl, rfl⟩
      rw [Runner.runVector, Conformance.runVector, heq]
      refine meets_catching (lawful.meets_runVector hrep rfl hdistinct hpartners) ?_
      intro n step hthrown
      rw [Returns, hthrown]
      exact ⟨rfl, rfl⟩
  | Go =>
      have heq : (Go.runVector counts body steps : RunnerProg K Q X P B F _)
          = (Go.bookkeeping counts body).runVector {} steps := by
        simp only [Go.runVector, Bookkeeping.runVector, Go.runSteps_eq]
        rfl
      have hrep : Go.Rep ({} : Go.RunState K Q X B F) 0 [] := ⟨rfl, rfl, rfl⟩
      rw [Runner.runVector, heq]
      exact Go.lawful.meets_runVector hrep rfl hdistinct hpartners

end

end Anyonce.Conformance
