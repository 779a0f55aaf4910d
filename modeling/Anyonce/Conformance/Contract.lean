import Anyonce.Conformance.Runner
import Anyonce.Core.Contract

/-!
# The runners follow the plan

One contract for both runners: each starts the step that the plan starts next, and evaluates the step that
the plan evaluates next, with the response it was given to its request and after it was given a response
for each step of the group.

**The contract**: `Notes` is what is known of a run from its own calls, and `contract` says what each call
has to satisfy.  Inside the `try` of the TypeScript runner an error may be thrown, and outside it may not
(`meets_catching`).  **The representation**: `Bookkeeping` is what the two runners have in common, and
`Bookkeeping.Lawful` what the variables they keep have to do.  **The result**: `Runner.meets`.
-/

namespace Anyonce.Conformance

open Interaction Relational

section

variable {K Q X P B F : Type}

/-! ## Notes -/

/-- What is known of a run: the marks of the plan behind it and ahead of it, the responses it was given, by
request, its journal, and the step whose evaluation threw. -/
structure Notes (K Q X P B F : Type) where
  past : List (Mark K Q X) := []
  todo : List (Mark K Q X)
  heard : List (ℕ × P) := []
  journal : Journal K B F := {}
  reset : Option ℤ := none
  thrown : Option K := none

namespace Notes

/-- The next mark is behind the run. -/
def advance (n : Notes K Q X P B F) : Notes K Q X P B F :=
  { n with past := n.past ++ n.todo.take 1, todo := n.todo.drop 1 }

/-- The steps started so far; the position is the request. -/
def begun (n : Notes K Q X P B F) : List (Step K Q X) := startedIn n.past

/-- The run was given this response to the request of this step. -/
def Heard (n : Notes K Q X P B F) (step : Step K Q X) (response : P) : Prop :=
  ∃ request, (request, response) ∈ n.heard ∧ n.begun[request]? = some step

/-- `n'` are the notes `n`, some marks later. -/
structure Reaches (n : Notes K Q X P B F) (marks : List (Mark K Q X)) (n' : Notes K Q X P B F) : Prop where
  past : n'.past = n.past ++ marks
  todo : n.todo = marks ++ n'.todo
  heard : ∀ e ∈ n.heard, e ∈ n'.heard
  reset : n'.reset = n.reset
  thrown : n'.thrown = n.thrown

variable {n n' n'' : Notes K Q X P B F} {marks marks' : List (Mark K Q X)}

lemma Reaches.refl (n : Notes K Q X P B F) : n.Reaches [] n :=
  ⟨by simp, rfl, fun _ h => h, rfl, rfl⟩

lemma Reaches.trans (h : n.Reaches marks n') (h' : n'.Reaches marks' n'') :
    n.Reaches (marks ++ marks') n'' where
  past := by rw [h'.past, h.past, List.append_assoc]
  todo := by rw [h.todo, h'.todo, List.append_assoc]
  heard e he := h'.heard e (h.heard e he)
  reset := h'.reset.trans h.reset
  thrown := h'.thrown.trans h.thrown

lemma Reaches.begun (h : n.Reaches marks n') : n'.begun = n.begun ++ startedIn marks := by
  rw [Notes.begun, h.past, startedIn_append]
  rfl

/-- To evaluate is not to begin. -/
lemma Reaches.begun_eq {group : List (Step K Q X)} (h : n.Reaches (evaluations group) n') :
    n'.begun = n.begun := by simpa using h.begun

/-- What was begun keeps its place. -/
lemma Reaches.getElem? (h : n.Reaches marks n') {request : ℕ} {step : Step K Q X}
    (hbegun : n.begun[request]? = some step) : n'.begun[request]? = some step := by
  obtain ⟨hlt, -⟩ := List.getElem?_eq_some_iff.mp hbegun
  rwa [h.begun, List.getElem?_append_left hlt]

lemma Reaches.heardStep (h : n.Reaches marks n') {step : Step K Q X} {response : P}
    (hheard : n.Heard step response) : n'.Heard step response := by
  obtain ⟨request, hmem, hbegun⟩ := hheard
  exact ⟨request, h.heard _ hmem, h.getElem? hbegun⟩

/-- What is ahead, once the marks are reached. -/
lemma Reaches.ahead (h : n.Reaches marks n') {rest : List (Mark K Q X)} (htodo : n.todo = marks ++ rest) :
    n'.todo = rest := List.append_cancel_left (h.todo.symm.trans htodo)

lemma reaches_advance {mark : Mark K Q X} {rest : List (Mark K Q X)} (h : n.todo = mark :: rest) :
    n.Reaches [mark] n.advance := by
  refine ⟨?_, ?_, fun _ he => he, rfl, rfl⟩
  · simp [advance, h]
  · simp [advance, h]

end Notes

/-! ## The contract -/

variable [DecidableEq K] (body : P → B)

/-- The notes when a step was evaluated. -/
def Notes.evaluated (n : Notes K Q X P B F) (step : Step K Q X) (response : P) (failures : List F) :
    Notes K Q X P B F :=
  { n.advance with journal := n.journal.add step.id failures (body response) }

/-- What is noted of a reply. -/
def noteReply (n : Notes K Q X P B F) :
    Event (RunnerCall K Q X P B F) (RunnerReply K Q X P B F) → Notes K Q X P B F
  | ⟨.Reset, status⟩ => { n with reset := some status }
  | ⟨.Start _, _⟩ => n.advance
  | ⟨.Await requests, responses⟩ => { n with heard := n.heard ++ requests.zip responses.1 }
  | ⟨.EvaluateExpect step _ _ _, none⟩ => { n with thrown := some step.id }
  | ⟨.EvaluateExpect step response _ _, some failures⟩ => n.evaluated body step response failures
  | ⟨.Evaluate step response _ _, failures⟩ => n.evaluated body step response failures
  | _ => n

/-- What the evaluation of a step has to satisfy. -/
def Notes.Due (n : Notes K Q X P B F) (step : Step K Q X) (response : P) (prior : K → Option B) : Prop :=
  prior = n.journal.priorBodies.get ∧ n.Heard step response
    ∧ ∃ group rest, n.todo = .Evaluated group step :: rest ∧ ∀ member ∈ group, ∃ r, n.Heard member r

/-- What a call of a runner has to satisfy.  An error is thrown only `inside` a `try`, and tells what is
noted. -/
def asks (who : Runner) (inside : Bool) (n : Notes K Q X P B F) : RunnerCall K Q X P B F → Prop
  | .Start step => ∃ rest, n.todo = .Started step :: rest
  | .Await requests => ∀ request ∈ requests, request < n.begun.length
  | .EvaluateExpect step response prior _ => who = .TypeScript ∧ n.Due step response prior
  | .Evaluate step response prior _ => who = .Go ∧ n.Due step response prior
  | .Throw step outcomes => inside = true ∧ n.thrown = some step ∧ outcomes = n.journal.outcomes
  | .Arrive _ => False
  | _ => True

/-- **To follow the plan.** -/
def contract (who : Runner) (inside : Bool) :
    Contract (RunnerCall K Q X P B F) (RunnerReply K Q X P B F) (Notes K Q X P B F) where
  note := noteReply body
  asks := asks who inside

variable {body} {who : Runner}

/-- **A `catch` keeps what was thrown inside.** -/
lemma meets_catching {post : Notes K Q X P B F → VectorResult K F → Prop}
    {run : RunnerProg K Q X P B F (VectorResult K F)} {n : Notes K Q X P B F}
    (h : run.Meets (contract body who true) post n)
    (hcaught : ∀ n : Notes K Q X P B F, ∀ step ∈ n.thrown,
      post n ⟨.Error, n.journal.outcomes, some (.Threw step)⟩) :
    (catching run).Meets (contract body who false) post n := by
  induction run generalizing n with
  | Ret result => exact h
  | Call c k ih =>
      obtain ⟨hasks, hrest⟩ := h
      cases c with
      | Throw step outcomes =>
          obtain ⟨-, hthrown, rfl⟩ := hasks
          exact hcaught n step hthrown
      | _ => exact ⟨hasks, fun r => ih r (hrest r)⟩

/-! ## A group -/

variable {inside : Bool}

/-- An evaluator that gets the failures of a step which is due, or throws. -/
def Evaluates (who : Runner) (inside : Bool) (body : P → B) (evaluate : Evaluator K Q X P B F) : Prop :=
  ∀ {n : Notes K Q X P B F} {step response invocations}, n.Due step response n.journal.priorBodies.get →
    (evaluate step response invocations n.journal).Meets (contract body who inside)
      (fun n' failures => n' = n.evaluated body step response failures) n

/-- `evaluateExpect`, which throws inside a `try`. -/
lemma evaluates_one : Evaluates .TypeScript true body (evaluateOne : Evaluator K Q X P B F) := by
  intro n step response invocations hdue
  refine ⟨⟨rfl, hdue⟩, fun outcome => ?_⟩
  cases outcome with
  | some failures => exact rfl
  | none => exact ⟨⟨rfl, rfl, rfl⟩, nofun⟩

/-- `evaluate`, which does not throw. -/
lemma Go.evaluates_one : Evaluates .Go inside body (Go.evaluateOne : Evaluator K Q X P B F) :=
  fun hdue => ⟨⟨rfl, hdue⟩, fun _ => rfl⟩

/-- A group of steps whose responses were given is evaluated as planned. -/
lemma meets_evaluateEach {evaluate : Evaluator K Q X P B F} (hevaluate : Evaluates who inside body evaluate)
    {invocations : Option ℤ} {group : List (Step K Q X)} {items : List (Step K Q X × P)}
    {rest : List (Mark K Q X)} {n : Notes K Q X P B F}
    (htodo : n.todo = items.map (fun item => .Evaluated group item.1) ++ rest)
    (hitems : ∀ item ∈ items, n.Heard item.1 item.2) (hgroup : ∀ member ∈ group, ∃ r, n.Heard member r) :
    (evaluateEach body evaluate invocations items n.journal).Meets (contract body who inside) (fun n' journal =>
      n.Reaches (items.map fun item => .Evaluated group item.1) n' ∧ n'.journal = journal) n := by
  induction items generalizing n with
  | nil => exact ⟨.refl n, rfl⟩
  | cons item items ih =>
      have hnext := Notes.reaches_advance htodo
      have hdue := @hevaluate _ _ _ invocations
        ⟨rfl, hitems item List.mem_cons_self, group, _, htodo, hgroup⟩
      refine meets_bind_iff.mpr (hdue.mono ?_)
      rintro n₁ failures rfl
      let n₁ := n.evaluated body item.1 item.2 failures
      have hreach : n.Reaches [.Evaluated group item.1] n₁ :=
        ⟨hnext.past, hnext.todo, hnext.heard, hnext.reset, hnext.thrown⟩
      refine (ih (n := n₁) (hreach.ahead htodo) ?_ ?_).mono ?_
      · intro other hother
        exact hreach.heardStep (hitems other (List.mem_cons_of_mem _ hother))
      · intro member hmember
        obtain ⟨r, hr⟩ := hgroup member hmember
        exact ⟨r, hreach.heardStep hr⟩
      · rintro n' journal ⟨hreach', hjournal⟩
        exact ⟨hreach.trans hreach', hjournal⟩

/-- The notes when responses were given. -/
def Notes.hear (n : Notes K Q X P B F) (requests : List ℕ) (responses : List P) : Notes K Q X P B F :=
  { n with heard := n.heard ++ requests.zip responses }

omit [DecidableEq K] in
lemma Notes.reaches_hear (n : Notes K Q X P B F) (requests : List ℕ) (responses : List P) :
    n.Reaches [] (n.hear requests responses) :=
  ⟨by simp [hear], rfl, fun e he => List.mem_append_left _ he, rfl, rfl⟩

/-- Each entry is a step and the request that was sent for it. -/
def Tracked (n : Notes K Q X P B F) (entries : List (Step K Q X × ℕ)) : Prop :=
  ∀ entry ∈ entries, n.begun[entry.2]? = some entry.1

omit [DecidableEq K] in
lemma Tracked.reaches {n n' : Notes K Q X P B F} {marks : List (Mark K Q X)}
    {entries : List (Step K Q X × ℕ)} (h : Tracked n entries) (hreach : n.Reaches marks n') :
    Tracked n' entries := fun entry hentry => hreach.getElem? (h entry hentry)

omit [DecidableEq K] in
/-- The requests that a runner waits for were sent. -/
lemma Tracked.sent {n : Notes K Q X P B F} {entries : List (Step K Q X × ℕ)} (h : Tracked n entries) :
    ∀ request ∈ entries.map Prod.snd, request < n.begun.length := by
  intro request hrequest
  obtain ⟨entry, hentry, rfl⟩ := List.mem_map.mp hrequest
  exact (List.getElem?_eq_some_iff.mp (h entry hentry)).1

omit [DecidableEq K] in
/-- A response that was given to an entry was given to its step. -/
lemma Tracked.heard {n : Notes K Q X P B F} {entries : List (Step K Q X × ℕ)} (h : Tracked n entries)
    {responses : List P} {item : Step K Q X × P} (hitem : item ∈ (entries.map Prod.fst).zip responses) :
    (n.hear (entries.map Prod.snd) responses).Heard item.1 item.2 := by
  obtain ⟨i, hi, rfl⟩ := List.mem_iff_getElem.mp hitem
  rw [List.length_zip, List.length_map] at hi
  have hentry : i < entries.length := by omega
  refine ⟨entries[i].2, List.mem_append_right _ (List.mem_iff_getElem.mpr ⟨i, ?_, ?_⟩), ?_⟩
  · simpa using hi
  · simp
  · simpa [Notes.begun, Notes.hear] using h entries[i] (List.getElem_mem _)

/-- **A group is evaluated as planned, once the responses to its requests were given.** -/
lemma meets_evaluated {evaluate : Evaluator K Q X P B F} (hevaluate : Evaluates who inside body evaluate)
    {invocations : Option ℤ} {entries : List (Step K Q X × ℕ)} {responses : List P}
    (hlength : responses.length = entries.length) {rest : List (Mark K Q X)} {n : Notes K Q X P B F}
    (htodo : n.todo = evaluations (entries.map Prod.fst) ++ rest) (htracked : Tracked n entries) :
    (evaluateEach body evaluate invocations ((entries.map Prod.fst).zip responses) n.journal).Meets
      (contract body who inside)
      (fun n' journal => n.Reaches (evaluations (entries.map Prod.fst)) n' ∧ n'.journal = journal)
      (n.hear (entries.map Prod.snd) responses) := by
  have hmarks : ((entries.map Prod.fst).zip responses).map
      (fun item => Mark.Evaluated (entries.map Prod.fst) item.1) = evaluations (entries.map Prod.fst) := by
    have hfst : ((entries.map Prod.fst).zip responses).map Prod.fst = entries.map Prod.fst :=
      List.map_fst_zip (by simp [hlength])
    calc ((entries.map Prod.fst).zip responses).map
          (fun item => Mark.Evaluated (entries.map Prod.fst) item.1)
        = (((entries.map Prod.fst).zip responses).map Prod.fst).map
            (Mark.Evaluated (entries.map Prod.fst)) := by rw [List.map_map]; rfl
      _ = evaluations (entries.map Prod.fst) := by rw [hfst, evaluations]
  have hreach := n.reaches_hear (entries.map Prod.snd) responses
  refine (meets_evaluateEach hevaluate (n := n.hear (entries.map Prod.snd) responses) (hmarks.symm ▸ htodo)
    (fun item hitem => htracked.heard hitem) ?_).mono ?_
  · intro member hmember
    obtain ⟨i, hi, rfl⟩ := List.mem_iff_getElem.mp hmember
    have hi' : i < responses.length := by simpa [hlength] using hi
    have hitem : ((entries.map Prod.fst)[i], responses[i]) ∈ (entries.map Prod.fst).zip responses :=
      List.mem_iff_getElem.mpr ⟨i, by simp at hi ⊢; omega, by simp⟩
    exact ⟨_, htracked.heard hitem⟩
  · rintro n' journal ⟨hreach', hjournal⟩
    rw [hmarks] at hreach'
    exact ⟨hreach.trans hreach', hjournal⟩

/-- The counter leaves the notes alone. -/
lemma meets_readCounter (needsCounter : Bool) (n : Notes K Q X P B F) :
    (readCounter needsCounter : RunnerProg K Q X P B F _).Meets (contract body who inside)
      (fun n' _ => n' = n) n := by
  cases needsCounter with
  | false => exact rfl
  | true => exact ⟨trivial, fun _ => rfl⟩

end

end Anyonce.Conformance
