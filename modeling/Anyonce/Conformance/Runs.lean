import Anyonce.Conformance.Waiting

/-!
# Runs of a conformance vector

A runner beside the responses to its requests, which arrive in any order and at any time.  What a runner does
with the responses it was given is in the contract it meets; that it was given them only once they had
arrived is in the object.

**The system**: `Target.net`, `Running`.  **The invariant**: `Coherent` joins what was done to the notes of
the runner, and `coherent` says that every run keeps it.  In particular what was evaluated, with which
earlier bodies, is a function of the plan and of the responses: `evaluationsFrom`.
-/

namespace Anyonce.Conformance

open Interaction Prog Relational

open scoped List

section

variable {K Q X P B F : Type}

/-! ## The system -/

/-- What a runner talks to: how the reset is answered, how the request of each step, and for which
expectations `evaluateExpect` throws: those that name a header by no token, whatever the response is
(`evaluateExpect_eq_none_iff`). -/
structure Target (K X P : Type) where
  reset : ℤ
  respond : K → P
  throws : X → Bool

/-- The requests that were sent, and those whose responses have arrived. -/
structure Net (K Q X : Type) where
  sent : List (Step K Q X) := []
  arrived : List ℕ := []

/-- The target, the counter and the clock as one object; it is called by the runner and, for each request,
by the response to it.  The responses to wait for have arrived when the wait ends. -/
def Target.net (target : Target K X P) : Net K Q X → (p : Option ℕ × RunnerCall K Q X P B F) →
    Tagged (Option ℕ) (RunnerReply K Q X P B F) p → Net K Q X → Prop
  | s, (none, .Reset), status, s' => status = target.reset ∧ s' = s
  | s, (none, .Sleep _), _, s' => s' = s
  | s, (none, .Start step), _, s' => s' = { s with sent := s.sent ++ [step] }
  | s, (none, .Await requests), responses, s' =>
      (∀ request ∈ requests, request ∈ s.arrived)
        ∧ responses.1.map some = requests.map (fun request =>
          s.sent[request]?.map fun step => target.respond step.id)
        ∧ s' = s
  | s, (none, .Counter), _, s' => s' = s
  | s, (none, .EvaluateExpect step _ _ _), outcome, s' =>
      (outcome = none ↔ target.throws step.expect = true) ∧ s' = s
  | s, (none, .Evaluate _ _ _ _), _, s' => s' = s
  | s, (some request, .Arrive request'), _, s' =>
      request' = request ∧ request < s.sent.length ∧ request ∉ s.arrived
        ∧ s' = { s with arrived := s.arrived ++ [request] }
  | _, _, _, _ => False

/-- The runner, and the response to each request. -/
def party (run : RunnerProg K Q X P B F (VectorResult K F)) :
    Option ℕ → RunnerProg K Q X P B F (Option (VectorResult K F))
  | none => run >>= fun result => Ret (some result)
  | some request => Call (.Arrive request) fun _ => Ret none

/-- A runner at work. -/
abbrev System (K Q X P B F : Type) : Type :=
  Config (Option ℕ) (RunnerCall K Q X P B F) (RunnerReply K Q X P B F) (Option (VectorResult K F)) (Net K Q X)

abbrev Past (K Q X P B F : Type) : Type :=
  List (Entry (Option ℕ × RunnerCall K Q X P B F) (Tagged (Option ℕ) (RunnerReply K Q X P B F)) (Net K Q X))

/-- Every run of a runner, up to any moment of it. -/
def Running (target : Target K X P) (run : RunnerProg K Q X P B F (VectorResult K F)) :
    System K Q X P B F → Prop :=
  Interleave (fun _ _ _ => True) target.net {} (party run)

/-- The runner has returned. -/
def Returned (cfg : System K Q X P B F) (result : VectorResult K F) : Prop :=
  cfg.pool none = Ret (some result)

/-! ## What is seen of a run -/

def RunnerCall.started? : RunnerCall K Q X P B F → Option (Step K Q X)
  | .Start step => some step
  | _ => none

/-- What is evaluated, with which response and which earlier bodies, when there is an outcome. -/
def RunnerCall.evaluated? : (c : RunnerCall K Q X P B F) → RunnerReply K Q X P B F c →
    Option (Step K Q X × P × (K → Option B))
  | .EvaluateExpect step response prior _, some _ => some (step, response, prior)
  | .Evaluate step response prior _, _ => some (step, response, prior)
  | _, _ => none

def RunnerCall.arrived? : RunnerCall K Q X P B F → Option ℕ
  | .Arrive request => some request
  | _ => none

/-- The steps whose requests were started. -/
def startedBy (h : Past K Q X P B F) : List (Step K Q X) := h.filterMap fun e => e.cmd.2.started?

/-- The steps that were evaluated. -/
def evaluatedBy (h : Past K Q X P B F) : List (Step K Q X × P × (K → Option B)) :=
  h.filterMap fun e => e.cmd.2.evaluated? e.reply

/-- The requests whose responses arrived. -/
def arrivedBy (h : Past K Q X P B F) : List ℕ := h.filterMap fun e => e.cmd.2.arrived?

variable [DecidableEq K]

/-! ## The evaluations of a vector -/

/-- Steps evaluated one after another, with the bodies of those before. -/
def evaluationsFrom (target : Target K X P) (body : P → B) :
    List (Step K Q X) → OrderedMap K B → List (Step K Q X × P × (K → Option B))
  | [], _ => []
  | step :: rest, prior =>
      (step, target.respond step.id, prior.get)
        :: evaluationsFrom target body rest (prior.set step.id (body (target.respond step.id)))

def priorAfter (target : Target K X P) (body : P → B) (steps : List (Step K Q X)) (prior : OrderedMap K B) :
    OrderedMap K B :=
  steps.foldl (fun prior step => prior.set step.id (body (target.respond step.id))) prior

lemma evaluationsFrom_snoc (target : Target K X P) (body : P → B) (steps : List (Step K Q X))
    (step : Step K Q X) (prior : OrderedMap K B) :
    evaluationsFrom target body (steps ++ [step]) prior = evaluationsFrom target body steps prior
      ++ [(step, target.respond step.id, (priorAfter target body steps prior).get)] := by
  induction steps generalizing prior with
  | nil => rfl
  | cons first rest ih => exact congrArg (_ :: ·) (ih _)

lemma priorAfter_snoc (target : Target K X P) (body : P → B) (steps : List (Step K Q X))
    (step : Step K Q X) (prior : OrderedMap K B) :
    priorAfter target body (steps ++ [step]) prior
      = (priorAfter target body steps prior).set step.id (body (target.respond step.id)) := by
  simp [priorAfter]

lemma evaluationsFrom_fst (target : Target K X P) (body : P → B) (steps : List (Step K Q X))
    (prior : OrderedMap K B) : (evaluationsFrom target body steps prior).map Prod.fst = steps := by
  induction steps generalizing prior with
  | nil => rfl
  | cons first rest ih => exact congrArg (first :: ·) (ih _)

/-- More steps are evaluated after the first ones. -/
lemma evaluationsFrom_begins (target : Target K X P) (body : P → B) (steps later : List (Step K Q X))
    (prior : OrderedMap K B) :
    evaluationsFrom target body steps prior <+: evaluationsFrom target body (steps ++ later) prior := by
  induction steps generalizing prior with
  | nil => exact List.nil_prefix
  | cons first rest ih => exact List.cons_prefix_cons.mpr ⟨rfl, ih _⟩

/-! ## The invariant -/

/-- **What was done is what the runner noted.** -/
structure Coherent (target : Target K X P) (who : Runner) (body : P → B) (order : List (Mark K Q X))
    (n : Notes K Q X P B F) (h : Past K Q X P B F) (s : Net K Q X) : Prop where
  thrown : ∀ id ∈ n.thrown, ∃ step ∈ startedIn order, step.id = id ∧ target.throws step.expect = true
    ∧ who = .TypeScript
  order : n.past ++ n.todo = order
  sent : s.sent = n.begun
  started : startedBy h = n.begun
  arrived : arrivedBy h = s.arrived
  heard : ∀ e ∈ n.heard, e.1 ∈ s.arrived ∧ s.sent[e.1]?.map (fun step => target.respond step.id) = some e.2
  evaluated : evaluatedBy h = evaluationsFrom target body (evaluatedIn n.past) Table.empty
  prior : n.journal.priorBodies = priorAfter target body (evaluatedIn n.past) Table.empty
  outcomes : n.journal.outcomes.map Prod.fst = (evaluatedIn n.past).map Step.id
  reset : ∀ status ∈ n.reset, status = target.reset

variable {target : Target K X P} {who : Runner} {body : P → B} {order : List (Mark K Q X)} {n : Notes K Q X P B F}
variable {h : Past K Q X P B F} {s : Net K Q X}

omit [DecidableEq K] in
/-- What the next step adds to what is seen. -/
lemma seen_snoc (e : Entry (Option ℕ × RunnerCall K Q X P B F) (Tagged (Option ℕ) (RunnerReply K Q X P B F))
    (Net K Q X)) : startedBy (h ++ [e]) = startedBy h ++ e.cmd.2.started?.toList
      ∧ evaluatedBy (h ++ [e]) = evaluatedBy h ++ (e.cmd.2.evaluated? e.reply).toList
      ∧ arrivedBy (h ++ [e]) = arrivedBy h ++ e.cmd.2.arrived?.toList := by
  simp only [startedBy, evaluatedBy, arrivedBy, List.filterMap_append]
  refine ⟨congrArg _ ?_, congrArg _ ?_, congrArg _ ?_⟩
  · cases hs : e.cmd.2.started? <;> simp [hs]
  · cases hs : e.cmd.2.evaluated? e.reply <;> simp [hs]
  · cases hs : e.cmd.2.arrived? <;> simp [hs]

/-- A response has a place in the vector once its step is begun, and keeps it. -/
lemma Coherent.heardStep (hc : Coherent target who body order n h s) {step : Step K Q X} {response : P}
    (hheard : n.Heard step response) :
    response = target.respond step.id ∧ ∃ request ∈ arrivedBy h, n.begun[request]? = some step := by
  obtain ⟨request, hmem, hbegun⟩ := hheard
  obtain ⟨harrived, hresponse⟩ := hc.heard _ hmem
  rw [hc.sent, hbegun] at hresponse
  exact ⟨(Option.some.inj hresponse).symm, request, hc.arrived ▸ harrived, hbegun⟩

/-- A runner's call that is neither a start, nor a wait, nor an evaluation. -/
lemma Coherent.quiet (hc : Coherent target who body order n h s) {c : RunnerCall K Q X P B F}
    {r : RunnerReply K Q X P B F c} {i : Option ℕ} (hs : c.started? = none) (he : c.evaluated? r = none)
    (ha : c.arrived? = none) (s₀ s₁ : Net K Q X) :
    Coherent target who body order n (h ++ [⟨s₀, (i, c), r, s₁⟩]) s := by
  obtain ⟨hstarted, hevaluated, harrived⟩ := seen_snoc (h := h) ⟨s₀, (i, c), r, s₁⟩
  refine { hc with started := ?_, evaluated := ?_, arrived := ?_ }
  · rw [hstarted, hc.started]
    simp [hs]
  · rw [harrived, hc.arrived]
    simp [ha]
  · rw [hevaluated, hc.evaluated]
    simp [he]

/-- A start. -/
lemma Coherent.start (hc : Coherent target who body order n h s) {step : Step K Q X} {rest : List (Mark K Q X)}
    (htodo : n.todo = .Started step :: rest) (s₀ s₁ : Net K Q X) :
    Coherent target who body order n.advance (h ++ [⟨s₀, (none, .Start step), (), s₁⟩])
      { s with sent := s.sent ++ [step] } := by
  obtain ⟨hstarted, hevaluated, harrived⟩ := seen_snoc (h := h)
    (⟨s₀, (none, .Start step), (), s₁⟩ : Entry _ (Tagged (Option ℕ) (RunnerReply K Q X P B F)) _)
  have hreach := Notes.reaches_advance htodo
  have hbegun : n.advance.begun = n.begun ++ [step] := by simpa using hreach.begun
  have hevaluatedIn : evaluatedIn n.advance.past = evaluatedIn n.past := by simp [hreach.past]
  refine ⟨hc.thrown, ?_, ?_, ?_, ?_, ?_, ?_, ?_, ?_, hc.reset⟩
  · rw [hreach.past, List.append_assoc, ← hreach.todo, hc.order]
  · rw [hbegun, ← hc.sent]
  · rw [hstarted, hc.started, hbegun]
    rfl
  · rw [harrived, hc.arrived]
    simp [RunnerCall.arrived?]
  · intro e he
    obtain ⟨harr, hresponse⟩ := hc.heard e he
    refine ⟨harr, ?_⟩
    obtain ⟨first, hfirst, hid⟩ := Option.map_eq_some_iff.mp hresponse
    rw [List.getElem?_append_left (List.getElem?_eq_some_iff.mp hfirst).1, hfirst]
    exact congrArg some hid
  · rw [hevaluated, hc.evaluated, hevaluatedIn]
    simp [RunnerCall.evaluated?]
  · rw [hevaluatedIn]
    exact hc.prior
  · rw [hevaluatedIn]
    exact hc.outcomes

/-- A wait that ended. -/
lemma Coherent.await (hc : Coherent target who body order n h s) {requests : List ℕ}
    {responses : Responses P requests} (harrived : ∀ request ∈ requests, request ∈ s.arrived)
    (hresponses : responses.1.map some
      = requests.map fun request => s.sent[request]?.map fun step => target.respond step.id)
    (s₀ s₁ : Net K Q X) :
    Coherent target who body order (n.hear requests responses.1)
      (h ++ [⟨s₀, (none, .Await requests), responses, s₁⟩]) s := by
  have hquiet := hc.quiet (c := .Await requests) (r := responses) (i := none) rfl rfl rfl s₀ s₁
  refine { hquiet with heard := ?_ }
  intro e he
  rcases List.mem_append.mp he with he | he
  · exact hc.heard e he
  · obtain ⟨i, hi, rfl⟩ := List.mem_iff_getElem.mp he
    rw [List.length_zip] at hi
    have hrequest : i < requests.length := by omega
    refine ⟨by simpa using harrived _ (List.getElem_mem hrequest), ?_⟩
    have hat := congrArg (fun l => l[i]?) hresponses
    have hi' : i < responses.1.length := by omega
    simpa [hrequest, hi', eq_comm] using hat

/-- An evaluation with an outcome, by either command. -/
lemma Coherent.evaluate (hc : Coherent target who body order n h s) {step : Step K Q X} {response : P}
    {prior : K → Option B} {failures : List F} (hdue : n.Due step response prior)
    {c : RunnerCall K Q X P B F} {r : RunnerReply K Q X P B F c} (hs : c.started? = none)
    (he : c.evaluated? r = some (step, response, prior)) (ha : c.arrived? = none) (s₀ s₁ : Net K Q X) :
    Coherent target who body order (n.evaluated body step response failures)
      (h ++ [⟨s₀, (none, c), r, s₁⟩]) s := by
  obtain ⟨hstarted, hevaluated, harrived⟩ := seen_snoc (h := h)
    (⟨s₀, (none, c), r, s₁⟩ : Entry _ (Tagged (Option ℕ) (RunnerReply K Q X P B F)) _)
  obtain ⟨hprior, hheard, group, rest, htodo, -⟩ := hdue
  have hreach := Notes.reaches_advance htodo
  have hbegun : n.advance.begun = n.begun := by simpa using hreach.begun
  have hevaluatedIn : evaluatedIn n.advance.past = evaluatedIn n.past ++ [step] := by simp [hreach.past]
  obtain ⟨rfl, -⟩ := hc.heardStep hheard
  refine ⟨hc.thrown, ?_, ?_, ?_, ?_, hc.heard, ?_, ?_, ?_, hc.reset⟩
  · show n.advance.past ++ n.advance.todo = order
    rw [hreach.past, List.append_assoc, ← hreach.todo, hc.order]
  · exact hc.sent.trans hbegun.symm
  · show _ = n.advance.begun
    rw [hstarted, hc.started, hbegun, hs]
    simp
  · rw [harrived, hc.arrived, ha]
    simp
  · show _ = evaluationsFrom target body (evaluatedIn n.advance.past) Table.empty
    rw [hevaluated, hc.evaluated, hevaluatedIn, evaluationsFrom_snoc, ← hc.prior, he, hprior]
    rfl
  · show (n.journal.add _ _ _).priorBodies = priorAfter target body (evaluatedIn n.advance.past) Table.empty
    rw [hevaluatedIn, priorAfter_snoc, ← hc.prior]
    rfl
  · show (n.journal.add _ _ _).outcomes.map Prod.fst = (evaluatedIn n.advance.past).map Step.id
    rw [hevaluatedIn, List.map_append, ← hc.outcomes]
    simp [Journal.add]

/-- An evaluation that threw. -/
lemma Coherent.throw (hc : Coherent target who body order n h s) {step : Step K Q X} {response : P}
    {prior : K → Option B} {invocations : Option ℤ} (hwho : who = .TypeScript) (hdue : n.Due step response prior)
    (hthrows : target.throws step.expect = true) (s₀ s₁ : Net K Q X) :
    Coherent target who body order { n with thrown := some step.id }
      (h ++ [⟨s₀, (none, .EvaluateExpect step response prior invocations), none, s₁⟩]) s := by
  obtain ⟨-, ⟨request, -, hbegun⟩, -⟩ := hdue
  have hquiet := hc.quiet (c := .EvaluateExpect step response prior invocations) (r := none) (i := none)
    rfl rfl rfl s₀ s₁
  refine { hquiet with thrown := ?_ }
  rintro id hid
  obtain rfl := Option.some.inj hid
  refine ⟨step, ?_, rfl, hthrows, hwho⟩
  rw [← hc.order, startedIn_append]
  exact List.mem_append_left _ (List.mem_of_getElem? hbegun)

/-- An arrival. -/
lemma Coherent.arrive (hc : Coherent target who body order n h s) (request : ℕ) (i : Option ℕ)
    (s₀ s₁ : Net K Q X) :
    Coherent target who body order n (h ++ [⟨s₀, (i, .Arrive request), (), s₁⟩])
      { s with arrived := s.arrived ++ [request] } := by
  obtain ⟨hstarted, hevaluated, harrived⟩ := seen_snoc (h := h)
    (⟨s₀, (i, .Arrive request), (), s₁⟩ : Entry _ (Tagged (Option ℕ) (RunnerReply K Q X P B F)) _)
  refine { hc with started := ?_, evaluated := ?_, arrived := ?_, heard := ?_ }
  · rw [hstarted, hc.started]
    simp [RunnerCall.started?]
  · rw [harrived, hc.arrived]
    rfl
  · intro e he
    obtain ⟨harr, hresponse⟩ := hc.heard e he
    exact ⟨List.mem_append_left _ harr, hresponse⟩
  · rw [hevaluated, hc.evaluated]
    simp [RunnerCall.evaluated?]

/-! ## The contracts of all parties -/

/-- The response to a request arrives, and does nothing else.  A runner throws nothing. -/
def partyContract (who : Runner) (body : P → B) :
    Option ℕ → Contract (RunnerCall K Q X P B F) (RunnerReply K Q X P B F) (Notes K Q X P B F)
  | none => contract body who false
  | some request => { note := fun n _ => n, asks := fun _ c => c = .Arrive request }

/-- What the runner has returned. -/
def partyReturns (steps : List (Step K Q X)) :
    Option ℕ → Notes K Q X P B F → Option (VectorResult K F) → Prop
  | none, n, returned => ∃ result, returned = some result ∧ Returns steps n result
  | some _, _, _ => True

/-- A runner that follows the plan of the vector. -/
abbrev Follows (who : Runner) (body : P → B) (steps : List (Step K Q X))
    (run : RunnerProg K Q X P B F (VectorResult K F)) : Prop :=
  run.Meets (contract body who false) (Returns steps) (Notes.start steps)

variable {steps : List (Step K Q X)} {run : RunnerProg K Q X P B F (VectorResult K F)}

lemma meets_party (hrun : Follows who body steps run) (i : Option ℕ) :
    (party run i).Meets (partyContract who body i) (partyReturns steps i) (Notes.start steps) := by
  cases i with
  | none => exact meets_bind_iff.mpr (hrun.mono fun n result hresult => ⟨result, rfl, hresult⟩)
  | some request => exact ⟨rfl, fun _ => trivial⟩

/-- The notes of the runner. -/
def notesOf (body : P → B) (steps : List (Step K Q X)) (h : Past K Q X P B F) : Notes K Q X P B F :=
  (traceOf none h).foldl (noteReply body) (Notes.start steps)

/-- What each call satisfies. -/
def Promised (who : Runner) (body : P → B) (steps : List (Step K Q X)) (h : Past K Q X P B F) (_ : Net K Q X) :
    Option ℕ × RunnerCall K Q X P B F → Prop
  | (none, c) => asks who false (notesOf body steps h) c
  | (some request, c) => c = .Arrive request

lemma Running.promised {cfg : System K Q X P B F} (hrun : Follows who body steps run)
    (hcfg : Running target run cfg) :
    History (Promised who body steps) target.net {} cfg.history cfg.state := by
  refine (Interleave.promises (meets_party hrun) hcfg).mono ?_
  rintro h s ⟨i, c⟩ hasks
  cases i with
  | none => exact hasks
  | some request => exact hasks

lemma notesOf_snoc (i : Option ℕ) (c : RunnerCall K Q X P B F) (r : RunnerReply K Q X P B F c)
    (s₀ s₁ : Net K Q X) : notesOf body steps (h ++ [⟨s₀, (i, c), r, s₁⟩])
      = if i = none then noteReply body (notesOf body steps h) ⟨c, r⟩ else notesOf body steps h := by
  rw [notesOf, traceOf_snoc]
  split_ifs with hi
  · rw [List.foldl_append]
    rfl
  · rfl

/-- **Every run is coherent.** -/
lemma coherent (hh : History (Promised who body steps) target.net {} h s) :
    Coherent target who body (planned steps).1 (notesOf body steps h) h s := by
  refine History.invariant (P := fun h s =>
    Coherent target who body (planned steps).1 (notesOf body steps h) h s) ?_ ?_ hh
  · refine ⟨?_, rfl, rfl, rfl, rfl, ?_, rfl, rfl, rfl, ?_⟩
    · simp [notesOf, Notes.start]
    · simp [notesOf, Notes.start]
    · simp [notesOf, Notes.start]
  · rintro h s ⟨i, c⟩ r s' - hc ha ho
    rw [notesOf_snoc]
    cases i with
    | some request =>
        obtain rfl : c = .Arrive request := ha
        obtain ⟨-, -, -, rfl⟩ := ho
        exact hc.arrive request _ _ _
    | none =>
        rw [if_pos rfl]
        cases c with
        | Reset =>
            obtain ⟨rfl, rfl⟩ := ho
            have hquiet := hc.quiet (c := .Reset) (r := target.reset) (i := none) rfl rfl rfl s' s'
            exact { hquiet with reset := fun status hstatus => (Option.some.inj hstatus).symm }
        | Sleep ms =>
            obtain rfl := ho
            exact hc.quiet rfl rfl rfl _ _
        | Start step =>
            obtain ⟨rest, htodo⟩ := ha
            obtain rfl := ho
            exact hc.start htodo _ _
        | Await requests =>
            obtain ⟨harrived, hresponses, rfl⟩ := ho
            exact hc.await harrived hresponses _ _
        | Counter =>
            obtain rfl := ho
            exact hc.quiet rfl rfl rfl _ _
        | EvaluateExpect step response prior invocations =>
            obtain ⟨hthrows, rfl⟩ := ho
            cases r with
            | none => exact hc.throw ha.1 ha.2 (hthrows.mp rfl) _ _
            | some failures => exact hc.evaluate ha.2 rfl rfl rfl _ _
        | Evaluate step response prior invocations =>
            obtain rfl := ho
            exact hc.evaluate ha.2 rfl rfl rfl _ _
        | Throw step outcomes => exact Empty.elim r
        | Arrive request => exact False.elim ha

end

end Anyonce.Conformance
