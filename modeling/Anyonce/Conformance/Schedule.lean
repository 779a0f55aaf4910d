import Anyonce.Conformance.Runs

/-!
# The schedule of a conformance vector

Whatever the order in which the responses arrive, both runners keep to the order of the vector.

* `Scheduled` — what was done when, up to any moment of a run.
* `Ended` — what a run that returned has done.
* `scheduling_exact` — every run of either runner is so, none gets stuck, and any two that returned evaluated
  the same steps in the same order with the same earlier bodies.
* `other_errors_stop_runs` — except that a refused reset stops a run before the first step, and an
  `evaluateExpect` that throws stops a TypeScript run at its step.
-/

namespace Anyonce.Conformance

open Interaction Prog Relational

open scoped List

section

variable {K Q X P B F : Type} [DecidableEq K]

/-- **The schedule of a vector is kept**, up to some moment. -/
structure Scheduled (steps : List (Step K Q X)) (h : Past K Q X P B F) : Prop where
  /-- Steps start in the order of the vector, and a step without partners when all before it are evaluated. -/
  start : ∀ {h₁ e h₂ step}, h = h₁ ++ e :: h₂ → e.cmd.2.started? = some step →
    (∃ later, steps = startedBy h₁ ++ step :: later)
      ∧ (step.partners = [] →
        ∀ earlier ∈ startedBy h₁, earlier.id ∈ (evaluatedBy h₁).map fun evaluated => evaluated.1.id)
  /-- A step is evaluated when the responses to all steps of its group have arrived. -/
  evaluate : ∀ {h₁ e h₂ step response prior}, h = h₁ ++ e :: h₂ →
    e.cmd.2.evaluated? e.reply = some (step, response, prior) →
    ∃ group, .Evaluated group step ∈ (planned steps).1 ∧ Grouped (deferredIds steps) group step
      ∧ ∀ member ∈ group, ∃ request ∈ arrivedBy h₁, steps[request]? = some member

/-- **A run that returned**: it stopped where the plan stops, or at a step for which `evaluateExpect` throws,
or every step was started once, in order, and evaluated once, with one outcome. -/
structure Ended (target : Target K X P) (runner : Runner) (steps : List (Step K Q X)) (h : Past K Q X P B F)
    (result : VectorResult K F) : Prop where
  error : result.error = ((planned steps).2.map fun stop => .NotPending stop.1 stop.2)
    ∨ ∃ step ∈ steps, result.error = some (.Threw step.id) ∧ target.throws step.expect = true
      ∧ runner = .TypeScript
  start : result.error = none → startedBy h = steps
  evaluate : result.error = none → (evaluatedBy h).map Prod.fst ~ steps
  outcomes : result.steps.map Prod.fst = (evaluatedBy h).map fun evaluated => evaluated.1.id

/-- The run was ended by an error that was thrown while a step was evaluated. -/
def VectorResult.Threw (result : VectorResult K F) : Prop := ∃ step, result.error = some (.Threw step)

/-- The run can take one more step. -/
def GoesOn (target : Target K X P) (run : RunnerProg K Q X P B F (VectorResult K F))
    (cfg : System K Q X P B F) : Prop :=
  ∃ cfg' e, Running target run cfg' ∧ cfg'.history = cfg.history ++ [e]

variable {target : Target K X P} {who : Runner} {body : P → B} {steps : List (Step K Q X)}
variable {run : RunnerProg K Q X P B F (VectorResult K F)} {h : Past K Q X P B F} {s : Net K Q X}

/-! ## Up to any moment -/

lemma Coherent.begun_lt (hc : Coherent target who body (planned steps).1 (notesOf body steps h) h s)
    {step : Step K Q X} {rest : List (Mark K Q X)}
    (htodo : (notesOf body steps h).todo = .Started step :: rest) :
    ∃ later, steps = startedBy h ++ step :: later := by
  have hprefix := plan_started (deferredIds steps) steps []
  have horder : startedIn (planned steps).1 = startedBy h ++ step :: startedIn rest := by
    rw [← hc.order, htodo, hc.started]
    simp [Notes.begun]
  obtain ⟨later, hlater⟩ := hprefix
  exact ⟨startedIn rest ++ later, by rw [← hlater, ← planned, horder]; simp⟩

lemma Coherent.evaluated_ids (hc : Coherent target who body (planned steps).1 (notesOf body steps h) h s) :
    (evaluatedBy h).map (fun evaluated => evaluated.1.id)
      = (evaluatedIn (notesOf body steps h).past).map Step.id := by
  rw [hc.evaluated, ← evaluationsFrom_fst target body (evaluatedIn _) Table.empty, List.map_map]
  rw [evaluationsFrom_fst]
  rfl

/-- What was begun has its place in the vector. -/
lemma Coherent.place (hc : Coherent target who body (planned steps).1 (notesOf body steps h) h s) {request : ℕ}
    {step : Step K Q X} (hbegun : (notesOf body steps h).begun[request]? = some step) :
    steps[request]? = some step := by
  obtain ⟨later, hlater⟩ := plan_started (deferredIds steps) steps []
  have horder : startedIn (planned steps).1
      = (notesOf body steps h).begun ++ startedIn (notesOf body steps h).todo := by
    rw [← hc.order, startedIn_append]
    rfl
  rw [← hlater, ← planned, horder, List.append_assoc,
    List.getElem?_append_left (List.getElem?_eq_some_iff.mp hbegun).1, hbegun]

/-- What was evaluated was due. -/
lemma due_of_evaluated {n : Notes K Q X P B F} {c : RunnerCall K Q X P B F} {r : RunnerReply K Q X P B F c}
    (hasks : asks who false n c) {step : Step K Q X} {response : P} {prior : K → Option B}
    (h : c.evaluated? r = some (step, response, prior)) : n.Due step response prior := by
  cases c with
  | EvaluateExpect step' response' prior' invocations =>
      cases r with
      | none => cases h
      | some failures =>
          cases h
          exact hasks.2
  | Evaluate step' response' prior' invocations =>
      cases h
      exact hasks.2
  | _ => cases h

/-- **The schedule is kept.** -/
lemma scheduled (hdistinct : Distinct steps) (hh : History (Promised who body steps) target.net {} h s) :
    Scheduled steps h where
  start := by
    rintro h₁ ⟨s₀, ⟨i, c⟩, r, s₁⟩ h₂ step rfl hstarted
    obtain ⟨hpast, hpromise, -⟩ := hh.at_entry
    have hc := coherent hpast
    cases i with
    | some request =>
        obtain rfl : c = .Arrive request := hpromise
        cases hstarted
    | none =>
        cases c with
        | Start first =>
            obtain rfl := Option.some.inj hstarted
            obtain ⟨rest, htodo⟩ := hpromise
            refine ⟨hc.begun_lt htodo, fun hpartners earlier hearlier => ?_⟩
            have horderly := plan_orderly (deferredIds steps) (show Distinct ([] ++ steps) from hdistinct)
            rw [← planned, ← hc.order, htodo] at horderly
            rw [hc.evaluated_ids]
            exact horderly.evaluated hpartners earlier (by simpa [hc.started, Notes.begun] using hearlier)
        | _ => cases hstarted
  evaluate := by
    rintro h₁ ⟨s₀, ⟨i, c⟩, r, s₁⟩ h₂ step response prior rfl hevaluated
    obtain ⟨hpast, hpromise, -⟩ := hh.at_entry
    have hc := coherent hpast
    cases i with
    | some request =>
        obtain rfl : c = .Arrive request := hpromise
        cases hevaluated
    | none =>
        obtain ⟨-, -, group, rest, htodo, hgroup⟩ := due_of_evaluated hpromise hevaluated
        have hmem : .Evaluated group step ∈ (planned steps).1 := by
          rw [← hc.order, htodo]
          simp
        refine ⟨group, hmem, plan_group (by simp) hmem, fun member hmember => ?_⟩
        obtain ⟨r', hr'⟩ := hgroup member hmember
        obtain ⟨-, request, hrequest, hbegun⟩ := hc.heardStep hr'
        exact ⟨request, hrequest, hc.place hbegun⟩

/-! ## At the end -/

/-- What a run that returned has noted. -/
lemma Running.returns {cfg : System K Q X P B F} (hrun : Follows who body steps run)
    (hcfg : Running target run cfg) {result : VectorResult K F} (hret : Returned cfg result) :
    Returns steps (notesOf body steps cfg.history) result := by
  have hmeets := Interleave.meets (meets_party hrun) hcfg none
  rw [show cfg.pool none = Ret (some result) from hret] at hmeets
  obtain ⟨result', heq, hresult⟩ := hmeets
  obtain rfl := Option.some.inj heq
  exact hresult

/-- A target that accepts the reset. -/
def Target.Accepts (target : Target K X P) : Prop := 200 ≤ target.reset ∧ target.reset < 300

/-- With the reset accepted, a run that returned has the plan behind it, or threw. -/
lemma Running.finished {cfg : System K Q X P B F} (hrun : Follows who body steps run) (haccepts : target.Accepts)
    (hcfg : Running target run cfg) {result : VectorResult K F} (hret : Returned cfg result) :
    result.steps = (notesOf body steps cfg.history).journal.outcomes
      ∧ ((notesOf body steps cfg.history).past = (planned steps).1
          ∧ result.error = ((planned steps).2.map fun stop => .NotPending stop.1 stop.2)
        ∨ ∃ id ∈ (notesOf body steps cfg.history).thrown, result.error = some (.Threw id)) := by
  have hc := coherent (hcfg.promised hrun)
  have hresult := hcfg.returns hrun hret
  cases hthrown : (notesOf body steps cfg.history).thrown with
  | some id =>
      rw [Returns, hthrown] at hresult
      exact ⟨hresult.1, Or.inr ⟨id, rfl, hresult.2⟩⟩
  | none =>
      rw [Returns, hthrown] at hresult
      obtain ⟨status, hstatus, hresult⟩ := hresult
      obtain rfl := hc.reset status hstatus
      rw [if_neg (by obtain ⟨hle, hlt⟩ := haccepts; omega)] at hresult
      obtain ⟨htodo, houtcomes, herror⟩ := hresult
      refine ⟨houtcomes, Or.inl ⟨?_, herror⟩⟩
      rw [← hc.order, htodo, List.append_nil]

/-- A run that did not throw has the plan behind it. -/
lemma Running.finished_of_not_threw {cfg : System K Q X P B F} (hrun : Follows who body steps run)
    (haccepts : target.Accepts) (hcfg : Running target run cfg) {result : VectorResult K F}
    (hret : Returned cfg result) (hnot : ¬ result.Threw) :
    (notesOf body steps cfg.history).past = (planned steps).1
      ∧ result.error = (planned steps).2.map fun stop => .NotPending stop.1 stop.2 := by
  obtain ⟨-, hplan | ⟨id, -, hthrew⟩⟩ := hcfg.finished hrun haccepts hret
  · exact hplan
  · exact absurd ⟨id, hthrew⟩ hnot

/-- **A run that returned did all that the plan asks**, or threw. -/
lemma ended {cfg : System K Q X P B F} (hrun : Follows who body steps run) (haccepts : target.Accepts)
    (hdistinct : Distinct steps) (hpartners : ∀ step ∈ steps, step.partners.Nodup)
    (hcfg : Running target run cfg) {result : VectorResult K F} (hret : Returned cfg result) :
    Ended target who steps cfg.history result := by
  have hc := coherent (hcfg.promised hrun)
  obtain ⟨houtcomes, hend⟩ := hcfg.finished hrun haccepts hret
  have hplan : result.error = none →
      (notesOf body steps cfg.history).past = (planned steps).1 ∧ (planned steps).2 = none := by
    intro hnone
    rcases hend with ⟨hpast, herror⟩ | ⟨id, -, hthrew⟩
    · exact ⟨hpast, by simpa [herror] using hnone⟩
    · rw [hnone] at hthrew
      cases hthrew
  refine ⟨?_, fun hnone => ?_, fun hnone => ?_, ?_⟩
  · rcases hend with ⟨-, herror⟩ | ⟨id, hthrown, herror⟩
    · exact Or.inl herror
    · obtain ⟨step, hstep, rfl, hthrows, hwho⟩ := hc.thrown id hthrown
      exact Or.inr ⟨step, (plan_started (deferredIds steps) steps []).subset hstep, herror, hthrows, hwho⟩
  · obtain ⟨hpast, hstop⟩ := hplan hnone
    rw [hc.started, Notes.begun, hpast]
    exact plan_started_all hstop
  · obtain ⟨hpast, hstop⟩ := hplan hnone
    rw [hc.evaluated, evaluationsFrom_fst, hpast]
    exact plan_evaluated hdistinct hpartners hstop
  · rw [houtcomes, hc.outcomes, hc.evaluated_ids]

/-- What is evaluated is what the plan evaluates, or the beginning of it. -/
lemma Coherent.evaluated_begins
    (hc : Coherent target who body (planned steps).1 (notesOf body steps h) h s) :
    evaluatedBy h <+: evaluationsFrom target body (evaluatedIn (planned steps).1) Table.empty := by
  rw [hc.evaluated, ← hc.order, evaluatedIn_append]
  exact evaluationsFrom_begins ..

/-! ## Nothing gets stuck -/

/-- A response that has not arrived can still arrive. -/
lemma Running.arrival {cfg : System K Q X P B F} (hrun : Follows who body steps run)
    (hcfg : Running target run cfg) {request : ℕ} (hsent : request < cfg.state.sent.length)
    (hnew : request ∉ cfg.state.arrived) : GoesOn target run cfg := by
  have hsteps := Interleave.steps hcfg (some request)
  cases htrace : traceOf (some request) cfg.history with
  | nil =>
      rw [htrace] at hsteps
      refine ⟨_, _, Interleave.next hcfg (some request) (.Arrive request) () hsteps.of_nil trivial
        ⟨rfl, hsent, hnew, rfl⟩, rfl⟩
  | cons ev rest =>
      obtain ⟨e, hmem, hparty, hev⟩ := mem_traceOf.mp (htrace ▸ List.mem_cons_self)
      have hc := coherent (hcfg.promised hrun)
      obtain ⟨h₁, h₂, hsplit⟩ := List.append_of_mem hmem
      have hpromised := hcfg.promised hrun
      rw [hsplit] at hpromised
      obtain ⟨-, hpromise, -⟩ := hpromised.at_entry
      have hcmd : e.cmd = (some request, e.cmd.2) := by rw [← hparty]
      rw [hcmd] at hpromise
      have harrive : e.cmd.2 = .Arrive request := hpromise
      refine absurd ?_ hnew
      rw [← hc.arrived, arrivedBy, List.mem_filterMap]
      exact ⟨e, hmem, by rw [harrive]; rfl⟩

omit [DecidableEq K] in
/-- The replies to a wait for responses that have arrived. -/
lemma exists_responses (target : Target K X P) {sent : List (Step K Q X)} {requests : List ℕ}
    (hsent : ∀ request ∈ requests, request < sent.length) : ∃ responses : Responses P requests,
      responses.1.map some
        = requests.map fun request => sent[request]?.map fun step => target.respond step.id := by
  induction requests with
  | nil => exact ⟨⟨[], rfl⟩, rfl⟩
  | cons request rest ih =>
      obtain ⟨responses, hresponses⟩ := ih fun other hother => hsent other (List.mem_cons_of_mem _ hother)
      have hlt := hsent request List.mem_cons_self
      refine ⟨⟨target.respond (sent[request]).id :: responses.1, by simp [responses.2]⟩, ?_⟩
      simp [hresponses, List.getElem?_eq_getElem hlt]

/-- **A run goes on until its runner has returned.** -/
lemma Running.goesOn {cfg : System K Q X P B F} (hrun : Follows who body steps run)
    (hcfg : Running target run cfg) : (∃ result, Returned cfg result) ∨ GoesOn target run cfg := by
  have hmeets := Interleave.meets (meets_party hrun) hcfg none
  have hc := coherent (hcfg.promised hrun)
  cases hpool : cfg.pool none with
  | Ret returned =>
      rw [hpool] at hmeets
      obtain ⟨result, rfl, -⟩ := hmeets
      exact Or.inl ⟨result, hpool⟩
  | Call c k =>
      rw [hpool] at hmeets
      have hasks : asks who false (notesOf body steps cfg.history) c := hmeets.1
      refine Or.inr ?_
      cases c with
      | Reset => exact ⟨_, _, Interleave.next hcfg none _ target.reset hpool trivial ⟨rfl, rfl⟩, rfl⟩
      | Sleep ms => exact ⟨_, _, Interleave.next hcfg none _ () hpool trivial rfl, rfl⟩
      | Start step => exact ⟨_, _, Interleave.next hcfg none _ () hpool trivial rfl, rfl⟩
      | Await requests =>
          by_cases harrived : ∀ request ∈ requests, request ∈ cfg.state.arrived
          · have hsent : ∀ request ∈ requests, request < cfg.state.sent.length := by
              rw [hc.sent]
              exact hasks
            obtain ⟨responses, hresponses⟩ := exists_responses target hsent
            exact ⟨_, _, Interleave.next hcfg none _ responses hpool trivial ⟨harrived, hresponses, rfl⟩, rfl⟩
          · push Not at harrived
            obtain ⟨request, hrequest, hnew⟩ := harrived
            exact hcfg.arrival hrun (hc.sent ▸ hasks request hrequest) hnew
      | Counter => exact ⟨_, _, Interleave.next hcfg none _ none hpool trivial rfl, rfl⟩
      | EvaluateExpect step response prior invocations =>
          cases hthrows : target.throws step.expect with
          | true => exact ⟨_, _, Interleave.next hcfg none _ none hpool trivial ⟨by simp [hthrows], rfl⟩, rfl⟩
          | false =>
              exact ⟨_, _, Interleave.next hcfg none _ (some []) hpool trivial ⟨by simp [hthrows], rfl⟩, rfl⟩
      | Evaluate step response prior invocations =>
          exact ⟨_, _, Interleave.next hcfg none _ [] hpool trivial rfl, rfl⟩
      | Throw step outcomes => exact absurd hasks.1 Bool.false_ne_true
      | Arrive request => exact False.elim hasks

/-! ## Both runners -/

/-- **Scheduling is exact, and the same in both runners.**  For a vector with distinct ids and partners that
are named once, whatever the order in which the responses arrive.  A run of the TypeScript runner that an
evaluation ended has evaluated the beginning of what any other run evaluates. -/
theorem scheduling_exact (counts : Runner → X → Bool) (body : P → B) {target : Target K X P}
    {steps : List (Step K Q X)} (haccepts : target.Accepts) (hdistinct : Distinct steps)
    (hpartners : ∀ step ∈ steps, step.partners.Nodup) :
    (∀ (runner : Runner) (cfg : System K Q X P B F),
      Running target (runner.runVector (counts runner) body steps) cfg →
      Scheduled steps cfg.history
        ∧ (∀ result, Returned cfg result → Ended target runner steps cfg.history result)
        ∧ ((∃ result, Returned cfg result)
          ∨ GoesOn target (runner.runVector (counts runner) body steps) cfg))
    ∧ ∀ (runner runner' : Runner) (cfg cfg' : System K Q X P B F) (result result' : VectorResult K F),
      Running target (runner.runVector (counts runner) body steps) cfg → Returned cfg result →
      Running target (runner'.runVector (counts runner') body steps) cfg' → Returned cfg' result' →
      ¬ result'.Threw →
      evaluatedBy cfg.history <+: evaluatedBy cfg'.history
        ∧ (¬ result.Threw →
          evaluatedBy cfg.history = evaluatedBy cfg'.history ∧ result.error = result'.error) := by
  have hfollows : ∀ runner : Runner, Follows runner body steps
      (runner.runVector (counts runner) body steps : RunnerProg K Q X P B F _) :=
    fun runner => runner.meets hdistinct hpartners
  constructor
  · intro runner cfg hcfg
    have hrun := hfollows runner
    refine ⟨scheduled hdistinct (hcfg.promised hrun), fun result hret => ?_, hcfg.goesOn hrun⟩
    exact ended hrun haccepts hdistinct hpartners hcfg hret
  · intro runner runner' cfg cfg' result result' hcfg hret hcfg' hret' hnot'
    have hc := coherent (hcfg.promised (hfollows runner))
    have hc' := coherent (hcfg'.promised (hfollows runner'))
    obtain ⟨hpast', herror'⟩ := hcfg'.finished_of_not_threw (hfollows runner') haccepts hret' hnot'
    refine ⟨?_, fun hnot => ?_⟩
    · rw [hc'.evaluated, hpast']
      exact hc.evaluated_begins
    · obtain ⟨hpast, herror⟩ := hcfg.finished_of_not_threw (hfollows runner) haccepts hret hnot
      rw [hc.evaluated, hc'.evaluated, hpast, hpast', herror, herror']
      exact ⟨rfl, rfl⟩

end

/-- Two steps, the second of which names the first. -/
def pair : List (Step ℕ Unit Unit) :=
  [{ id := 0, request := (), expect := () }, { id := 1, concurrentWith := some [0], request := (), expect := () }]

/-- A target that answers each step with its id. -/
def echo (throws : Bool) : Target ℕ Unit ℕ := ⟨200, id, fun _ => throws⟩

/-- Both runners, to their end, with the responses in either order. -/
theorem scheduling_exact_pair : ∃ (cfg cfg' : System ℕ Unit Unit ℕ ℕ ℕ) (result result' : VectorResult ℕ ℕ),
    Running (echo false) (Runner.TypeScript.runVector (fun _ => false) id pair) cfg ∧ Returned cfg result
      ∧ Running (echo false) (Runner.Go.runVector (fun _ => false) id pair) cfg' ∧ Returned cfg' result'
      ∧ arrivedBy cfg.history = [1, 0] ∧ arrivedBy cfg'.history = [0, 1]
      ∧ Ended (echo false) .TypeScript pair cfg.history result ∧ Ended (echo false) .Go pair cfg'.history result'
      ∧ evaluatedBy cfg.history = evaluatedBy cfg'.history := by
  have hexact := scheduling_exact (F := ℕ) (fun _ _ => false) id
    (⟨by decide, by decide⟩ : (echo false).Accepts)
    (show Distinct pair by simp [Distinct, pair]) (by simp [pair, Step.partners])
  have hrun₀ : Running (F := ℕ) (echo false) (Runner.TypeScript.runVector (fun _ => false) id pair) _ :=
    Interleave.start
  have hrun₁ := Interleave.next hrun₀ none .Reset (200 : ℤ) rfl trivial ⟨rfl, rfl⟩
  have hrun₂ := Interleave.next hrun₁ none (.Start _) () rfl trivial rfl
  have hrun₃ := Interleave.next hrun₂ none (.Start _) () rfl trivial rfl
  have hrun₄ := Interleave.next hrun₃ (some 1) (.Arrive 1) () rfl trivial
    ⟨rfl, Nat.one_lt_two, List.not_mem_nil, rfl⟩
  have hrun₅ := Interleave.next hrun₄ (some 0) (.Arrive 0) () rfl trivial
    ⟨rfl, Nat.zero_lt_two, by decide, rfl⟩
  have hrun₆ := Interleave.next hrun₅ none (.Await [0, 1]) ⟨[0, 1], rfl⟩ rfl trivial ⟨by decide, rfl, rfl⟩
  have hrun₇ := Interleave.next hrun₆ none (.EvaluateExpect _ 0 _ _) (some []) rfl trivial ⟨by decide, rfl⟩
  have hrun := Interleave.next hrun₇ none (.EvaluateExpect _ 1 _ _) (some []) rfl trivial ⟨by decide, rfl⟩
  have hrun₀' : Running (F := ℕ) (echo false) (Runner.Go.runVector (fun _ => false) id pair) _ :=
    Interleave.start
  have hrun₁' := Interleave.next hrun₀' none .Reset (200 : ℤ) rfl trivial ⟨rfl, rfl⟩
  have hrun₂' := Interleave.next hrun₁' none (.Start _) () rfl trivial rfl
  have hrun₃' := Interleave.next hrun₂' (some 0) (.Arrive 0) () rfl trivial
    ⟨rfl, Nat.zero_lt_one, List.not_mem_nil, rfl⟩
  have hrun₄' := Interleave.next hrun₃' none (.Start _) () rfl trivial rfl
  have hrun₅' := Interleave.next hrun₄' none (.Await [0]) ⟨[0], rfl⟩ rfl trivial ⟨by decide, rfl, rfl⟩
  have hrun₆' := Interleave.next hrun₅' (some 1) (.Arrive 1) () rfl trivial
    ⟨rfl, Nat.one_lt_two, by decide, rfl⟩
  have hrun₇' := Interleave.next hrun₆' none (.Await [1]) ⟨[1], rfl⟩ rfl trivial ⟨by decide, rfl, rfl⟩
  have hrun₈' := Interleave.next hrun₇' none (.Evaluate _ 0 _ _) [] rfl trivial rfl
  have hrun' := Interleave.next hrun₈' none (.Evaluate _ 1 _ _) [7] rfl trivial rfl
  have hpassed : ¬ (⟨.Pass, [(0, []), (1, [])], none⟩ : VectorResult ℕ ℕ).Threw := by simp [VectorResult.Threw]
  have hfailed : ¬ (⟨.Fail, [(0, []), (1, [7])], none⟩ : VectorResult ℕ ℕ).Threw := by simp [VectorResult.Threw]
  refine ⟨_, _, _, _, hrun, rfl, hrun', rfl, rfl, rfl, (hexact.1 .TypeScript _ hrun).2.1 _ rfl,
    (hexact.1 .Go _ hrun').2.1 _ rfl, ?_⟩
  exact ((hexact.2 .TypeScript .Go _ _ _ _ hrun rfl hrun' rfl hfailed).2 hpassed).1

/-- A vector of one step. -/
def single : List (Step ℕ Unit Unit) := [{ id := 0, request := (), expect := () }]

/-- **Two more errors stop a run.**  A runner whose reset is refused starts no step; and a TypeScript runner
for whose expectation `evaluateExpect` throws has no outcome for it.  In neither run is a partner missing. -/
theorem other_errors_stop_runs :
    (∃ (cfg : System ℕ Unit Unit ℕ ℕ ℕ) (result : VectorResult ℕ ℕ),
      Running ⟨500, id, fun _ => false⟩ (Runner.TypeScript.runVector (fun _ => false) id single) cfg
        ∧ Returned cfg result ∧ result.error = some (.ResetReturned 500) ∧ startedBy cfg.history ≠ single)
    ∧ ∃ (cfg : System ℕ Unit Unit ℕ ℕ ℕ) (result : VectorResult ℕ ℕ),
      Running (echo true) (Runner.TypeScript.runVector (fun _ => false) id single) cfg
        ∧ Returned cfg result ∧ result.error = some (.Threw 0) ∧ result.steps = []
        ∧ startedBy cfg.history = single ∧ arrivedBy cfg.history = [0] := by
  constructor
  · have hrun₀ : Running (F := ℕ) ⟨500, id, fun _ => false⟩
        (Runner.TypeScript.runVector (fun _ => false) id single) _ := Interleave.start
    have hrun := Interleave.next hrun₀ none .Reset (500 : ℤ) rfl trivial ⟨rfl, rfl⟩
    exact ⟨_, _, hrun, rfl, rfl, by simp [single, startedBy, RunnerCall.started?]⟩
  · have hrun₀ : Running (F := ℕ) (echo true) (Runner.TypeScript.runVector (fun _ => false) id single) _ :=
      Interleave.start
    have hrun₁ := Interleave.next hrun₀ none .Reset (200 : ℤ) rfl trivial ⟨rfl, rfl⟩
    have hrun₂ := Interleave.next hrun₁ none (.Start _) () rfl trivial rfl
    have hrun₃ := Interleave.next hrun₂ (some 0) (.Arrive 0) () rfl trivial
      ⟨rfl, Nat.zero_lt_one, List.not_mem_nil, rfl⟩
    have hrun₄ := Interleave.next hrun₃ none (.Await [0]) ⟨[0], rfl⟩ rfl trivial ⟨by decide, rfl, rfl⟩
    have hrun := Interleave.next hrun₄ none (.EvaluateExpect _ 0 _ _) none rfl trivial ⟨by decide, rfl⟩
    exact ⟨_, _, hrun, rfl, rfl, rfl, rfl, rfl⟩

end Anyonce.Conformance
