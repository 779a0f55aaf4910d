import Anyonce.Conformance.Plan
import Anyonce.Core.Program
import Anyonce.Core.Table

/-!
# The two conformance runners

`runVector` of `packages/conformance/src/run.ts` and of `go/conformance/run.go`.  A request is named by how
many were sent before it: `Start` sends the next one and does not wait, and `Await` waits for the responses
to the requests it names.  Both runners keep the steps that wait in variables of their own, the one in a map
that keeps the order of insertion, the other in a map and a slice of ids.

`counts` says whether an expectation asks for the handler invocations, and `body` is what is kept of a
response for later steps.  Evaluating a step is a command, so that a run shows when it is done and with which
earlier bodies.  A request that fails is left out: every response arrives.

`evaluate` of the Go runner lists its failures and goes on.  `evaluateExpect` of the TypeScript runner may
throw instead, and then the `catch` of `runVector` ends the run with the outcomes it has.
-/

namespace Anyonce.Conformance

open Interaction Relational

/-! ## Commands and results -/

/-- What a runner asks of its surroundings, and the arrival of a response beside it. -/
inductive RunnerCall (K Q X P B F : Type)
  | Reset
  | Sleep (ms : ℤ)
  | Start (step : Step K Q X)
  | Await (requests : List ℕ)
  | Counter
  /-- `evaluateExpect`. -/
  | EvaluateExpect (step : Step K Q X) (response : P) (prior : K → Option B) (invocations : Option ℤ)
  /-- `evaluate`. -/
  | Evaluate (step : Step K Q X) (response : P) (prior : K → Option B) (invocations : Option ℤ)
  /-- An error that is thrown while a step is evaluated, with the outcomes pushed before. -/
  | Throw (step : K) (outcomes : List (K × List F))
  | Arrive (request : ℕ)

/-- The responses to some requests, one for each. -/
abbrev Responses (P : Type) (requests : List ℕ) : Type := { rs : List P // rs.length = requests.length }

/-- What a command gives.  `evaluateExpect` may throw, which is `none`; and nothing follows what is thrown. -/
abbrev RunnerReply (K Q X P B F : Type) : RunnerCall K Q X P B F → Type
  | .Reset => ℤ
  | .Sleep _ => Unit
  | .Start _ => Unit
  | .Await requests => Responses P requests
  | .Counter => Option ℤ
  | .EvaluateExpect _ _ _ _ => Option (List F)
  | .Evaluate _ _ _ _ => List F
  | .Throw _ _ => Empty
  | .Arrive _ => Unit

/-- What stops a run.  `Threw` is what was thrown while a step was evaluated. -/
inductive RunError (K : Type)
  | ResetReturned (status : ℤ)
  | NotPending (step partner : K)
  | Threw (step : K)

/-- How a vector ended. -/
inductive VectorStatus
  | Pass
  | Fail
  | Error
  deriving DecidableEq

/-- The outcome of a vector: its status, the failures of each step, and the error that stopped it. -/
structure VectorResult (K F : Type) where
  status : VectorStatus
  steps : List (K × List F)
  error : Option (RunError K) := none

/-- What was evaluated so far: the outcomes, and the bodies kept for later steps. -/
structure Journal (K B F : Type) where
  outcomes : List (K × List F) := []
  priorBodies : OrderedMap K B := Table.empty

/-- The journal when a step was evaluated. -/
def Journal.add {K B F : Type} [DecidableEq K] (journal : Journal K B F) (id : K) (failures : List F)
    (kept : B) : Journal K B F where
  outcomes := journal.outcomes ++ [(id, failures)]
  priorBodies := journal.priorBodies.set id kept

section

variable {K Q X P B F : Type} [DecidableEq K]

abbrev RunnerProg (K Q X P B F α : Type) : Type :=
  Prog (RunnerCall K Q X P B F) (RunnerReply K Q X P B F) α

/-- Issue one command of a runner. -/
abbrev runnerAsk (c : RunnerCall K Q X P B F) : RunnerProg K Q X P B F (RunnerReply K Q X P B F c) :=
  Prog.call c

variable (counts : X → Bool) (body : P → B)

/-- How a runner evaluates one step, with the journal of those before. -/
abbrev Evaluator (K Q X P B F : Type) : Type :=
  Step K Q X → P → Option ℤ → Journal K B F → RunnerProg K Q X P B F (List F)

/-- The loop of `evaluateGroup`. -/
def evaluateEach (evaluate : Evaluator K Q X P B F) (invocations : Option ℤ) :
    List (Step K Q X × P) → Journal K B F → RunnerProg K Q X P B F (Journal K B F)
  | [], journal => pure journal
  | (step, response) :: rest, journal => do
      let failures ← evaluate step response invocations journal
      evaluateEach evaluate invocations rest (journal.add step.id failures (body response))

/-- The counter, which is read for a group that asks for it. -/
def readCounter (needsCounter : Bool) : RunnerProg K Q X P B F (Option ℤ) :=
  if needsCounter then runnerAsk .Counter else pure none

/-- What the outcomes come to. -/
def statusOf (outcomes : List (K × List F)) : VectorStatus :=
  if outcomes.all fun outcome => outcome.2.isEmpty then .Pass else .Fail

/-! ## TypeScript -/

/-- The variables of `runVector`. -/
structure RunState (K Q X B F : Type) where
  journal : Journal K B F := {}
  pending : OrderedMap K (Step K Q X × ℕ) := Table.empty
  sent : ℕ := 0

/-- One call of `evaluateExpect`; an error leaves the loop. -/
def evaluateOne : Evaluator K Q X P B F := fun step response invocations journal => do
  let outcome ← runnerAsk (.EvaluateExpect step response journal.priorBodies.get invocations)
  match outcome with
  | some failures => pure failures
  | none => do
      let never ← runnerAsk (.Throw step.id journal.outcomes)
      nomatch never

def evaluateGroup (group : List (Step K Q X × P)) (journal : Journal K B F) :
    RunnerProg K Q X P B F (Journal K B F) := do
  let invocations ← readCounter (group.any fun g => counts g.1.expect)
  evaluateEach body evaluateOne invocations group journal

/-- Waits for every response that is pending and evaluates them, in the order in which they were started. -/
def settlePending (st : RunState K Q X B F) : RunnerProg K Q X P B F (RunState K Q X B F) :=
  if st.pending.rows = [] then pure st
  else do
    let entries := st.pending.rows.map Prod.snd
    let responses ← runnerAsk (.Await (entries.map Prod.snd))
    let journal ← evaluateGroup counts body ((entries.map Prod.fst).zip responses.1) st.journal
    pure { st with journal, pending := Table.empty }

/-- A step without partners waits until all that is pending is settled. -/
def settleBefore (step : Step K Q X) (st : RunState K Q X B F) :
    RunnerProg K Q X P B F (RunState K Q X B F) :=
  if step.partners = [] then settlePending counts body st else pure st

/-- `if (step.delayMs) await sleep(step.delayMs)`. -/
def sleep (step : Step K Q X) : RunnerProg K Q X P B F Unit :=
  match step.delayMs with
  | none => pure ()
  | some ms => if ms ≠ 0 then runnerAsk (.Sleep ms) else pure ()

/-- The entries of the partners, or the first id that has none. -/
def findGroup (pending : OrderedMap K (Step K Q X × ℕ)) : List K → Except K (List (Step K Q X × ℕ))
  | [] => .ok []
  | id :: rest =>
      match pending.get id with
      | none => .error id
      | some entry =>
          match findGroup pending rest with
          | .error id => .error id
          | .ok group => .ok (entry :: group)

/-- A step whose request was sent, with its partners or on its own. -/
def finishStep (step : Step K Q X) (request : ℕ) (st : RunState K Q X B F) :
    RunnerProg K Q X P B F (RunState K Q X B F × Option (RunError K)) :=
  if step.partners = [] then do
    let response ← runnerAsk (.Await [request])
    let journal ← evaluateGroup counts body (response.1.map fun r => (step, r)) st.journal
    pure ({ st with journal }, none)
  else
    match findGroup st.pending step.partners with
    | .error id => pure (st, some (.NotPending step.id id))
    | .ok group => do
        let pending := step.partners.foldl OrderedMap.delete st.pending
        let responses ← runnerAsk (.Await (group.map Prod.snd ++ [request]))
        let own := responses.1.getLast?.toList.map fun r => (step, r)
        let journal ← evaluateGroup counts body ((group.map Prod.fst).zip responses.1 ++ own) st.journal
        pure ({ st with journal, pending }, none)

/-- The loop of `runVector`, and what is settled after it. -/
def runSteps (deferred : List K) : List (Step K Q X) → RunState K Q X B F →
    RunnerProg K Q X P B F (RunState K Q X B F × Option (RunError K))
  | [], st => do
      let st ← settlePending counts body st
      pure (st, none)
  | step :: rest, st => do
      let st ← settleBefore counts body step st
      sleep step
      runnerAsk (.Start step)
      let request := st.sent
      let st := { st with sent := st.sent + 1 }
      if step.id ∈ deferred then
        runSteps deferred rest { st with pending := st.pending.set step.id (step, request) }
      else do
        let (st, error) ← finishStep counts body step request st
        match error with
        | some error => pure (st, some error)
        | none => runSteps deferred rest st

/-- What is inside the `try` of `runVector`. -/
def runVectorBody (steps : List (Step K Q X)) : RunnerProg K Q X P B F (VectorResult K F) := do
  let status ← runnerAsk .Reset
  if status < 200 ∨ 300 ≤ status then pure ⟨.Error, [], some (.ResetReturned status)⟩
  else do
    let (st, error) ← runSteps counts body (deferredIds steps) steps {}
    match error with
    | some error => pure ⟨.Error, st.journal.outcomes, some error⟩
    | none => pure ⟨statusOf st.journal.outcomes, st.journal.outcomes, none⟩

/-- `try … catch`: what is thrown ends the run with the outcomes there are. -/
def catching : RunnerProg K Q X P B F (VectorResult K F) → RunnerProg K Q X P B F (VectorResult K F)
  | .Ret result => .Ret result
  | .Call (.Throw step outcomes) _ => .Ret ⟨.Error, outcomes, some (.Threw step)⟩
  | .Call c k => .Call c fun r => catching (k r)

/-- **`runVector`.** -/
def runVector (steps : List (Step K Q X)) : RunnerProg K Q X P B F (VectorResult K F) :=
  catching (runVectorBody counts body steps)

/-! ## Go -/

namespace Go

/-- The variables of `runVector`.  The map has no order of its own. -/
structure RunState (K Q X B F : Type) where
  journal : Journal K B F := {}
  pending : OrderedMap K (Step K Q X × ℕ) := Table.empty
  pendingOrder : List K := []
  sent : ℕ := 0

/-- The responses of a group, received one after another. -/
def receive : List ℕ → RunnerProg K Q X P B F (List P)
  | [] => pure []
  | request :: rest => do
      let response ← runnerAsk (.Await [request])
      let responses ← receive rest
      pure (response.1 ++ responses)

/-- One call of `evaluate`. -/
def evaluateOne : Evaluator K Q X P B F := fun step response invocations journal =>
  runnerAsk (.Evaluate step response journal.priorBodies.get invocations)

def evaluateGroup (group : List (Step K Q X × ℕ)) (journal : Journal K B F) :
    RunnerProg K Q X P B F (Journal K B F) := do
  let responses ← receive (group.map Prod.snd)
  let invocations ← readCounter (group.any fun g => counts g.1.expect)
  evaluateEach body evaluateOne invocations ((group.map Prod.fst).zip responses) journal

/-- Every id of the order is in the map. -/
def settlePending (st : RunState K Q X B F) : RunnerProg K Q X P B F (RunState K Q X B F) :=
  if st.pending.rows.length = 0 then pure st
  else do
    let group := st.pendingOrder.filterMap st.pending.get
    let journal ← evaluateGroup counts body group st.journal
    pure { st with journal, pending := Table.empty, pendingOrder := [] }

/-- A step without partners waits until all that is pending is settled. -/
def settleBefore (step : Step K Q X) (st : RunState K Q X B F) :
    RunnerProg K Q X P B F (RunState K Q X B F) :=
  if step.partners.length = 0 then settlePending counts body st else pure st

def sleep (step : Step K Q X) : RunnerProg K Q X P B F Unit :=
  if step.delayMs.getD 0 > 0 then runnerAsk (.Sleep (step.delayMs.getD 0)) else pure ()

/-- The entries of the partners, each deleted from the map as it is taken. -/
def takeGroup : List K → OrderedMap K (Step K Q X × ℕ) →
    Except K (List (Step K Q X × ℕ) × OrderedMap K (Step K Q X × ℕ))
  | [], pending => .ok ([], pending)
  | id :: rest, pending =>
      match pending.get id with
      | none => .error id
      | some entry =>
          match takeGroup rest (pending.delete id) with
          | .error id => .error id
          | .ok (group, pending) => .ok (entry :: group, pending)

/-- The filter over a slice that shares its array with the result: the turn at index `i` reads there, and
writes at index `k`. -/
def filterInPlace (keep : K → Bool) : ℕ → ℕ → ℕ → List K → List K
  | 0, _, k, array => array.take k
  | turns + 1, i, k, array =>
      match array[i]? with
      | none => array.take k
      | some id =>
          if keep id then filterInPlace keep turns (i + 1) (k + 1) (array.set k id)
          else filterInPlace keep turns (i + 1) k array

/-- A step whose request was sent, with its partners or on its own. -/
def finishStep (step : Step K Q X) (request : ℕ) (st : RunState K Q X B F) :
    RunnerProg K Q X P B F (RunState K Q X B F × Option (RunError K)) :=
  if step.partners.length > 0 then
    match takeGroup step.partners st.pending with
    | .error id => pure (st, some (.NotPending step.id id))
    | .ok (group, pending) => do
        let pendingOrder := filterInPlace (fun id => (pending.get id).isSome) st.pendingOrder.length 0 0
          st.pendingOrder
        let journal ← evaluateGroup counts body (group ++ [(step, request)]) st.journal
        pure ({ st with journal, pending, pendingOrder }, none)
  else do
    let journal ← evaluateGroup counts body [(step, request)] st.journal
    pure ({ st with journal }, none)

/-- The loop of `runVector`, and what is settled after it. -/
def runSteps (deferred : List K) : List (Step K Q X) → RunState K Q X B F →
    RunnerProg K Q X P B F (RunState K Q X B F × Option (RunError K))
  | [], st => do
      let st ← settlePending counts body st
      pure (st, none)
  | step :: rest, st => do
      let st ← settleBefore counts body step st
      sleep step
      runnerAsk (.Start step)
      let request := st.sent
      let st := { st with sent := st.sent + 1 }
      if step.id ∈ deferred then
        runSteps deferred rest { st with
          pending := st.pending.set step.id (step, request)
          pendingOrder := st.pendingOrder ++ [step.id] }
      else do
        let (st, error) ← finishStep counts body step request st
        match error with
        | some error => pure (st, some error)
        | none => runSteps deferred rest st

/-- **`runVector`.** -/
def runVector (steps : List (Step K Q X)) : RunnerProg K Q X P B F (VectorResult K F) := do
  let status ← runnerAsk .Reset
  if status < 200 ∨ 300 ≤ status then pure ⟨.Error, [], some (.ResetReturned status)⟩
  else do
    let (st, error) ← runSteps counts body (deferredIds steps) steps {}
    match error with
    | some error => pure ⟨.Error, st.journal.outcomes, some error⟩
    | none => pure ⟨statusOf st.journal.outcomes, st.journal.outcomes, none⟩

end Go

/-! ## Both -/

/-- The two runners. -/
inductive Runner
  | TypeScript
  | Go

/-- What a runner runs for a vector. -/
def Runner.runVector : Runner → List (Step K Q X) → RunnerProg K Q X P B F (VectorResult K F)
  | .TypeScript => Conformance.runVector counts body
  | .Go => Conformance.Go.runVector counts body

end

end Anyonce.Conformance
