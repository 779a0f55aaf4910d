import Anyonce.Conformance.Contract

/-!
# The loop of the runners

The two runners have one loop, and differ in the variables in which they keep the steps that wait.
`Bookkeeping` is what the loop does with these variables, and `Bookkeeping.Lawful` is what has to be true of
it.  **The result** is `Bookkeeping.Lawful.meets_runSteps`: with lawful bookkeeping, the loop follows the plan
to its end; and `Bookkeeping.Lawful.meets_runVector` for what is around the loop.
-/

namespace Anyonce.Conformance

open Interaction Relational

section

variable {K Q X P B F S : Type} [DecidableEq K]

/-! ## Entries -/

/-- The entry that waits under an id. -/
def entryOf (entries : List (Step K Q X × ℕ)) (id : K) : Option (Step K Q X × ℕ) :=
  entries.find? fun entry => entry.1.id = id

/-- A step with its partners, and the requests that were sent for them. -/
def groupEntries (entries : List (Step K Q X × ℕ)) (step : Step K Q X) (request : ℕ) :
    List (Step K Q X × ℕ) := step.partners.filterMap (entryOf entries) ++ [(step, request)]

def leftEntries (entries : List (Step K Q X × ℕ)) (step : Step K Q X) : List (Step K Q X × ℕ) :=
  entries.filter fun entry => entry.1.id ∉ step.partners

def carriedEntries (entries : List (Step K Q X × ℕ)) (step : Step K Q X) : List (Step K Q X × ℕ) :=
  if step.partners = [] then [] else entries

lemma waiting_map_fst (entries : List (Step K Q X × ℕ)) (id : K) :
    waiting (entries.map Prod.fst) id = (entryOf entries id).map Prod.fst := List.find?_map ..

lemma map_fst_groupEntries (entries : List (Step K Q X × ℕ)) (step : Step K Q X) (request : ℕ) :
    (groupEntries entries step request).map Prod.fst = groupOf (entries.map Prod.fst) step := by
  rw [groupEntries, groupOf, List.map_append, List.map_filterMap]
  simp only [waiting_map_fst]
  rfl

lemma map_fst_leftEntries (entries : List (Step K Q X × ℕ)) (step : Step K Q X) :
    (leftEntries entries step).map Prod.fst = remaining (entries.map Prod.fst) step := by
  rw [leftEntries, remaining, List.filter_map]
  rfl

omit [DecidableEq K] in
lemma map_fst_carriedEntries (entries : List (Step K Q X × ℕ)) (step : Step K Q X) :
    (carriedEntries entries step).map Prod.fst = carried (entries.map Prod.fst) step := by
  rw [carriedEntries, carried]
  split_ifs <;> rfl

/-! ## The loop -/

/-- What a runner does with its variables: settle all that waits, sleep, let a step wait whose request is the
next, and finish such a step. -/
structure Bookkeeping (K Q X P B F S : Type) where
  journal : S → Journal K B F
  settle : S → RunnerProg K Q X P B F S
  sleep : Step K Q X → RunnerProg K Q X P B F Unit
  hold : Step K Q X → S → S
  finish : Step K Q X → S → RunnerProg K Q X P B F (S × Option (RunError K))

namespace Bookkeeping

variable (b : Bookkeeping K Q X P B F S)

def settleBefore (step : Step K Q X) (st : S) : RunnerProg K Q X P B F S :=
  if step.partners = [] then b.settle st else pure st

/-- The loop of both runners. -/
def runSteps (deferred : List K) :
    List (Step K Q X) → S → RunnerProg K Q X P B F (S × Option (RunError K))
  | [], st => do
      let st ← b.settle st
      pure (st, none)
  | step :: rest, st => do
      let st ← b.settleBefore step st
      b.sleep step
      runnerAsk (.Start step)
      if step.id ∈ deferred then runSteps deferred rest (b.hold step st)
      else do
        let (st, error) ← b.finish step st
        match error with
        | some error => pure (st, some error)
        | none => runSteps deferred rest st

/-- The variables hold the entries that wait, with as many requests sent as the notes say. -/
structure Keeps (rep : S → ℕ → List (Step K Q X × ℕ) → Prop) (n : Notes K Q X P B F) (st : S)
    (entries : List (Step K Q X × ℕ)) : Prop where
  journal : n.journal = b.journal st
  rep : rep st n.begun.length entries
  tracked : Tracked n entries

/-- The same when the next request was sent, for a step that the variables do not hold yet. -/
structure Sent (rep : S → ℕ → List (Step K Q X × ℕ) → Prop) (n : Notes K Q X P B F) (step : Step K Q X)
    (st : S) (sent : ℕ) (entries : List (Step K Q X × ℕ)) : Prop where
  journal : n.journal = b.journal st
  rep : rep st sent entries
  count : n.begun.length = sent + 1
  tracked : Tracked n (entries ++ [(step, sent)])

/-- When the step of the next request is finished: it is told what is missing, or its group is evaluated. -/
def Finishes (who : Runner) (inside : Bool) (body : P → B) (rep : S → ℕ → List (Step K Q X × ℕ) → Prop) (n : Notes K Q X P B F)
    (step : Step K Q X) (st : S) (entries : List (Step K Q X × ℕ)) : Prop :=
  match missing (entries.map Prod.fst) step with
  | some id => (b.finish step st).Meets (contract body who inside)
      (fun n' out => n' = n ∧ n'.journal = b.journal out.1 ∧ out.2 = some (.NotPending step.id id)) n
  | none => ∀ rest, n.todo = evaluations (groupOf (entries.map Prod.fst) step) ++ rest →
      (b.finish step st).Meets (contract body who inside) (fun n' out =>
        n.Reaches (evaluations (groupOf (entries.map Prod.fst) step)) n'
          ∧ b.Keeps rep n' out.1 (leftEntries entries step) ∧ out.2 = none) n

/-- **Lawful bookkeeping.**  `rep st sent entries` says that the variables hold these entries. -/
structure Lawful (who : Runner) (inside : Bool) (body : P → B) (rep : S → ℕ → List (Step K Q X × ℕ) → Prop) : Prop where
  settle : ∀ {n st entries rest}, b.Keeps rep n st entries → Distinct (entries.map Prod.fst) →
    n.todo = evaluations (entries.map Prod.fst) ++ rest →
    (b.settle st).Meets (contract body who inside) (fun n' st' =>
      n.Reaches (evaluations (entries.map Prod.fst)) n' ∧ b.Keeps rep n' st' []) n
  sleep : ∀ step n, (b.sleep step).Meets (contract body who inside) (fun n' _ => n' = n) n
  hold : ∀ {step st sent entries}, rep st sent entries → (∀ entry ∈ entries, entry.1.id ≠ step.id) →
    rep (b.hold step st) (sent + 1) (entries ++ [(step, sent)]) ∧ b.journal (b.hold step st) = b.journal st
  finish : ∀ {n step st sent entries}, b.Sent rep n step st sent entries → Distinct (entries.map Prod.fst) →
    step.partners.Nodup → b.Finishes who inside body rep n step st entries

variable {b} {who : Runner} {inside : Bool} {body : P → B} {rep : S → ℕ → List (Step K Q X × ℕ) → Prop}

lemma Lawful.settleBefore (hb : b.Lawful who inside body rep) {n : Notes K Q X P B F} {st : S}
    {entries : List (Step K Q X × ℕ)} {step : Step K Q X} {rest : List (Mark K Q X)}
    (hk : b.Keeps rep n st entries) (hdistinct : Distinct (entries.map Prod.fst))
    (htodo : n.todo = settled (entries.map Prod.fst) step ++ rest) :
    (b.settleBefore step st).Meets (contract body who inside) (fun n' st' =>
      n.Reaches (settled (entries.map Prod.fst) step) n'
        ∧ b.Keeps rep n' st' (carriedEntries entries step)) n := by
  rw [Bookkeeping.settleBefore, carriedEntries]
  rw [settled] at htodo ⊢
  split_ifs at htodo ⊢
  · exact hb.settle hk hdistinct htodo
  · exact ⟨.refl n, hk⟩

/-- The turn of a step, until its request is sent. -/
lemma Lawful.meets_sent (hb : b.Lawful who inside body rep) {n : Notes K Q X P B F} {st : S}
    {entries : List (Step K Q X × ℕ)} {step : Step K Q X} {rest : List (Mark K Q X)}
    (hk : b.Keeps rep n st entries) (hdistinct : Distinct (entries.map Prod.fst))
    (htodo : n.todo = settled (entries.map Prod.fst) step ++ .Started step :: rest) {α : Type}
    {next : S → RunnerProg K Q X P B F α} {post : Notes K Q X P B F → α → Prop}
    (hnext : ∀ n' st' sent, n.Reaches (settled (entries.map Prod.fst) step ++ [.Started step]) n' →
      b.Sent rep n' step st' sent (carriedEntries entries step) → (next st').Meets (contract body who inside) post n') :
    (b.settleBefore step st >>= fun st' => b.sleep step >>= fun _ =>
      runnerAsk (.Start step) >>= fun _ => next st').Meets (contract body who inside) post n := by
  refine meets_bind_iff.mpr ((hb.settleBefore hk hdistinct htodo).mono ?_)
  rintro n₁ st₁ ⟨hreach, hk₁⟩
  refine (hb.sleep step n₁).bind fun _ => ?_
  have htodo₁ := hreach.ahead htodo
  have hstart := Notes.reaches_advance htodo₁
  refine ⟨⟨rest, htodo₁⟩, fun _ => hnext n₁.advance st₁ n₁.begun.length (hreach.trans hstart) ?_⟩
  have hbegun : n₁.advance.begun = n₁.begun ++ [step] := by simpa using hstart.begun
  refine ⟨hk₁.journal, hk₁.rep, by simp [hbegun], ?_⟩
  intro entry hentry
  rcases List.mem_append.mp hentry with hentry | hentry
  · exact hk₁.tracked.reaches hstart entry hentry
  · rw [List.mem_singleton.mp hentry, hbegun]
    simp

/-- What the loop has come to when it ends. -/
def Ends (b : Bookkeeping K Q X P B F S) (n : Notes K Q X P B F)
    (planned : List (Mark K Q X) × Option (K × K)) (n' : Notes K Q X P B F)
    (out : S × Option (RunError K)) : Prop :=
  n.Reaches planned.1 n' ∧ n'.journal = b.journal out.1
    ∧ out.2 = planned.2.map fun stop => .NotPending stop.1 stop.2

omit [DecidableEq K] in
lemma Ends.after {n n₁ n' : Notes K Q X P B F} {marks : List (Mark K Q X)}
    {planned : List (Mark K Q X) × Option (K × K)} {out : S × Option (RunError K)}
    (h : b.Ends n₁ planned n' out) (hreach : n.Reaches marks n₁) :
    b.Ends n (marks ++ planned.1, planned.2) n' out := ⟨hreach.trans h.1, h.2⟩

/-- **With lawful bookkeeping the loop follows the plan.** -/
lemma Lawful.meets_runSteps (hb : b.Lawful who inside body rep) (deferred : List K) {steps : List (Step K Q X)}
    {n : Notes K Q X P B F} {st : S} {entries : List (Step K Q X × ℕ)} (hk : b.Keeps rep n st entries)
    (hdistinct : Distinct (entries.map Prod.fst ++ steps)) (hpartners : ∀ step ∈ steps, step.partners.Nodup)
    (htodo : n.todo = (plan deferred steps (entries.map Prod.fst)).1) :
    (b.runSteps deferred steps st).Meets (contract body who inside)
      (b.Ends n (plan deferred steps (entries.map Prod.fst))) n := by
  induction steps generalizing n st entries with
  | nil =>
      have htodo' : n.todo = evaluations (entries.map Prod.fst) ++ [] := by simpa [plan] using htodo
      refine meets_bind_iff.mpr ((hb.settle hk (by simpa using hdistinct) htodo').mono ?_)
      rintro n' st' ⟨hreach, hk'⟩
      exact ⟨hreach, hk'.journal, rfl⟩
  | cons step steps ih =>
      have hrest : ∀ other ∈ steps, other.partners.Nodup := fun other hother =>
        hpartners other (List.mem_cons_of_mem _ hother)
      have hentries : Distinct (entries.map Prod.fst) :=
        hdistinct.of_sublist (List.sublist_append_left _ _)
      have hcarried : (carried (entries.map Prod.fst) step).Sublist (entries.map Prod.fst) :=
        carried_sublist _ step
      rw [plan] at htodo ⊢
      rw [runSteps]
      split_ifs at htodo ⊢ with hdeferred
      · refine hb.meets_sent hk hentries htodo fun n₂ st₂ sent hreach hsent => ?_
        have hother : ∀ entry ∈ carriedEntries entries step, entry.1.id ≠ step.id := by
          intro entry hentry
          refine hdistinct.id_ne entry.1 ?_
          rw [← map_fst_carriedEntries]
          exact List.mem_map_of_mem hentry
        obtain ⟨hrep, hjournal⟩ := hb.hold hsent.rep hother
        have hwaits : (carriedEntries entries step ++ [(step, sent)]).map Prod.fst
            = carried (entries.map Prod.fst) step ++ [step] := by
          rw [List.map_append, map_fst_carriedEntries]
          rfl
        have hnext := @ih n₂ (b.hold step st₂) (carriedEntries entries step ++ [(step, sent)])
          ⟨hsent.journal.trans hjournal.symm, hsent.count ▸ hrep, hsent.tracked⟩
        rw [hwaits] at hnext
        refine (hnext ?_ hrest ?_).mono ?_
        · rw [List.append_assoc]
          exact hdistinct.of_sublist (hcarried.append_right _)
        · refine hreach.ahead ?_
          rw [htodo]
          simp
        · intro n' out hends
          simpa using hends.after hreach
      · have hfinish := fun n₂ st₂ sent (hsent : b.Sent rep n₂ step st₂ sent (carriedEntries entries step)) =>
          hb.finish hsent ((map_fst_carriedEntries entries step) ▸ hentries.of_sublist hcarried)
            (hpartners step List.mem_cons_self)
        simp only [Finishes, map_fst_carriedEntries] at hfinish
        cases hmissing : missing (carried (entries.map Prod.fst) step) step with
        | some id =>
            simp only [hmissing] at htodo hfinish ⊢
            refine hb.meets_sent hk hentries htodo fun n₂ st₂ sent hreach hsent => ?_
            refine meets_bind_iff.mpr ((hfinish n₂ st₂ sent hsent).mono ?_)
            rintro n' ⟨st', error⟩ ⟨rfl, hjournal, rfl⟩
            exact ⟨hreach, hjournal, rfl⟩
        | none =>
            simp only [hmissing] at htodo hfinish ⊢
            rw [List.append_assoc, List.cons_append] at htodo
            refine hb.meets_sent hk hentries htodo fun n₂ st₂ sent hreach hsent => ?_
            have htodo₂ : n₂.todo = evaluations (groupOf (carried (entries.map Prod.fst) step) step)
                ++ (plan deferred steps (remaining (carried (entries.map Prod.fst) step) step)).1 := by
              refine hreach.ahead ?_
              rw [htodo]
              simp
            refine meets_bind_iff.mpr ((hfinish n₂ st₂ sent hsent _ htodo₂).mono ?_)
            rintro n₃ ⟨st₃, error⟩ ⟨hreach₃, hk₃, rfl⟩
            have hleft : (leftEntries (carriedEntries entries step) step).map Prod.fst
                = remaining (carried (entries.map Prod.fst) step) step := by
              rw [map_fst_leftEntries, map_fst_carriedEntries]
            have hnext := ih hk₃
            rw [hleft] at hnext
            refine (hnext ?_ hrest (hreach₃.ahead htodo₂)).mono ?_
            · exact hdistinct.of_sublist (remaining_sublist _ steps step)
            · intro n' out hends
              simpa using (hends.after hreach₃).after hreach

/-! ## The vector -/

/-- What both runners do for a vector. -/
def runVector (b : Bookkeeping K Q X P B F S) (st : S) (steps : List (Step K Q X)) :
    RunnerProg K Q X P B F (VectorResult K F) := do
  let status ← runnerAsk .Reset
  if status < 200 ∨ 300 ≤ status then pure ⟨.Error, [], some (.ResetReturned status)⟩
  else do
    let (st, error) ← b.runSteps (deferredIds steps) steps st
    match error with
    | some error => pure ⟨.Error, (b.journal st).outcomes, some error⟩
    | none => pure ⟨statusOf (b.journal st).outcomes, (b.journal st).outcomes, none⟩

end Bookkeeping

/-- The order of a vector. -/
def planned (steps : List (Step K Q X)) : List (Mark K Q X) × Option (K × K) :=
  plan (deferredIds steps) steps []

/-- What a runner returns: the plan is behind it, or the reset was refused, or an evaluation threw. -/
def Returns (steps : List (Step K Q X)) (n : Notes K Q X P B F) (result : VectorResult K F) : Prop :=
  match n.thrown with
  | some step => result.steps = n.journal.outcomes ∧ result.error = some (.Threw step)
  | none => ∃ status, n.reset = some status ∧
      if status < 200 ∨ 300 ≤ status then result.error = some (.ResetReturned status)
      else n.todo = [] ∧ result.steps = n.journal.outcomes
        ∧ result.error = (planned steps).2.map fun stop => .NotPending stop.1 stop.2

/-- The notes of a run that begins. -/
def Notes.start (steps : List (Step K Q X)) : Notes K Q X P B F := { todo := (planned steps).1 }

/-- **With lawful bookkeeping a runner follows the plan of its vector.** -/
lemma Bookkeeping.Lawful.meets_runVector {b : Bookkeeping K Q X P B F S} {who : Runner} {inside : Bool}
    {body : P → B} {rep : S → ℕ → List (Step K Q X × ℕ) → Prop} (hb : b.Lawful who inside body rep) {st : S} (hrep : rep st 0 [])
    (hjournal : b.journal st = {}) {steps : List (Step K Q X)} (hdistinct : Distinct steps)
    (hpartners : ∀ step ∈ steps, step.partners.Nodup) :
    (b.runVector st steps).Meets (contract body who inside) (Returns steps) (Notes.start steps) := by
  rw [Bookkeeping.runVector, Prog.call_bind]
  refine ⟨trivial, fun (status : ℤ) => ?_⟩
  let n : Notes K Q X P B F := { Notes.start steps with reset := some status }
  have hk : b.Keeps rep n st [] := ⟨hjournal.symm, hrep, by simp [Tracked]⟩
  have hloop := hb.meets_runSteps (deferredIds steps) hk hdistinct hpartners rfl
  show (ite _ _ _ : RunnerProg K Q X P B F _).Meets _ _ n
  split_ifs with hstatus
  · exact ⟨status, rfl, by rw [if_pos hstatus]⟩
  · refine meets_bind_iff.mpr (hloop.mono ?_)
    rintro n' ⟨st', error⟩ ⟨hreach, hjournal', rfl⟩
    have htodo : n'.todo = [] := hreach.ahead (List.append_nil _).symm
    have hreturns : ∀ result : VectorResult K F, result.steps = (b.journal st').outcomes →
        result.error = (planned steps).2.map (fun stop => .NotPending stop.1 stop.2) →
        Returns steps n' result := by
      intro result hsteps herror
      have hthrown : n'.thrown = none := hreach.thrown
      rw [Returns, hthrown]
      refine ⟨status, hreach.reset, ?_⟩
      rw [if_neg hstatus]
      exact ⟨htodo, by rw [hsteps, hjournal'], herror⟩
    cases hstop : (plan (deferredIds steps) steps []).2 with
    | some stop =>
        simp only [List.map_nil, hstop]
        exact hreturns _ rfl (by simp [planned, hstop])
    | none =>
        simp only [List.map_nil, hstop]
        exact hreturns _ rfl (by simp [planned, hstop])

end

end Anyonce.Conformance
