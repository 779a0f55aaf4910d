import Mathlib.Algebra.Group.Int.Defs
import Mathlib.Data.List.Nodup
import Mathlib.Data.List.Perm.Basic

/-!
# The order of a conformance vector

What the README of the vectors asks of a runner, before any runner: which step is started when, and which
steps are evaluated together.  A step that another names in its `concurrentWith` is only started, and waits;
a step with partners is evaluated with them; and a step without partners starts once nothing waits.

* `plan` — the order, or where it stops because a partner is not waiting.
* `plan_orderly` — a step without partners starts when every step before it was evaluated.
* `plan_group` — a step is evaluated in a group with its partners.
* `plan_started`, `plan_evaluated` — a plan that does not stop starts every step once, in the order of the
  vector, and evaluates each once.
-/

namespace Anyonce.Conformance

open scoped List

/-- A step of a vector, with its request and what it expects. -/
structure Step (K Q X : Type) where
  id : K
  delayMs : Option ℤ := none
  concurrentWith : Option (List K) := none
  request : Q
  expect : X

/-- What is seen of a runner: a step is started, and it is evaluated in a group. -/
inductive Mark (K Q X : Type)
  | Started (step : Step K Q X)
  | Evaluated (group : List (Step K Q X)) (step : Step K Q X)

section

variable {K Q X : Type}

/-- The steps it is evaluated with. -/
def Step.partners (step : Step K Q X) : List K := step.concurrentWith.getD []

/-- The ids that some step names. -/
def deferredIds (steps : List (Step K Q X)) : List K := steps.flatMap Step.partners

/-- No two steps have the same id. -/
def Distinct (steps : List (Step K Q X)) : Prop := (steps.map Step.id).Nodup

/-- A group is evaluated, one step after another. -/
def evaluations (group : List (Step K Q X)) : List (Mark K Q X) := group.map (.Evaluated group)

/-- The steps that are started. -/
def startedIn (marks : List (Mark K Q X)) : List (Step K Q X) :=
  marks.filterMap fun
    | .Started step => some step
    | .Evaluated _ _ => none

/-- The steps that are evaluated. -/
def evaluatedIn (marks : List (Mark K Q X)) : List (Step K Q X) :=
  marks.filterMap fun
    | .Started _ => none
    | .Evaluated _ step => some step

@[simp] lemma startedIn_nil : startedIn ([] : List (Mark K Q X)) = [] := rfl

@[simp] lemma evaluatedIn_nil : evaluatedIn ([] : List (Mark K Q X)) = [] := rfl

@[simp] lemma startedIn_append (marks marks' : List (Mark K Q X)) :
    startedIn (marks ++ marks') = startedIn marks ++ startedIn marks' := List.filterMap_append

@[simp] lemma evaluatedIn_append (marks marks' : List (Mark K Q X)) :
    evaluatedIn (marks ++ marks') = evaluatedIn marks ++ evaluatedIn marks' := List.filterMap_append

@[simp] lemma startedIn_cons_started (step : Step K Q X) (marks : List (Mark K Q X)) :
    startedIn (.Started step :: marks) = step :: startedIn marks := rfl

@[simp] lemma evaluatedIn_cons_started (step : Step K Q X) (marks : List (Mark K Q X)) :
    evaluatedIn (.Started step :: marks) = evaluatedIn marks := rfl

@[simp] lemma startedIn_cons_evaluated (group : List (Step K Q X)) (step : Step K Q X)
    (marks : List (Mark K Q X)) : startedIn (.Evaluated group step :: marks) = startedIn marks := rfl

@[simp] lemma evaluatedIn_cons_evaluated (group : List (Step K Q X)) (step : Step K Q X)
    (marks : List (Mark K Q X)) :
    evaluatedIn (.Evaluated group step :: marks) = step :: evaluatedIn marks := rfl

@[simp] lemma startedIn_evaluations (group : List (Step K Q X)) : startedIn (evaluations group) = [] := by
  simp [startedIn, evaluations, List.filterMap_map]

@[simp] lemma evaluatedIn_evaluations (group : List (Step K Q X)) :
    evaluatedIn (evaluations group) = group := by
  simp [evaluatedIn, evaluations, List.filterMap_map]

variable [DecidableEq K]

/-! ## The plan -/

/-- The step that waits under an id. -/
def waiting (pending : List (Step K Q X)) (id : K) : Option (Step K Q X) :=
  pending.find? fun step => step.id = id

/-- The first partner that is not waiting. -/
def missing (pending : List (Step K Q X)) (step : Step K Q X) : Option K :=
  step.partners.find? fun id => (waiting pending id).isNone

/-- A step with its partners. -/
def groupOf (pending : List (Step K Q X)) (step : Step K Q X) : List (Step K Q X) :=
  step.partners.filterMap (waiting pending) ++ [step]

/-- The steps that still wait when a group is gone. -/
def remaining (pending : List (Step K Q X)) (step : Step K Q X) : List (Step K Q X) :=
  pending.filter fun other => other.id ∉ step.partners

/-- What is left waiting when a step is about to start: all of it, unless the step has no partners. -/
def carried (pending : List (Step K Q X)) (step : Step K Q X) : List (Step K Q X) :=
  if step.partners = [] then [] else pending

/-- What is evaluated before a step without partners starts. -/
def settled (pending : List (Step K Q X)) (step : Step K Q X) : List (Mark K Q X) :=
  if step.partners = [] then evaluations pending else []

/-- **The order of the steps**, with those that wait.  The second part is a step and a partner of it that is
not waiting, when there is one: the plan stops there. -/
def plan (deferred : List K) : List (Step K Q X) → List (Step K Q X) → List (Mark K Q X) × Option (K × K)
  | [], pending => (evaluations pending, none)
  | step :: rest, pending =>
      if step.id ∈ deferred then
        let next := plan deferred rest (carried pending step ++ [step])
        (settled pending step ++ .Started step :: next.1, next.2)
      else
        match missing (carried pending step) step with
        | some id => (settled pending step ++ [.Started step], some (step.id, id))
        | none =>
            let next := plan deferred rest (remaining (carried pending step) step)
            (settled pending step
              ++ .Started step :: evaluations (groupOf (carried pending step) step) ++ next.1, next.2)

lemma waiting_id {pending : List (Step K Q X)} {id : K} {step : Step K Q X}
    (h : waiting pending id = some step) : step ∈ pending ∧ step.id = id :=
  ⟨List.mem_of_find?_eq_some h, by simpa using List.find?_some h⟩

/-- The partners that wait are found. -/
lemma map_id_partners {pending : List (Step K Q X)} {step : Step K Q X} (h : missing pending step = none) :
    (step.partners.filterMap (waiting pending)).map Step.id = step.partners := by
  rw [missing, List.find?_eq_none] at h
  rw [List.map_filterMap]
  refine (List.filterMap_congr fun id hid => ?_).trans List.filterMap_some
  obtain ⟨other, hother⟩ := Option.ne_none_iff_exists'.mp (by simpa using h id hid)
  rw [hother, Option.map_some, (waiting_id hother).2]

lemma map_id_groupOf {pending : List (Step K Q X)} {step : Step K Q X} (h : missing pending step = none) :
    (groupOf pending step).map Step.id = step.partners ++ [step.id] := by
  rw [groupOf, List.map_append, map_id_partners h]
  rfl

/-! ## Nothing waits when a step without partners starts -/

/-- The order is kept, with the steps `waiting` that are started and not yet evaluated. -/
def Orderly : List (Step K Q X) → List (Mark K Q X) → Prop
  | _, [] => True
  | pending, .Started step :: rest =>
      (step.partners = [] → pending = []) ∧ Orderly (pending ++ [step]) rest
  | pending, .Evaluated group step :: rest =>
      step ∈ group ∧ Orderly (pending.filter fun other => other.id ≠ step.id) rest

/-- A group that is evaluated waits no longer. -/
lemma orderly_evaluations {group steps pending : List (Step K Q X)} {rest : List (Mark K Q X)}
    (hsub : ∀ step ∈ steps, step ∈ group)
    (h : Orderly (pending.filter fun other => other.id ∉ steps.map Step.id) rest) :
    Orderly pending (steps.map (.Evaluated group) ++ rest) := by
  induction steps generalizing pending with
  | nil => simpa using h
  | cons step steps ih =>
      refine ⟨hsub step List.mem_cons_self, ih (fun other hother => hsub other (List.mem_cons_of_mem _ hother)) ?_⟩
      rw [List.filter_filter]
      refine (congrArg (Orderly · rest) (List.filter_congr fun other _ => ?_)).mpr h
      rw [Bool.eq_iff_iff]
      simp only [Bool.and_eq_true, decide_eq_true_iff, List.map_cons, List.mem_cons, not_or]
      exact and_comm

/-- Nothing waits after all that waited was evaluated. -/
lemma orderly_settled {pending : List (Step K Q X)} {step : Step K Q X} {rest : List (Mark K Q X)}
    (h : Orderly (carried pending step) rest) : Orderly pending (settled pending step ++ rest) := by
  rw [carried] at h
  rw [settled]
  split_ifs at h ⊢ with hpartners
  · refine orderly_evaluations (fun _ hother => hother) ?_
    have hnone : pending.filter (fun other => other.id ∉ pending.map Step.id) = [] := by
      simp only [List.filter_eq_nil_iff, decide_not, Bool.not_eq_true', decide_eq_false_iff_not, not_not]
      exact fun other hother => List.mem_map_of_mem hother
    rwa [hnone]
  · exact h

omit [DecidableEq K] in
lemma carried_sublist (pending : List (Step K Q X)) (step : Step K Q X) :
    (carried pending step).Sublist pending := by
  rw [carried]
  split_ifs
  · exact List.nil_sublist _
  · exact List.Sublist.refl _

lemma remaining_sublist (pending rest : List (Step K Q X)) (step : Step K Q X) :
    (remaining (carried pending step) step ++ rest).Sublist (pending ++ step :: rest) :=
  (List.filter_sublist.trans (carried_sublist pending step)).append (List.sublist_cons_self step rest)

omit [DecidableEq K] in
/-- Distinct steps stay so when fewer of them wait. -/
lemma Distinct.of_sublist {steps steps' : List (Step K Q X)} (h : Distinct steps)
    (hsub : steps'.Sublist steps) : Distinct steps' :=
  List.Nodup.sublist (hsub.map Step.id) h

omit [DecidableEq K] in
/-- A step that is about to start does not wait. -/
lemma Distinct.id_ne {pending rest : List (Step K Q X)} {step : Step K Q X}
    (h : Distinct (pending ++ step :: rest)) : ∀ other ∈ carried pending step, other.id ≠ step.id := by
  intro other hother heq
  rw [Distinct, List.map_append, List.nodup_append] at h
  exact h.2.2 other.id (List.mem_map_of_mem ((carried_sublist pending step).subset hother)) step.id
    (by simp) heq

/-- Evaluating a group leaves the steps outside it. -/
lemma filter_groupOf {pending rest : List (Step K Q X)} {step : Step K Q X}
    (hdistinct : Distinct (pending ++ step :: rest)) (h : missing (carried pending step) step = none) :
    (carried pending step ++ [step]).filter
      (fun other => other.id ∉ (groupOf (carried pending step) step).map Step.id)
      = remaining (carried pending step) step := by
  rw [map_id_groupOf h, List.filter_append, remaining]
  have hself : [step].filter (fun other => other.id ∉ step.partners ++ [step.id]) = [] := by simp
  rw [hself, List.append_nil]
  refine List.filter_congr fun other hother => ?_
  simp [hdistinct.id_ne other hother]

/-- **A plan is orderly.** -/
lemma plan_orderly (deferred : List K) {steps pending : List (Step K Q X)}
    (hdistinct : Distinct (pending ++ steps)) : Orderly pending (plan deferred steps pending).1 := by
  induction steps generalizing pending with
  | nil =>
      have hnone : Orderly (pending.filter fun other => other.id ∉ pending.map Step.id)
          ([] : List (Mark K Q X)) := trivial
      simpa [plan, evaluations] using orderly_evaluations (fun _ hother => hother) hnone
  | cons step rest ih =>
      have hcarried := (carried_sublist pending step).append_right (step :: rest)
      have hplain : step.partners = [] → carried pending step = [] := by
        intro hpartners
        rw [carried, if_pos hpartners]
      rw [plan]
      split_ifs with hdeferred
      · refine orderly_settled ⟨hplain, ih ?_⟩
        rw [List.append_assoc]
        exact hdistinct.of_sublist hcarried
      · split
        · exact orderly_settled ⟨hplain, trivial⟩
        · next hfound =>
            dsimp only
            rw [List.append_assoc]
            refine orderly_settled ⟨hplain, orderly_evaluations (fun _ hother => hother) ?_⟩
            rw [filter_groupOf hdistinct hfound]
            exact ih (hdistinct.of_sublist (remaining_sublist pending rest step))

/-- **Before a step without partners**, what was started is evaluated. -/
lemma Orderly.evaluated {pending : List (Step K Q X)} {past rest : List (Mark K Q X)} {step : Step K Q X}
    (h : Orderly pending (past ++ .Started step :: rest)) (hpartners : step.partners = []) :
    ∀ other ∈ pending ++ startedIn past, other.id ∈ (evaluatedIn past).map Step.id := by
  induction past generalizing pending with
  | nil =>
      obtain rfl := h.1 hpartners
      simp
  | cons mark past ih =>
      cases mark with
      | Started first => simpa using ih h.2
      | Evaluated group first =>
          intro other hother
          by_cases hid : other.id = first.id
          · simp [hid]
          · refine List.mem_cons_of_mem _ (ih h.2 other ?_)
            rcases List.mem_append.mp hother with hother | hother
            · exact List.mem_append_left _ (List.mem_filter.mpr ⟨hother, by simpa using hid⟩)
            · exact List.mem_append_right _ hother

/-! ## What is evaluated together -/

/-- A group holds a step, and its partners unless the step is only started. -/
def Grouped (deferred : List K) (group : List (Step K Q X)) (step : Step K Q X) : Prop :=
  step ∈ group ∧ (step.id ∉ deferred → ∀ id ∈ step.partners, id ∈ group.map Step.id)

omit [DecidableEq K] in
/-- What waits is grouped with whatever else does. -/
lemma grouped_evaluations {deferred : List K} {pending group : List (Step K Q X)} {step : Step K Q X}
    (hwaits : ∀ other ∈ pending, other.id ∈ deferred) (h : .Evaluated group step ∈ evaluations pending) :
    Grouped deferred group step := by
  obtain ⟨other, hother, heq⟩ := List.mem_map.mp h
  cases heq
  exact ⟨hother, fun hplain => absurd (hwaits step hother) hplain⟩

/-- A step with partners is grouped with them. -/
lemma grouped_groupOf {deferred : List K} {pending group : List (Step K Q X)} {first step : Step K Q X}
    (hwaits : ∀ other ∈ pending, other.id ∈ deferred) (hfound : missing pending first = none)
    (h : .Evaluated group step ∈ evaluations (groupOf pending first)) : Grouped deferred group step := by
  obtain ⟨other, hother, heq⟩ := List.mem_map.mp h
  cases heq
  refine ⟨hother, fun hplain id hid => ?_⟩
  rcases List.mem_append.mp hother with hpartner | hself
  · obtain ⟨name, -, hname⟩ := List.mem_filterMap.mp hpartner
    exact absurd (hwaits step (waiting_id hname).1) hplain
  · rw [List.mem_singleton] at hself
    subst hself
    rw [map_id_groupOf hfound]
    exact List.mem_append_left _ hid

omit [DecidableEq K] in
lemma evaluated_of_settled {pending : List (Step K Q X)} {step : Step K Q X} {mark : Mark K Q X}
    (h : mark ∈ settled pending step) : mark ∈ evaluations pending := by
  rw [settled] at h
  split_ifs at h
  · exact h
  · cases h

/-- **A plan evaluates a step in a group with its partners**, unless the step is only started. -/
lemma plan_group {deferred : List K} {steps pending : List (Step K Q X)}
    (hwaits : ∀ other ∈ pending, other.id ∈ deferred) {group : List (Step K Q X)} {step : Step K Q X}
    (h : .Evaluated group step ∈ (plan deferred steps pending).1) : Grouped deferred group step := by
  induction steps generalizing pending with
  | nil => exact grouped_evaluations hwaits h
  | cons first rest ih =>
      have hcarried : ∀ other ∈ carried pending first, other.id ∈ deferred := fun other hother =>
        hwaits other ((carried_sublist pending first).subset hother)
      rw [plan] at h
      split_ifs at h with hdeferred
      · rcases List.mem_append.mp h with h | h
        · exact grouped_evaluations hwaits (evaluated_of_settled h)
        · refine @ih (carried pending first ++ [first]) ?_ (by simpa using h)
          intro other hother
          rcases List.mem_append.mp hother with hother | hother
          · exact hcarried other hother
          · rwa [List.mem_singleton.mp hother]
      · split at h
        · rcases List.mem_append.mp h with h | h
          · exact grouped_evaluations hwaits (evaluated_of_settled h)
          · simp at h
        · next hfound =>
            dsimp only at h
            rw [List.append_assoc, List.cons_append, List.mem_append, List.mem_cons, List.mem_append] at h
            rcases h with h | h | h | h
            · exact grouped_evaluations hwaits (evaluated_of_settled h)
            · cases h
            · exact grouped_groupOf hcarried hfound h
            · exact ih (fun other hother => hcarried other (List.mem_of_mem_filter hother)) h

/-! ## Every step is started once, and evaluated once -/

omit [DecidableEq K] in
@[simp] lemma startedIn_settled (pending : List (Step K Q X)) (step : Step K Q X) :
    startedIn (settled pending step) = [] := by
  rw [settled]
  split_ifs
  · exact startedIn_evaluations pending
  · rfl

omit [DecidableEq K] in
/-- What waited is evaluated, or still waits. -/
lemma evaluatedIn_settled (pending : List (Step K Q X)) (step : Step K Q X) :
    evaluatedIn (settled pending step) ++ carried pending step = pending := by
  rw [settled, carried]
  split_ifs
  · rw [evaluatedIn_evaluations, List.append_nil]
  · rfl

/-- **Steps are started in the order of the vector.** -/
lemma plan_started (deferred : List K) (steps pending : List (Step K Q X)) :
    startedIn (plan deferred steps pending).1 <+: steps := by
  induction steps generalizing pending with
  | nil => simp [plan]
  | cons step rest ih =>
      rw [plan]
      split_ifs
      · simpa using ih _
      · split
        · simp
        · simpa using ih _

/-- A plan that does not stop starts all of them. -/
lemma plan_started_all {deferred : List K} {steps pending : List (Step K Q X)}
    (h : (plan deferred steps pending).2 = none) : startedIn (plan deferred steps pending).1 = steps := by
  induction steps generalizing pending with
  | nil => simp [plan]
  | cons step rest ih =>
      rw [plan] at h ⊢
      split_ifs at h ⊢
      · simpa using ih h
      · split at h
        · cases h
        · simpa using ih h

/-- A step waits under its own id. -/
lemma waiting_eq_some_iff {pending : List (Step K Q X)} (hdistinct : Distinct pending) {id : K}
    {step : Step K Q X} : waiting pending id = some step ↔ step ∈ pending ∧ step.id = id := by
  refine ⟨waiting_id, ?_⟩
  rintro ⟨hmem, rfl⟩
  cases hfound : waiting pending step.id with
  | none =>
      rw [waiting, List.find?_eq_none] at hfound
      exact absurd (decide_eq_true rfl) (hfound step hmem)
  | some other =>
      obtain ⟨hother, heq⟩ := waiting_id hfound
      rw [List.inj_on_of_nodup_map hdistinct hother hmem heq]

/-- The partners of a step are what leaves the waiting steps. -/
lemma groupOf_perm {pending : List (Step K Q X)} {step : Step K Q X} (hdistinct : Distinct pending)
    (hpartners : step.partners.Nodup) (h : missing pending step = none) :
    (groupOf pending step ++ remaining pending step).Perm (pending ++ [step]) := by
  have hfound : (step.partners.filterMap (waiting pending)).Perm
      (pending.filter fun other => other.id ∈ step.partners) := by
    have hpending : pending.Nodup := List.Nodup.of_map _ hdistinct
    have hnodup : (step.partners.filterMap (waiting pending)).Nodup :=
      List.Nodup.of_map Step.id ((map_id_partners h).symm ▸ hpartners)
    refine (List.perm_ext_iff_of_nodup hnodup (hpending.filter _)).mpr fun other => ?_
    simp [List.mem_filterMap, waiting_eq_some_iff hdistinct, and_comm]
  have hsplit : (pending.filter (fun other => other.id ∈ step.partners)
      ++ remaining pending step).Perm pending := by
    simpa [remaining] using List.filter_append_perm (fun other => decide (other.id ∈ step.partners)) pending
  rw [groupOf, List.append_assoc]
  refine (List.perm_append_comm.append_left _).trans ?_
  rw [← List.append_assoc]
  exact ((hfound.append_right _).trans hsplit).append_right [step]

/-- **A plan that does not stop evaluates each step once.** -/
lemma plan_evaluated {deferred : List K} {steps pending : List (Step K Q X)}
    (hdistinct : Distinct (pending ++ steps)) (hpartners : ∀ step ∈ steps, step.partners.Nodup)
    (h : (plan deferred steps pending).2 = none) :
    (evaluatedIn (plan deferred steps pending).1).Perm (pending ++ steps) := by
  induction steps generalizing pending with
  | nil => simp [plan]
  | cons step rest ih =>
      have hrest : ∀ other ∈ rest, other.partners.Nodup := fun other hother =>
        hpartners other (List.mem_cons_of_mem _ hother)
      have hcarried := (carried_sublist pending step).append_right (step :: rest)
      have hsettled := evaluatedIn_settled pending step
      rw [plan] at h ⊢
      split_ifs at h ⊢ with hdeferred
      · have hnext := ih (hdistinct.of_sublist (by simpa using hcarried)) hrest h
        calc (evaluatedIn (settled pending step ++ .Started step :: (plan deferred rest _).1))
            = evaluatedIn (settled pending step) ++ evaluatedIn (plan deferred rest _).1 := by simp
          _ ~ evaluatedIn (settled pending step) ++ (carried pending step ++ [step] ++ rest) :=
            hnext.append_left _
          _ = (evaluatedIn (settled pending step) ++ carried pending step) ++ step :: rest := by simp
          _ = pending ++ step :: rest := by rw [hsettled]
      · split at h
        · cases h
        · next hfound =>
            have hwaits := (carried_sublist pending step).trans
              (List.sublist_append_left pending (step :: rest))
            have hgone := groupOf_perm (hdistinct.of_sublist hwaits) (hpartners step List.mem_cons_self) hfound
            have hnext := ih (hdistinct.of_sublist (remaining_sublist pending rest step)) hrest h
            calc (evaluatedIn (settled pending step ++ .Started step
                  :: evaluations (groupOf (carried pending step) step) ++ (plan deferred rest _).1))
                = evaluatedIn (settled pending step) ++ (groupOf (carried pending step) step
                  ++ evaluatedIn (plan deferred rest _).1) := by simp
              _ ~ evaluatedIn (settled pending step) ++ (groupOf (carried pending step) step
                  ++ (remaining (carried pending step) step ++ rest)) :=
                (hnext.append_left _).append_left _
              _ ~ evaluatedIn (settled pending step) ++ (carried pending step ++ [step] ++ rest) := by
                rw [← List.append_assoc (groupOf _ _)]
                exact (hgone.append_right rest).append_left _
              _ = (evaluatedIn (settled pending step) ++ carried pending step) ++ step :: rest := by simp
              _ = pending ++ step :: rest := by rw [hsettled]

end

end Anyonce.Conformance
