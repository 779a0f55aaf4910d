import Anyonce.Engine.Calls
import Anyonce.Go.Queue
import Mathlib.Logic.Function.Basic

/-!
# The warning that no strategy is configured

A wrapper keeps the error of the last duplicate it reported in `pending`, and the next delivery looks
there as it starts: an error that no strategy has translated by then is taken for a strategy that is
missing, and a warning is logged, once.  The companion strategies are those of
`packages/anyq/src/strategy.ts` and `go/anyqmw/strategy.go`.

The two languages differ in their commands and agree on what a command does to these variables, so that
is said once, by the role of a command.

**Any order**: `warns_iff` — a warning comes of a delivery that started before the pending error was
translated, and of nothing else.  **One by one**: `warnedOnce_oneByOne` — a delivery that follows an
untranslated duplicate warns, and no other does.  **Both languages**: `warns_only_untranslated`.
-/

namespace Anyonce

open Interaction

/-! ## What the deliveries of a wrapper share -/

/-- What a command does to the shared variables: it looks at them, logs the warning, stores an error, or
marks one as translated. -/
inductive SlotRole
  | Check
  | Warn
  | Raise
  | Translate
  | Other
  deriving DecidableEq

/-- The shared variables.  An error is named by the delivery that reported it, which reports one at most. -/
structure Slot (ι : Type) where
  pending : Option ι := none
  warned : Bool := false
  translated : ι → Bool := fun _ => false

/-- `previous !== undefined && !previous.translated`. -/
def Slot.untranslated {ι : Type} (s : Slot ι) : Bool := s.pending.any fun i => !s.translated i

section

variable {ι C α : Type} {R : C → Type} [DecidableEq ι]
variable (role : C → SlotRole) (found : (c : C) → R c → Bool)

/-- One step of the variables.  A check clears `pending`, and `found` is what it has decided. -/
def slotStep (s : Slot ι) (p : ι × C) (r : Tagged ι R p) (s' : Slot ι) : Prop :=
  match role p.2 with
  | .Check => found p.2 r = (s.untranslated && !s.warned)
      ∧ s' = { s with pending := none, warned := s.warned || (s.untranslated && !s.warned) }
  | .Warn => s' = s
  | .Raise => s' = { s with pending := some p.1 }
  | .Translate => s' = { s with translated := Function.update s.translated p.1 true }
  | .Other => s' = s

variable {role found}

lemma slotStep_check {s s' : Slot ι} {i : ι} {c : C} {r : R c} (hrole : role c = .Check) :
    slotStep role found s (i, c) r s' ↔ found c r = (s.untranslated && !s.warned)
      ∧ s' = { s with pending := none, warned := s.warned || (s.untranslated && !s.warned) } := by
  rw [slotStep]
  simp only [hrole]

/-- Nothing else touches the variable `warned`. -/
lemma slotStep_warned {s s' : Slot ι} {i : ι} {c : C} {r : R c} (hrole : role c ≠ .Check)
    (h : slotStep role found s (i, c) r s') : s'.warned = s.warned := by
  rw [slotStep] at h
  dsimp only at h
  split at h
  · exact absurd ‹_› hrole
  · rw [h]
  · rw [h]
  · rw [h]
  · rw [h]

variable (role found)

/-! ## Programs that check once -/

/-- It neither checks nor warns. -/
def Calm (p : Prog C R α) : Prop := p.Only fun c => role c ≠ .Check ∧ role c ≠ .Warn

/-- Its next step is the warning, and it gives no other. -/
def AboutToWarn : Prog C R α → Prop
  | .Ret _ => False
  | .Call c k => role c = .Warn ∧ ∀ r, Calm role (k r)

/-- It checks first, and warns when the check says so. -/
def Announces : Prog C R α → Prop
  | .Ret _ => False
  | .Call c k => role c = .Check
      ∧ ∀ r, if found c r then AboutToWarn role (k r) else Calm role (k r)

variable {role found}

lemma Calm.not_aboutToWarn {p : Prog C R α} (h : Calm role p) : ¬ AboutToWarn role p := by
  cases p with
  | Ret a => exact id
  | Call c k => exact fun habout => h.1.2 habout.1

lemma Announces.not_aboutToWarn {p : Prog C R α} (h : Announces role found p) : ¬ AboutToWarn role p := by
  cases p with
  | Ret a => exact id
  | Call c k =>
      intro habout
      have hcheck := h.1
      rw [habout.1] at hcheck
      cases hcheck

/-- How far a program is. -/
def Paced (role : C → SlotRole) (found : (c : C) → R c → Bool) (p : Prog C R α) : Prop :=
  Announces role found p ∨ AboutToWarn role p ∨ Calm role p

/-- **A step of a program, by its role**: a check comes first and decides on the warning; the warning
follows; and anything else changes nothing of this. -/
lemma Paced.step {c : C} {k : R c → Prog C R α} (h : Paced role found (.Call c k)) (r : R c) :
    (role c = .Check ∧ Announces role found (.Call c k)
        ∧ if found c r then AboutToWarn role (k r) else Calm role (k r))
      ∨ (role c = .Warn ∧ AboutToWarn role (.Call c k) ∧ Calm role (k r))
      ∨ (role c ≠ .Check ∧ role c ≠ .Warn ∧ Calm role (.Call c k) ∧ Calm role (k r)) := by
  rcases h with h | h | h
  · exact Or.inl ⟨h.1, h, h.2 r⟩
  · exact Or.inr (Or.inl ⟨h.1, h, h.2 r⟩)
  · exact Or.inr (Or.inr ⟨h.1.1, h.1.2, h, h.2 r⟩)

/-! ## Runs in any order -/

/-- A recorded step of this role. -/
def Did (role : C → SlotRole) (what : SlotRole) (h : List (Entry (ι × C) (Tagged ι R) (Slot ι))) : Prop :=
  ∃ e ∈ h, role e.cmd.2 = what

/-- A delivery has warned, or is about to. -/
def Warns (role : C → SlotRole) (cfg : Config ι C R α (Slot ι)) : Prop :=
  Did role .Warn cfg.history ∨ ∃ i, AboutToWarn role (cfg.pool i)

/-- A delivery started while the pending error was untranslated. -/
def StartedUntranslated (role : C → SlotRole) (h : List (Entry (ι × C) (Tagged ι R) (Slot ι))) : Prop :=
  ∃ e ∈ h, role e.cmd.2 = .Check ∧ e.pre.untranslated = true

section

variable {obj : Slot ι → (p : ι × C) → Tagged ι R p → Slot ι → Prop} {start : ι → Prog C R α}
variable {cfg : Config ι C R α (Slot ι)} {i : ι} {c : C} {k : R c → Prog C R α} {r : R c} {s' : Slot ι}

/-- What a step leaves of the pool. -/
def Config.stepped (cfg : Config ι C R α (Slot ι)) (i : ι) (c : C) (k : R c → Prog C R α) (r : R c)
    (s' : Slot ι) : Config ι C R α (Slot ι) :=
  ⟨s', fun j => if j = i then k r else cfg.pool j, cfg.history ++ [⟨cfg.state, (i, c), r, s'⟩]⟩

omit [DecidableEq ι] in
@[simp] lemma did_snoc {what : SlotRole} {h : List (Entry (ι × C) (Tagged ι R) (Slot ι))}
    {e : Entry (ι × C) (Tagged ι R) (Slot ι)} :
    Did role what (h ++ [e]) ↔ Did role what h ∨ role e.cmd.2 = what := by
  simp [Did, or_and_right, exists_or]

omit [DecidableEq ι] in
@[simp] lemma startedUntranslated_snoc {h : List (Entry (ι × C) (Tagged ι R) (Slot ι))}
    {e : Entry (ι × C) (Tagged ι R) (Slot ι)} :
    StartedUntranslated role (h ++ [e])
      ↔ StartedUntranslated role h ∨ role e.cmd.2 = .Check ∧ e.pre.untranslated = true := by
  simp [StartedUntranslated, or_and_right, exists_or]

lemma exists_aboutToWarn_stepped : (∃ j, AboutToWarn role (if j = i then k r else cfg.pool j))
    ↔ AboutToWarn role (k r) ∨ ∃ j, j ≠ i ∧ AboutToWarn role (cfg.pool j) := by
  constructor
  · rintro ⟨j, hj⟩
    by_cases hji : j = i
    · exact Or.inl (by simpa [hji] using hj)
    · exact Or.inr ⟨j, hji, by simpa [hji] using hj⟩
  · rintro (h | ⟨j, hji, hj⟩)
    · exact ⟨i, by simpa using h⟩
    · exact ⟨j, by simpa [hji] using hj⟩

omit [DecidableEq ι] in
/-- A program that is not about to warn is not among those that are. -/
lemma exists_aboutToWarn_of_not (h : ¬ AboutToWarn role (cfg.pool i)) :
    (∃ j, j ≠ i ∧ AboutToWarn role (cfg.pool j)) ↔ ∃ j, AboutToWarn role (cfg.pool j) := by
  constructor
  · rintro ⟨j, -, hj⟩
    exact ⟨j, hj⟩
  · rintro ⟨j, hj⟩
    refine ⟨j, ?_, hj⟩
    rintro rfl
    exact h hj

lemma paced_stepped (hpaced : ∀ j, Paced role found (cfg.pool j)) (hpool : cfg.pool i = .Call c k) (j : ι) :
    Paced role found ((Config.stepped cfg i c k r s').pool j) := by
  by_cases hji : j = i
  · have hi := hpaced i
    rw [hpool] at hi
    have hnext : Paced role found (k r) := by
      rcases hi.step r with ⟨-, -, hdecided⟩ | ⟨-, -, hcalm⟩ | ⟨-, -, -, hcalm⟩
      · split_ifs at hdecided
        · exact Or.inr (Or.inl hdecided)
        · exact Or.inr (Or.inr hdecided)
      · exact Or.inr (Or.inr hcalm)
      · exact Or.inr (Or.inr hcalm)
    simpa [Config.stepped, hji] using hnext
  · simpa [Config.stepped, hji] using hpaced j

/-- The variable `warned` says whether a start found an untranslated error, and whether a delivery
warns. -/
structure Tracks (role : C → SlotRole) (found : (c : C) → R c → Bool) (cfg : Config ι C R α (Slot ι)) :
    Prop where
  paced : ∀ i, Paced role found (cfg.pool i)
  started : cfg.state.warned = true ↔ StartedUntranslated role cfg.history
  warns : cfg.state.warned = true ↔ Warns role cfg

/-- **One step keeps track of the warning.** -/
lemma Tracks.step (h : Tracks role found cfg) (hpool : cfg.pool i = .Call c k)
    (hstep : slotStep role found cfg.state (i, c) r s') :
    Tracks role found (Config.stepped cfg i c k r s') := by
  have hi := h.paced i
  rw [hpool] at hi
  refine ⟨paced_stepped h.paced hpool, ?_, ?_⟩
  · show s'.warned = true ↔ StartedUntranslated role (cfg.history ++ [_])
    rw [startedUntranslated_snoc, ← h.started]
    by_cases hrole : role c = .Check
    · obtain ⟨-, rfl⟩ := (slotStep_check hrole).mp hstep
      cases cfg.state.warned <;> simp [hrole]
    · simp [slotStep_warned hrole hstep, hrole]
  · have hwarns := h.warns
    rw [Warns] at hwarns ⊢
    show s'.warned = true ↔ Did role .Warn (cfg.history ++ [_])
      ∨ ∃ j, AboutToWarn role (if j = i then k r else cfg.pool j)
    rw [did_snoc, exists_aboutToWarn_stepped]
    rcases hi.step r with ⟨hrole, hannounces, hdecided⟩ | ⟨hrole, habout, hcalm⟩ | ⟨hcheck, hwarn, hcalm, hcalm'⟩
    · -- a check that finds an error is about to warn of it
      rw [exists_aboutToWarn_of_not (hpool ▸ hannounces.not_aboutToWarn)]
      obtain ⟨hfound, rfl⟩ := (slotStep_check hrole).mp hstep
      rw [hfound] at hdecided
      cases hdue : (cfg.state.untranslated && !cfg.state.warned) with
      | true =>
          rw [hdue, if_pos rfl] at hdecided
          simp [hdecided]
      | false =>
          rw [hdue, if_neg Bool.false_ne_true] at hdecided
          simp [hdecided.not_aboutToWarn, hrole, hwarns]
    · -- the warning has a program that was about to give it
      have hwarned : cfg.state.warned = true := hwarns.mpr (Or.inr ⟨i, hpool ▸ habout⟩)
      have hkept := slotStep_warned (by simp [hrole]) hstep
      simp [hkept, hwarned, hrole]
    · rw [exists_aboutToWarn_of_not (hpool ▸ hcalm.not_aboutToWarn)]
      simp [slotStep_warned hcheck hstep, hwarn, hcalm'.not_aboutToWarn, hwarns]

/-- Every run keeps track of the warning. -/
lemma tracks_run {allowed : List (Entry (ι × C) (Tagged ι R) (Slot ι)) → Slot ι → ι × C → Prop}
    (hstart : ∀ i, Announces role found (start i))
    (h : Interleave allowed (slotStep role found) {} start cfg) : Tracks role found cfg := by
  induction h with
  | start =>
      have hnone : ¬ ∃ i, AboutToWarn role (start i) := fun ⟨i, hi⟩ => (hstart i).not_aboutToWarn hi
      refine ⟨fun i => Or.inl (hstart i), ?_, ?_⟩
      · simp [StartedUntranslated]
      · simpa [Warns, Did] using hnone
  | step i c k r s' _ hpool _ hstep ih => exact ih.step hpool hstep

/-- **A warning comes of a start that found the pending error untranslated**, and of nothing else: in every
run a delivery has warned, or is about to, if and only if one has started so. -/
lemma warns_iff {allowed : List (Entry (ι × C) (Tagged ι R) (Slot ι)) → Slot ι → ι × C → Prop}
    (hstart : ∀ i, Announces role found (start i))
    (h : Interleave allowed (slotStep role found) {} start cfg) :
    Warns role cfg ↔ StartedUntranslated role cfg.history :=
  (tracks_run hstart h).warns.symm.trans (tracks_run hstart h).started

/-! ## Runs of one delivery after another -/

/-- A delivery started after a duplicate was reported. -/
def Followed (role : C → SlotRole) (h : List (Entry (ι × C) (Tagged ι R) (Slot ι))) : Prop :=
  ∃ h₁ e h₂, h = h₁ ++ e :: h₂ ∧ role e.cmd.2 = .Check ∧ Did role .Raise h₁

/-- How often the warning was logged. -/
def warnings (role : C → SlotRole) (h : List (Entry (ι × C) (Tagged ι R) (Slot ι))) : ℕ :=
  h.countP fun e => role e.cmd.2 = .Warn

/-- The last step of a run was the start of a delivery. -/
def JustStarted (role : C → SlotRole) (h : List (Entry (ι × C) (Tagged ι R) (Slot ι))) : Prop :=
  ∃ h₁ e, h = h₁ ++ [e] ∧ role e.cmd.2 = .Check

omit [DecidableEq ι] in
lemma followed_snoc {h : List (Entry (ι × C) (Tagged ι R) (Slot ι))}
    {e : Entry (ι × C) (Tagged ι R) (Slot ι)} :
    Followed role (h ++ [e]) ↔ Followed role h ∨ role e.cmd.2 = .Check ∧ Did role .Raise h := by
  constructor
  · rintro ⟨h₁, e', h₂, hsplit, hcheck, hraised⟩
    rcases snoc_split hsplit with ⟨rfl, rfl, -⟩ | ⟨h₃, -, rfl⟩
    · exact Or.inr ⟨hcheck, hraised⟩
    · exact Or.inl ⟨h₁, e', h₃, rfl, hcheck, hraised⟩
  · rintro (⟨h₁, e', h₂, rfl, hcheck, hraised⟩ | ⟨hcheck, hraised⟩)
    · exact ⟨h₁, e', h₂ ++ [e], by simp, hcheck, hraised⟩
    · exact ⟨h, e, [], rfl, hcheck, hraised⟩

omit [DecidableEq ι] in
lemma warnings_eq_zero_iff {h : List (Entry (ι × C) (Tagged ι R) (Slot ι))} :
    warnings role h = 0 ↔ ¬ Did role .Warn h := by
  simp [warnings, Did]

/-- Without translations, a start finds an untranslated error as soon as one was reported, and no
sooner. -/
lemma startedUntranslated_iff {allowed : List (Entry (ι × C) (Tagged ι R) (Slot ι)) → Slot ι → ι × C → Prop}
    (h : Interleave allowed (slotStep role found) {} start cfg)
    (hnever : ¬ Did role .Translate cfg.history) :
    StartedUntranslated role cfg.history ↔ Followed role cfg.history := by
  have hinv : (∀ i, cfg.state.translated i = false)
      ∧ (cfg.state.pending.isSome = true → Did role .Raise cfg.history)
      ∧ (¬ Followed role cfg.history → Did role .Raise cfg.history → cfg.state.pending.isSome = true)
      ∧ (StartedUntranslated role cfg.history ↔ Followed role cfg.history) := by
    induction h with
    | start => simp [Did, StartedUntranslated, Followed]
    | @step cfg i c k r s' _ hpool _ hstep ih =>
        rw [did_snoc, not_or] at hnever
        obtain ⟨htranslated, hraised, hpending, hiff⟩ := ih hnever.1
        have huntranslated : cfg.state.untranslated = cfg.state.pending.isSome := by
          rw [Slot.untranslated]
          cases cfg.state.pending <;> simp [htranslated]
        simp only [did_snoc, startedUntranslated_snoc, followed_snoc]
        cases hrole : role c with
        | Check =>
            obtain ⟨-, rfl⟩ := (slotStep_check hrole).mp hstep
            refine ⟨htranslated, by simp, ?_, ?_⟩
            · simp_all
            · by_cases hfollowed : Followed role cfg.history
              · simp [hiff, hfollowed]
              · have hfound : cfg.state.pending.isSome = true ↔ Did role .Raise cfg.history :=
                  ⟨hraised, hpending hfollowed⟩
                simp [hiff, hfollowed, huntranslated, hfound]
        | Warn => simp_all [slotStep]
        | Raise => simp_all [slotStep]
        | Translate => exact absurd hrole hnever.2
        | Other => simp_all [slotStep]
  exact hinv.2.2.2

/-- When deliveries are processed one after another, the one that makes a step is the only one that may be
about to warn. -/
lemma only_active_warns {allowed : List (Entry (ι × C) (Tagged ι R) (Slot ι)) → Slot ι → ι × C → Prop}
    (hstart : ∀ i, Announces role found (start i))
    (h : Interleave allowed (slotStep role found) {} start cfg)
    (hothers : ∀ j, j ≠ i → traceOf j cfg.history = [] ∨ ∃ a, cfg.pool j = .Ret a) :
    ¬ ∃ j, j ≠ i ∧ AboutToWarn role (cfg.pool j) := by
  rintro ⟨j, hji, habout⟩
  rcases hothers j hji with hfresh | ⟨a, hret⟩
  · have hsteps := h.steps j
    rw [hfresh] at hsteps
    rw [hsteps.of_nil] at habout
    exact (hstart j).not_aboutToWarn habout
  · rw [hret] at habout
    exact habout

/-- What is true of the warning when deliveries are processed one after another. -/
structure WarnedOnce (role : C → SlotRole) (cfg : Config ι C R α (Slot ι)) : Prop where
  once : warnings role cfg.history ≤ 1
  settled : Did role .Warn cfg.history → ¬ ∃ i, AboutToWarn role (cfg.pool i)
  atOnce : (∃ i, AboutToWarn role (cfg.pool i)) → JustStarted role cfg.history

/-- **The warning is logged once at most, and right after the start that calls for it.** -/
lemma warnedOnce_oneByOne (hstart : ∀ i, Announces role found (start i))
    (h : OneByOne (slotStep role found) {} start cfg) : WarnedOnce role cfg := by
  induction h with
  | start =>
      have hnone : ¬ ∃ i, AboutToWarn role (start i) := fun ⟨i, hi⟩ => (hstart i).not_aboutToWarn hi
      exact ⟨Nat.zero_le 1, fun _ => hnone, fun habout => absurd habout hnone⟩
  | @step cfg i c k r s' hrun hpool hothers hstep ih =>
      have htracks := tracks_run hstart hrun.interleave
      have hactive := only_active_warns (i := i) hstart hrun.interleave hothers
      have hpaced := htracks.paced i
      have hpool' : (∃ j, AboutToWarn role (if j = i then k r else cfg.pool j)) ↔ AboutToWarn role (k r) :=
        exists_aboutToWarn_stepped.trans (or_iff_left hactive)
      have hcount : warnings role (cfg.history ++ [⟨cfg.state, (i, c), r, s'⟩])
          = warnings role cfg.history + if role c = .Warn then 1 else 0 := by
        simp [warnings, List.countP_append, List.countP_cons]
      rw [hpool] at hpaced
      rcases hpaced.step r with ⟨hrole, -, hdecided⟩ | ⟨hrole, habout, hcalm⟩ | ⟨-, hwarn, -, hcalm⟩
      · refine ⟨by simpa [hcount, hrole] using ih.once, ?_, fun _ => ⟨_, _, rfl, hrole⟩⟩
        -- a check decides on the warning only when it was not logged before
        intro hwarned
        have hlogged : Did role .Warn cfg.history := by simpa [hrole] using hwarned
        have hbefore : cfg.state.warned = true := htracks.warns.mpr (Or.inl hlogged)
        obtain ⟨hfound, -⟩ := (slotStep_check hrole).mp hstep
        rw [hfound, hbefore, Bool.not_true, Bool.and_false, if_neg Bool.false_ne_true] at hdecided
        exact hpool'.not.mpr hdecided.not_aboutToWarn
      · have hnever : warnings role cfg.history = 0 :=
          warnings_eq_zero_iff.mpr fun hlogged => ih.settled hlogged ⟨i, hpool ▸ habout⟩
        have hdone := hpool'.not.mpr hcalm.not_aboutToWarn
        exact ⟨by simp [hcount, hnever, hrole], fun _ => hdone, fun habout' => absurd habout' hdone⟩
      · have hdone := hpool'.not.mpr hcalm.not_aboutToWarn
        exact ⟨by simpa [hcount, hwarn] using ih.once, fun _ => hdone, fun habout' => absurd habout' hdone⟩

end

end

/-! ## TypeScript -/

/-- What a retry strategy decides about a failed delivery. -/
inductive RetryDecision
  | Ack
  | Retry (delayMs : ℤ)
  | Requeue
  | DeadLetter (reason : JsString)
  | Park (delayMs : ℤ)
  | Fail

/-- What the deliveries of a consumer do: the commands of the door, and those of the strategy.  `Decide` is
the decision of the inner strategy, or of the consumer when no strategy is configured. -/
inductive ConsumerCall (E : Type)
  | Door (call : QueueCall E)
  | MarkTranslated
  | Decide (error : QueueError E)

abbrev ConsumerReply (E : Type) : ConsumerCall E → Type
  | .Door call => QueueReply E call
  | .MarkTranslated => Unit
  | .Decide _ => RetryDecision

abbrev ConsumerProg (E : Type) : Type → Type := Prog (ConsumerCall E) (ConsumerReply E)

section

variable {E ι : Type}

/-- Issue one command of a delivery. -/
abbrev consumerAsk (c : ConsumerCall E) : ConsumerProg E (ConsumerReply E c) := Prog.call c

/-- `decide` of the companion strategy.  A value the handler threw is not an error of this wrapper. -/
def idempotencyStrategy : QueueError E → ConsumerProg E RetryDecision
  | .InFlight _ delayMs => do
      consumerAsk .MarkTranslated
      pure (.Park delayMs)
  | .FingerprintMismatch _ => pure (.DeadLetter (js "fingerprint-mismatch"))
  | error => consumerAsk (.Decide error)

/-- What the strategy of a consumer decides of an error. -/
def decideError (strategy : Bool) (error : QueueError E) : ConsumerProg E RetryDecision :=
  if strategy then idempotencyStrategy error else consumerAsk (.Decide error)

/-- What a consumer does after a delivery; `none` is an acknowledgement. -/
def settleDelivery (strategy : Bool) :
    Except (QueueError E) Unit → ConsumerProg E (Option RetryDecision)
  | .ok () => pure none
  | .error error => do
      let decision ← decideError strategy error
      pure (some decision)

/-- One delivery of a consumer; `strategy` says whether the companion strategy is configured. -/
def consume (options : IdempotentOptions) (strategy : Bool) (message : QueueMessage E) :
    ConsumerProg E (Option RetryDecision) := do
  let out ← (idempotent options message).embed .Door id
  settleDelivery strategy out

def ConsumerCall.role : ConsumerCall E → SlotRole
  | .Door .Untranslated => .Check
  | .Door .Warn => .Warn
  | .Door (.SetPending _ _) => .Raise
  | .MarkTranslated => .Translate
  | _ => .Other

def ConsumerCall.found : (c : ConsumerCall E) → ConsumerReply E c → Bool
  | .Door .Untranslated, due => due
  | _, _ => false

/-- A command of the door after the warning. -/
def QueueCall.calm (call : QueueCall E) : Prop :=
  (ConsumerCall.Door call).role ≠ .Check ∧ (ConsumerCall.Door call).role ≠ .Warn

lemma calm_hook (call : HookCall E) : (queueAsk (.Hook call)).Only (QueueCall.calm (E := E)) :=
  ⟨⟨nofun, nofun⟩, fun _ => trivial⟩

lemma queueStore_calm : (queueStore (E := E)).Only QueueCall.calm where
  begin _ _ := ⟨⟨nofun, nofun⟩, fun _ => trivial⟩
  complete _ _ _ _ := ⟨⟨nofun, nofun⟩, fun _ => trivial⟩
  abandon _ _ := ⟨⟨nofun, nofun⟩, fun _ => trivial⟩

lemma queueHooks_calm (installed : Installed) :
    (queueHooks (E := E) installed).Only QueueCall.calm where
  onAcquired := forall_installed fun _ => calm_hook _
  onReplayed := forall_installed fun _ _ => calm_hook _
  onConflict := forall_installed fun _ _ => calm_hook _
  onMismatch := forall_installed fun _ _ => calm_hook _
  onStoreError := forall_installed fun _ _ => calm_hook _

lemma policyFor_calm (options : IdempotentOptions) :
    (policyFor (E := E) options).Only QueueCall.calm where
  storeResult _ := trivial
  clock := ⟨⟨nofun, nofun⟩, fun _ => trivial⟩
  hooks := by
    show ((options.hooks.map queueHooks).getD {}).Only _
    cases options.hooks with
    | none => exact ⟨nofun, nofun, nofun, nofun, nofun⟩
    | some installed => exact queueHooks_calm installed
  hookErrors := nofun

/-- After the warning a delivery neither looks at the variables again nor warns. -/
lemma deliver_calm (options : IdempotentOptions) (message : QueueMessage E) :
    (deliver options message).Only QueueCall.calm := by
  unfold deliver
  split
  · exact only_ret _
  · next op hop =>
      refine only_bind (only_execute queueStore_calm (policyFor_calm options) op fun fence => ?_) fun out => ?_
      · refine ⟨⟨nofun, nofun⟩, fun r => ?_⟩
        cases r <;> exact only_ret _
      · cases out with
        | error thrown => exact only_ret _
        | ok outcome =>
            cases outcome with
            | Conflict leaseUntil =>
                show Prog.Only _ (if options.onInFlight.getD .Retry = .Ack then _ else _)
                split_ifs
                · exact only_ret _
                · exact ⟨⟨nofun, nofun⟩, fun now => ⟨⟨nofun, nofun⟩, fun _ => trivial⟩⟩
            | Executed result stored => exact only_ret _
            | Replayed record => exact only_ret _
            | Mismatch record => exact only_ret _
            | StoreError error => exact only_ret _

/-- A step of the consumer or of its strategy. -/
lemma calm_consumerAsk {c : ConsumerCall E} (hcheck : c.role ≠ .Check) (hwarn : c.role ≠ .Warn) :
    Calm ConsumerCall.role (consumerAsk c) :=
  ⟨⟨hcheck, hwarn⟩, fun _ => trivial⟩

/-- What follows a delivery neither looks at the variables nor warns. -/
lemma settleDelivery_calm (strategy : Bool) (out : Except (QueueError E) Unit) :
    Calm ConsumerCall.role (settleDelivery strategy out) := by
  cases out with
  | ok u => exact trivial
  | error error =>
      refine only_bind ?_ fun decision => only_ret _
      unfold decideError
      split_ifs
      · cases error with
        | InFlight leaseUntil delayMs => exact only_bind (calm_consumerAsk nofun nofun) fun _ => only_ret _
        | FingerprintMismatch record => exact only_ret _
        | Thrown value => exact calm_consumerAsk nofun nofun
        | Fingerprint cause => exact calm_consumerAsk nofun nofun
        | Configuration message => exact calm_consumerAsk nofun nofun
      · exact calm_consumerAsk nofun nofun

/-- **A delivery checks first, and warns when the check says so.** -/
lemma consume_announces (options : IdempotentOptions) (strategy : Bool) (message : QueueMessage E) :
    Announces ConsumerCall.role ConsumerCall.found (consume options strategy message) := by
  have hdelivered : Calm ConsumerCall.role
      (((deliver options message).embed .Door id : ConsumerProg E _) >>= settleDelivery strategy) :=
    only_bind (only_embed (deliver_calm options message)) (settleDelivery_calm strategy)
  refine ⟨rfl, fun due => ?_⟩
  cases due with
  | false => exact hdelivered
  | true =>
      refine ⟨rfl, fun warned => ?_⟩
      cases warned with
      | error thrown => exact settleDelivery_calm strategy (.error (.Thrown thrown))
      | ok u => exact hdelivered

end

/-! ## Go -/

namespace Go

inductive Decision
  | Ack
  | Retry (delayMs : ℤ)
  | Requeue
  | DeadLetter (reason : GoString)
  | Park (delayMs : ℤ)
  | Fail

/-- What the deliveries of a consumer do, as in TypeScript. -/
inductive ConsumerCall
  | Door (call : QueueCall)
  | MarkTranslated
  | Decide (err : QueueError)

abbrev ConsumerReply (V : Type) : ConsumerCall → Type
  | .Door call => QueueReply V call
  | .MarkTranslated => Unit
  | .Decide _ => Except GoError Decision

abbrev ConsumerProg (V : Type) : Type → Type := Prog ConsumerCall (ConsumerReply V)

section

variable {V ι : Type}

/-- Issue one command of a delivery. -/
abbrev consumerAsk (c : ConsumerCall) : ConsumerProg V (ConsumerReply V c) := Prog.call c

/-- `Strategy`. -/
def strategyDecide : QueueError → ConsumerProg V (Except GoError Decision)
  | .InFlight _ delayMs => do
      consumerAsk .MarkTranslated
      pure (.ok (.Park delayMs))
  | .Mismatch _ => pure (.ok (.DeadLetter (ascii "fingerprint-mismatch")))
  | err => consumerAsk (.Decide err)

/-- What the strategy of a consumer decides of an error. -/
def decideError (strategy : Bool) (err : QueueError) : ConsumerProg V (Except GoError Decision) :=
  if strategy then strategyDecide err else consumerAsk (.Decide err)

/-- What a consumer does after a delivery.  A panic is its own; `none` is an acknowledgement. -/
def settleDelivery (strategy : Bool) :
    Except V (Option QueueError) → ConsumerProg V (Except V (Option (Except GoError Decision)))
  | .error p => pure (.error p)
  | .ok none => pure (.ok none)
  | .ok (some err) => do
      let decision ← decideError strategy err
      pure (.ok (some decision))

/-- One delivery of a consumer; `strategy` says whether the companion strategy is configured. -/
def consume (o : QueueOptions) (strategy : Bool) (msg : QueueMessage) :
    ConsumerProg V (Except V (Option (Except GoError Decision))) := do
  let out ← (wrap o msg).embed .Door id
  settleDelivery strategy out

def ConsumerCall.role : ConsumerCall → SlotRole
  | .Door .Untranslated => .Check
  | .Door .Warn => .Warn
  | .Door (.SetPending _ _) => .Raise
  | .MarkTranslated => .Translate
  | _ => .Other

def ConsumerCall.found : (c : ConsumerCall) → ConsumerReply V c → Bool
  | .Door .Untranslated, due => due
  | _, _ => false

/-- A command of the door after the warning. -/
def QueueCall.calm (call : QueueCall) : Prop :=
  (ConsumerCall.Door call).role ≠ .Check ∧ (ConsumerCall.Door call).role ≠ .Warn

lemma calm_queueLift {call : QueueCall} (hcheck : (ConsumerCall.Door call).role ≠ .Check)
    (hwarn : (ConsumerCall.Door call).role ≠ .Warn) :
    OnlyIn QueueCall.calm (queueLift call : QueueM V (QueueReply V call)) :=
  onlyIn_call ⟨hcheck, hwarn⟩

lemma queueStore_calm : (queueStore (V := V)).OnlyIn QueueCall.calm where
  begin _ _ _ := calm_queueLift nofun nofun
  complete _ _ _ _ _ := calm_queueLift nofun nofun
  abandon _ _ _ := calm_queueLift nofun nofun

lemma policy_calm (o : QueueOptions) : (o.policy (V := V)).OnlyIn QueueCall.calm where
  storeResult := forall_installed fun _ => calm_queueLift nofun nofun
  now := calm_queueLift nofun nofun
  onAcquired := forall_installed fun _ => calm_queueLift nofun nofun
  onReplayed := forall_installed fun _ _ => calm_queueLift nofun nofun
  onConflict := forall_installed fun _ _ => calm_queueLift nofun nofun
  onMismatch := forall_installed fun _ _ => calm_queueLift nofun nofun
  onStoreError := forall_installed fun _ _ => calm_queueLift nofun nofun
  hookErrors := forall_installed (calm_queueLift nofun nofun)

lemma runHandler_calm : OnlyIn QueueCall.calm (runHandler (V := V)) := by
  refine onlyIn_bind (calm_queueLift nofun nofun) fun ended => ?_
  cases ended with
  | Panicked p => exact fun _ => trivial
  | Returned err =>
      cases err with
      | some err => exact onlyIn_pure _
      | none =>
          refine onlyIn_bind (calm_queueLift nofun nofun) fun ctxErr => ?_
          cases ctxErr <;> exact onlyIn_pure _

lemma acknowledge_calm (o : QueueOptions) (result : Result) :
    (o.acknowledge (V := V) result).Only QueueCall.calm := by
  cases result with
  | Conflict leaseUntil =>
      rw [QueueOptions.acknowledge]
      split_ifs
      · exact only_ret _
      · refine ⟨⟨?_, ?_⟩, fun now => ⟨⟨?_, ?_⟩, fun _ => trivial⟩⟩
        all_goals rintro ⟨⟩
  | Executed result stored => exact only_ret _
  | Replayed record => exact only_ret _
  | Mismatch record => exact only_ret _
  | StoreError err => exact only_ret _
  | Zero => exact only_ret _

/-- After the warning a delivery neither looks at the variables again nor warns. -/
lemma deliver_calm (o : QueueOptions) (msg : QueueMessage) :
    (o.deliver (V := V) msg).Only QueueCall.calm := by
  unfold QueueOptions.deliver
  split
  · exact only_ret _
  · next op hop =>
      have hctx : OnlyIn QueueCall.calm (queueLift .CtxErr : QueueM V _) := calm_queueLift nofun nofun
      refine only_bind
        (onlyIn_execute queueStore_calm (policy_calm o) op hctx (fun _ => runHandler_calm) none) ?_
      rintro ⟨left, panicValue⟩
      rcases left with p | ⟨result, err⟩
      · exact only_ret _
      · cases panicValue with
        | some p => exact only_ret _
        | none =>
            cases err with
            | some err => exact only_ret _
            | none => exact acknowledge_calm o result

/-- A step of the consumer or of its strategy. -/
lemma calm_consumerAsk {c : ConsumerCall} (hcheck : c.role ≠ .Check) (hwarn : c.role ≠ .Warn) :
    Calm ConsumerCall.role (consumerAsk (V := V) c) :=
  ⟨⟨hcheck, hwarn⟩, fun _ => trivial⟩

/-- What follows a delivery neither looks at the variables nor warns. -/
lemma settleDelivery_calm (strategy : Bool) (out : Except V (Option QueueError)) :
    Calm ConsumerCall.role (settleDelivery strategy out) := by
  rcases out with p | _ | err
  · exact only_ret _
  · exact only_ret _
  · refine only_bind ?_ fun decision => only_ret _
    unfold decideError
    split_ifs
    · cases err with
      | InFlight leaseUntil delayMs => exact only_bind (calm_consumerAsk nofun nofun) fun _ => only_ret _
      | Mismatch record => exact only_ret _
      | Options err => exact calm_consumerAsk nofun nofun
      | UnknownInFlightMode mode => exact calm_consumerAsk nofun nofun
      | InvalidKey reason => exact calm_consumerAsk nofun nofun
      | Engine err => exact calm_consumerAsk nofun nofun
      | Unexpected kind => exact calm_consumerAsk nofun nofun
    · exact calm_consumerAsk nofun nofun

/-- **A delivery checks first, and warns when the check says so.** -/
lemma consume_announces (o : QueueOptions) (strategy : Bool) (msg : QueueMessage) :
    Announces ConsumerCall.role ConsumerCall.found (consume (V := V) o strategy msg) := by
  have hdelivered : Calm ConsumerCall.role
      (((o.deliver msg).embed .Door id : ConsumerProg V _) >>= settleDelivery strategy) :=
    only_bind (only_embed (deliver_calm o msg)) (settleDelivery_calm strategy)
  refine ⟨rfl, fun due => ?_⟩
  cases due with
  | false => exact hdelivered
  | true =>
      refine ⟨rfl, fun warned => ?_⟩
      cases warned with
      | error p => exact settleDelivery_calm strategy (.error p)
      | ok u => exact hdelivered

end

end Go

/-! ## Both languages -/

/-- When the deliveries of a wrapper warn. -/
structure WarnsRightly {ι C α : Type} {R : C → Type} [DecidableEq ι] (role : C → SlotRole)
    (found : (c : C) → R c → Bool) (start : ι → Prog C R α) : Prop where
  /-- In any order: when one has started while the pending error was untranslated, and only then. -/
  anyOrder : ∀ cfg, Interleave (fun _ _ _ => True) (slotStep role found) {} start cfg →
    (Warns role cfg ↔ StartedUntranslated role cfg.history)
  /-- One after another, with nothing translated: once, right after the start that follows a duplicate. -/
  followed : ∀ cfg, OneByOne (slotStep role found) {} start cfg → ¬ Did role .Translate cfg.history →
    Followed role cfg.history →
      warnings role cfg.history = 1 ∨ warnings role cfg.history = 0 ∧ JustStarted role cfg.history
  /-- And before that, never. -/
  unfollowed : ∀ cfg, OneByOne (slotStep role found) {} start cfg → ¬ Did role .Translate cfg.history →
    ¬ Followed role cfg.history → warnings role cfg.history = 0

lemma warnsRightly {ι C α : Type} {R : C → Type} [DecidableEq ι] {role : C → SlotRole}
    {found : (c : C) → R c → Bool} {start : ι → Prog C R α}
    (hstart : ∀ i, Announces role found (start i)) : WarnsRightly role found start where
  anyOrder _ h := warns_iff hstart h
  followed cfg h hnever hfollowed := by
    have honce := warnedOnce_oneByOne hstart h
    have hwarns : Warns role cfg := (warns_iff hstart h.interleave).mpr
      ((startedUntranslated_iff h.interleave hnever).mpr hfollowed)
    rcases Nat.eq_zero_or_pos (warnings role cfg.history) with hzero | hpos
    · have habout := hwarns.resolve_left (warnings_eq_zero_iff.mp hzero)
      exact Or.inr ⟨hzero, honce.atOnce habout⟩
    · exact Or.inl (Nat.le_antisymm honce.once hpos)
  unfollowed cfg h hnever hfollowed := by
    refine warnings_eq_zero_iff.mpr fun hlogged => hfollowed ?_
    exact (startedUntranslated_iff h.interleave hnever).mp ((warns_iff hstart h.interleave).mp (Or.inl hlogged))

/-- **No false warning, but for an overlap.**  In every run of any number of deliveries with the calls of
their strategy, in both languages, a delivery warns if and only if one has started while the error then
pending was untranslated.  When deliveries are processed one after another and nothing is translated, the
warning is logged exactly once, as soon as a delivery follows an in-flight duplicate. -/
theorem warns_only_untranslated {E V ι : Type} [DecidableEq ι] (options : IdempotentOptions)
    (o : Go.QueueOptions) (strategy : Bool) (messages : ι → QueueMessage E) (msgs : ι → Go.QueueMessage) :
    WarnsRightly ConsumerCall.role ConsumerCall.found (fun i => consume options strategy (messages i))
      ∧ WarnsRightly Go.ConsumerCall.role (Go.ConsumerCall.found (V := V))
        (fun i => Go.consume o strategy (msgs i)) :=
  ⟨warnsRightly fun i => consume_announces options strategy (messages i),
    warnsRightly fun i => Go.consume_announces o strategy (msgs i)⟩

/-- A duplicate of a message in flight, and a message the options reject. -/
def overlapping : Bool → QueueMessage Unit
  | false => ⟨.ok (js "q"), .ok (js "m1"), .ok (js "p")⟩
  | true => ⟨.error (.Configuration []), .ok [], .ok []⟩

/-- The second delivery starts after the first has reported the duplicate and before its strategy has
translated it: the warning is logged, though in the end nothing is left untranslated. -/
theorem translated_errors_warn : ∃ cfg,
    Interleave (fun _ _ _ => True) (slotStep ConsumerCall.role ConsumerCall.found) {}
      (fun i => consume {} true (overlapping i)) cfg
    ∧ (∀ i, ∃ decision, cfg.pool i = .Ret decision)
    ∧ (∀ e ∈ cfg.history, e.cmd.2.role = .Raise → cfg.state.translated e.cmd.1 = true)
    ∧ Did ConsumerCall.role .Warn cfg.history := by
  have h₀ : Interleave (fun _ _ _ => True) (slotStep ConsumerCall.role ConsumerCall.found) {}
      (fun i => consume {} true (overlapping i)) _ := Interleave.start
  have h₁ := h₀.next false (.Door .Untranslated) false rfl trivial ⟨rfl, rfl⟩
  have h₂ := h₁.next false (.Door .Clock) (0 : ℤ) rfl trivial rfl
  have h₃ := h₂.next false (.Door (.Begin ⟨js "q", js "m1", js "p"⟩ ⟨30000, 86400000, 0⟩))
    (.ok (.InFlight 5)) rfl trivial rfl
  have h₄ := h₃.next false (.Door .Clock) (0 : ℤ) rfl trivial rfl
  have h₅ := h₄.next false (.Door (.SetPending 5 5)) () rfl trivial rfl
  have h₆ := h₅.next true (.Door .Untranslated) true rfl trivial ⟨rfl, rfl⟩
  have h₇ := h₆.next true (.Door .Warn) (.ok ()) rfl trivial rfl
  have h₈ := h₇.next true (.Decide (.Configuration [])) .Requeue rfl trivial rfl
  have h₉ := h₈.next false .MarkTranslated () rfl trivial rfl
  refine ⟨_, h₉, ?_, ?_, ?_⟩
  · rintro (_ | _)
    · exact ⟨_, rfl⟩
    · exact ⟨_, rfl⟩
  · simp [ConsumerCall.role]
  · simp [ConsumerCall.role, Did]

end Anyonce
