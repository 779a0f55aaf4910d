import Anyonce.Sql.Programs

/-!
# Statements of concurrent calls

What the steps of one call do to the table while other calls run in between.  Everything here is
about rows; the records of either language come in only through `report`, the outcome a refused row
is reported as.

* `runs_beginAttempt`, `runs_completeProgram`, `runs_abandonProgram` — the traces of the methods.
* `begin_linearizes` — a `begin` that settled did so at one of its own statements: the last one.
  All it issued before left the table as it was.
* `begin_gaveUp` — a `begin` that gave up left the table as it was with every statement.
* `begin_settles` — a refused claim whose row stays as it is until the read settles there.
-/

namespace Anyonce

open Interaction Relational

section

variable {T X Err Rec : Type}

/-! ## Traces -/

section BeginTrace

variable {claim : ClaimColumns T} {terms : TermColumns} {beginFailed selectFailed : X → Err}
variable {classify : Option (RecordRow T) → Option (Except Err (BeginOutcome Rec))}

/-- **What one attempt can do**: claim, fail, or be refused and classify the row it reads. -/
lemma runs_beginAttempt {t : List (Event (Statement T) (SqlReply X))}
    {r : Option (Except Err (BeginOutcome Rec))}
    (h : Runs (beginAttempt claim terms beginFailed selectFailed classify) t r) :
    (∃ fence, t = [⟨.Begin claim terms, .ok (some fence)⟩] ∧ r = some (.ok (.Acquired fence)))
      ∨ (∃ err, t = [⟨.Begin claim terms, .error err⟩] ∧ r = some (.error (beginFailed err)))
      ∨ (∃ existing, t = [⟨.Begin claim terms, .ok none⟩,
          ⟨.Select claim.scope claim.key, .ok existing⟩] ∧ r = classify existing)
      ∨ (∃ err, t = [⟨.Begin claim terms, .ok none⟩,
          ⟨.Select claim.scope claim.key, .error err⟩] ∧ r = some (.error (selectFailed err))) := by
  obtain ⟨reply, t₁, rfl, h₁⟩ := runs_call_iff.mp h
  rcases reply with err | (_ | fence)
  · obtain ⟨rfl, rfl⟩ := runs_ret_iff.mp h₁
    exact Or.inr (Or.inl ⟨err, rfl, rfl⟩)
  · obtain ⟨reply, t₂, rfl, h₂⟩ := runs_call_iff.mp h₁
    rcases reply with err | existing
    · obtain ⟨rfl, rfl⟩ := runs_ret_iff.mp h₂
      exact Or.inr (Or.inr (Or.inr ⟨err, rfl, rfl⟩))
    · obtain ⟨rfl, rfl⟩ := runs_ret_iff.mp h₂
      exact Or.inr (Or.inr (Or.inl ⟨existing, rfl, rfl⟩))
  · obtain ⟨rfl, rfl⟩ := runs_ret_iff.mp h₁
    exact Or.inl ⟨fence, rfl, rfl⟩

/-- A refused claim and the read after it, or a part of them. -/
def Refusal (claim : ClaimColumns T) (terms : TermColumns)
    (ev : Event (Statement T) (SqlReply X)) : Prop :=
  ev = ⟨.Begin claim terms, .ok none⟩
    ∨ ∃ existing, ev = ⟨.Select claim.scope claim.key, .ok existing⟩

/-- An attempt without a result was refused. -/
lemma refusal_of_runs {t : List (Event (Statement T) (SqlReply X))}
    (h : Runs (beginAttempt claim terms beginFailed selectFailed classify) t none) :
    ∀ ev ∈ t, Refusal claim terms ev := by
  rcases runs_beginAttempt h with ⟨_, _, h'⟩ | ⟨_, _, h'⟩ | ⟨existing, rfl, -⟩ | ⟨_, _, h'⟩
  · cases h'
  · cases h'
  · intro ev hev
    simp only [List.mem_cons, List.not_mem_nil, or_false] at hev
    rcases hev with rfl | rfl
    · exact Or.inl rfl
    · exact Or.inr ⟨existing, rfl⟩
  · cases h'

end BeginTrace

lemma runs_completeProgram {scope key : T} {fence now : ℤ} {result : ResultColumns T}
    {writeFailed selectFailed : X → Err} {t : List (Event (Statement T) (SqlReply X))}
    {status : CompleteStatus}
    (h : Runs (completeProgram scope key fence now result writeFailed selectFailed) t (.ok status)) :
    (∃ f, t = [⟨.Complete scope key fence now result, .ok (some f)⟩] ∧ status = .Ok)
      ∨ ∃ existing, t = [⟨.Complete scope key fence now result, .ok none⟩,
          ⟨.Select scope key, .ok existing⟩] ∧ status = completeStatus fence now existing := by
  obtain ⟨reply, t₁, rfl, h₁⟩ := runs_call_iff.mp h
  rcases reply with err | (_ | f)
  · obtain ⟨-, h'⟩ := runs_ret_iff.mp h₁
    cases h'
  · obtain ⟨reply, t₂, rfl, h₂⟩ := runs_call_iff.mp h₁
    rcases reply with err | existing
    · obtain ⟨-, h'⟩ := runs_ret_iff.mp h₂
      cases h'
    · obtain ⟨rfl, h'⟩ := runs_ret_iff.mp h₂
      cases h'
      exact Or.inr ⟨existing, rfl, rfl⟩
  · obtain ⟨rfl, h'⟩ := runs_ret_iff.mp h₁
    cases h'
    exact Or.inl ⟨f, rfl, rfl⟩

lemma runs_abandonProgram {scope key : T} {fence : ℤ} {writeFailed selectFailed : X → Err}
    {t : List (Event (Statement T) (SqlReply X))} {status : CompleteStatus}
    (h : Runs (abandonProgram scope key fence writeFailed selectFailed) t (.ok status)) :
    (∃ f, t = [⟨.Abandon scope key fence, .ok (some f)⟩] ∧ status = .Ok)
      ∨ ∃ existing, t = [⟨.Abandon scope key fence, .ok none⟩,
          ⟨.Select scope key, .ok existing⟩] ∧ status = abandonStatus fence existing := by
  obtain ⟨reply, t₁, rfl, h₁⟩ := runs_call_iff.mp h
  rcases reply with err | (_ | f)
  · obtain ⟨-, h'⟩ := runs_ret_iff.mp h₁
    cases h'
  · obtain ⟨reply, t₂, rfl, h₂⟩ := runs_call_iff.mp h₁
    rcases reply with err | existing
    · obtain ⟨-, h'⟩ := runs_ret_iff.mp h₂
      cases h'
    · obtain ⟨rfl, h'⟩ := runs_ret_iff.mp h₂
      cases h'
      exact Or.inr ⟨existing, rfl, rfl⟩
  · obtain ⟨rfl, h'⟩ := runs_ret_iff.mp h₁
    cases h'
    exact Or.inl ⟨f, rfl, rfl⟩

/-! ## Steps on the table -/

section Steps

variable [DecidableEq T] {ι : Type}

/-- One statement of a caller, with the tables before and after it. -/
abbrev SqlEntry (ι T X : Type) [DecidableEq T] : Type :=
  Entry (ι × Statement T) (Tagged ι (SqlReply X)) (Records T)

section Run

variable [DecidableEq ι] {Call : Type} {Res : Call → Type}

/-- Concurrent calls whose statements are all answered, in the order of the turns. -/
def sqlRun (program : (c : Call) → SqlProg T X (Res c)) (calls : ι → Call) (t₀ : Records T)
    (turns : List ι) : Config ι (Statement T) (SqlReply X) ((c : Call) × Res c) (Records T) :=
  Config.schedule sqlMachine ⟨t₀, poolOf program calls, []⟩ turns

lemma interleave_sqlRun (program : (c : Call) → SqlProg T X (Res c)) (calls : ι → Call)
    (t₀ : Records T) (turns : List ι) :
    Interleave (fun _ _ _ => True) sqlObj t₀ (poolOf program calls)
      (sqlRun program calls t₀ turns) :=
  Interleave.schedule sqlObj_sqlMachine turns Interleave.start

end Run

variable {claim : ClaimColumns T} {terms : TermColumns}

/-- A refused claim and a read leave the table as it was. -/
lemma refusal_entry {e : SqlEntry ι T X} (hobj : sqlObj e.pre e.cmd e.reply e.post)
    (h : Refusal claim terms e.event) : e.post = e.pre := by
  obtain ⟨t, ⟨i, c⟩, reply, t'⟩ := e
  rcases h with h | ⟨existing, h⟩
  · cases h
    have hrun : beginSql t claim terms = (none, t') := hobj
    rw [beginSql_eq] at hrun
    split_ifs at hrun
    · cases hrun
    · exact (congrArg Prod.snd hrun).symm
  · cases h
    have hrun : (selectSql t claim.scope claim.key, t) = (existing, t') := hobj
    exact (congrArg Prod.snd hrun).symm

/-- `begin` as one atomic step on the table: the row is claimable and is claimed, or it is not and
is reported. -/
def RowBegin (claim : ClaimColumns T) (terms : TermColumns)
    (report : RecordRow T → Option (BeginOutcome Rec)) (t : Records T) (out : BeginOutcome Rec)
    (t' : Records T) : Prop :=
  ((rowModel T).claimable claim terms (t.lookup (claim.scope, claim.key)) = true
      ∧ out = .Acquired ((rowModel T).nextFence (t.lookup (claim.scope, claim.key)))
      ∧ t' = t.put (claimRow claim terms
        ((rowModel T).nextFence (t.lookup (claim.scope, claim.key)))))
    ∨ ∃ row, t.lookup (claim.scope, claim.key) = some row
      ∧ (rowModel T).claimable claim terms (some row) = false ∧ report row = some out ∧ t' = t

/-- How a method classifies the row it reads after a refusal: it settles exactly on the rows that
are not claimable, and then with what `report` says. -/
structure Classifier (claim : ClaimColumns T) (terms : TermColumns)
    (report : RecordRow T → Option (BeginOutcome Rec))
    (classify : Option (RecordRow T) → Option (Except Err (BeginOutcome Rec))) : Prop where
  settles : ∀ row out, (rowModel T).claimable claim terms (some row) = false →
    report row = some out → classify (some row) = some (.ok out)
  settled : ∀ existing out, classify existing = some (.ok out) →
    ∃ row, existing = some row ∧ (rowModel T).claimable claim terms (some row) = false
      ∧ report row = some out

section

variable [DecidableEq ι] {beginFailed selectFailed : X → Err} {unsettled : Err}
variable {report : RecordRow T → Option (BeginOutcome Rec)}
variable {classify : Option (RecordRow T) → Option (Except Err (BeginOutcome Rec))}

/-- **A `begin` that settled is one atomic step**, at its own last statement. -/
theorem begin_linearizes (hc : Classifier claim terms report classify)
    {h : List (SqlEntry ι T X)} (hobj : ∀ e ∈ h, sqlObj e.pre e.cmd e.reply e.post) {i : ι}
    {out : BeginOutcome Rec}
    (hrun : Runs (beginProgram claim terms beginFailed selectFailed classify unsettled)
      (traceOf i h) (.ok out)) :
    ∃ es e, entriesOf i h = es ++ [e] ∧ (∀ e' ∈ es, e'.post = e'.pre)
      ∧ RowBegin claim terms report e.pre out e.post := by
  obtain ⟨ts, t', htrace, hts, hend⟩ := runs_retry hrun
  rcases hend with ⟨-, hgave, -⟩ | ⟨hlast, -⟩
  · cases hgave
  -- the calls before the last one were refusals
  have hquiet : ∀ (before : List (Event (Statement T) (SqlReply X))) (es : List (SqlEntry ι T X)),
      es.map Entry.event = ts.flatten ++ before → (∀ ev ∈ before, Refusal claim terms ev) →
      (∀ e ∈ es, e ∈ h) → ∀ e ∈ es, e.post = e.pre := by
    intro before es hes hbefore hmem e he
    have hev : e.event ∈ ts.flatten ++ before := hes ▸ List.mem_map_of_mem he
    have href : Refusal claim terms e.event := by
      rcases List.mem_append.mp hev with hev | hev
      · obtain ⟨u, hu, hev⟩ := List.mem_flatten.mp hev
        exact refusal_of_runs (hts u hu) _ hev
      · exact hbefore _ hev
    exact refusal_entry (hobj e (hmem e he)) href
  rcases runs_beginAttempt hlast with ⟨fence, rfl, hout⟩ | ⟨_, _, hout⟩ | ⟨existing, rfl, hout⟩
    | ⟨_, _, hout⟩
  · cases hout
    obtain ⟨es, e, hsplit, hes, he⟩ := entries_of_trace htrace
    have hin : ∀ e' ∈ entriesOf i h, e' ∈ h := fun e' he' => (mem_entriesOf.mp he').1
    refine ⟨es, e, hsplit, hquiet [] es (by simpa using hes) (by simp) ?_, Or.inl ?_⟩
    · exact fun e' he' => hin e' (by simp [hsplit, he'])
    · have hstep := hobj e (hin e (by simp [hsplit]))
      obtain ⟨t, ⟨j, c⟩, reply, t''⟩ := e
      cases he
      have hsql : beginSql t claim terms = (some fence, t'') := hstep
      rw [beginSql_eq] at hsql
      split_ifs at hsql with hclaim
      · obtain ⟨hf, ht⟩ := Prod.mk.inj hsql
        exact ⟨hclaim, by rw [Option.some.inj hf], ht.symm⟩
      · cases hsql
  · cases hout
  · obtain ⟨row, rfl, hclaim, hreport⟩ := hc.settled existing out hout.symm
    rw [← List.singleton_append, ← List.append_assoc] at htrace
    obtain ⟨es, e, hsplit, hes, he⟩ := entries_of_trace htrace
    have hin : ∀ e' ∈ entriesOf i h, e' ∈ h := fun e' he' => (mem_entriesOf.mp he').1
    refine ⟨es, e, hsplit, hquiet _ es hes (by simp [Refusal]) ?_, Or.inr ⟨row, ?_⟩⟩
    · exact fun e' he' => hin e' (by simp [hsplit, he'])
    · have hstep := hobj e (hin e (by simp [hsplit]))
      obtain ⟨t, ⟨j, c⟩, reply, t''⟩ := e
      cases he
      have hsql : (selectSql t claim.scope claim.key, t) = (some row, t'') := hstep
      obtain ⟨hrow, ht⟩ := Prod.mk.inj hsql
      exact ⟨hrow, hclaim, hreport, ht.symm⟩
  · cases hout

/-- **A `begin` that gave up changed nothing.** -/
theorem begin_gaveUp (hb : ∀ x, beginFailed x ≠ unsettled) (hs : ∀ x, selectFailed x ≠ unsettled)
    (hcl : ∀ existing, classify existing ≠ some (.error unsettled))
    {h : List (SqlEntry ι T X)} (hobj : ∀ e ∈ h, sqlObj e.pre e.cmd e.reply e.post) {i : ι}
    (hrun : Runs (beginProgram claim terms beginFailed selectFailed classify unsettled)
      (traceOf i h) (.error unsettled)) : ∀ e ∈ entriesOf i h, e.post = e.pre := by
  obtain ⟨ts, t', htrace, hts, hend⟩ := runs_retry hrun
  have hlast : t' = [] := by
    rcases hend with ⟨rfl, -, -⟩ | ⟨hlast, -⟩
    · rfl
    · exfalso
      rcases runs_beginAttempt hlast with ⟨_, _, hout⟩ | ⟨err, _, hout⟩ | ⟨existing, _, hout⟩
        | ⟨err, _, hout⟩
      · cases hout
      · cases hout
        exact hb err rfl
      · exact hcl existing hout.symm
      · cases hout
        exact hs err rfl
  intro e he
  have hev : e.event ∈ traceOf i h := List.mem_map_of_mem he
  rw [htrace, hlast, List.append_nil] at hev
  obtain ⟨u, hu, hev⟩ := List.mem_flatten.mp hev
  exact refusal_entry (hobj e (mem_entriesOf.mp he).1) (refusal_of_runs (hts u hu) _ hev)

/-- A refused claim and the read of a row that settles it are a whole run. -/
lemma runs_beginProgram_refused (hc : Classifier claim terms report classify) {row : RecordRow T}
    {out : BeginOutcome Rec} (hclaim : (rowModel T).claimable claim terms (some row) = false)
    (hreport : report row = some out) :
    Runs (beginProgram claim terms beginFailed selectFailed classify unsettled)
      [⟨.Begin claim terms, (.ok none : SqlReply X (.Begin claim terms))⟩,
        ⟨.Select claim.scope claim.key, .ok (some row)⟩] (.ok out) := by
  refine runs_bind_iff.mpr ⟨_, [], some (.ok out), (List.append_nil _).symm, ?_, Steps.refl _⟩
  refine Steps.call _ (Steps.call _ ?_)
  show Runs (Prog.Ret (classify (some row))) [] (some (.ok out))
  rw [hc.settles row out hclaim hreport]
  exact Steps.refl _

/-- **A refused claim whose row stays as it is until the read settles there**: the first attempt is
the last, and the call returns an outcome. -/
theorem begin_settles (hc : Classifier claim terms report classify)
    {allowed : List (SqlEntry ι T X) → Records T → ι × Statement T → Prop} {t₀ t : Records T}
    {h : List (SqlEntry ι T X)} (hh : History allowed sqlObj t₀ h t) {α : Type}
    {g : Except Err (BeginOutcome Rec) → α} {q : SqlProg T X α} {i : ι}
    (hsteps : Steps (beginProgram claim terms beginFailed selectFailed classify unsettled
      >>= fun r => Prog.Ret (g r)) (traceOf i h) q)
    {h₁ h₂ h₃ : List (SqlEntry ι T X)} {e₁ e₂ : SqlEntry ι T X}
    (hsplit : h = h₁ ++ e₁ :: (h₂ ++ e₂ :: h₃)) (hi₁ : e₁.cmd.1 = i) (hi₂ : e₂.cmd.1 = i)
    (hfirst : entriesOf i h₁ = []) (hnext : entriesOf i h₂ = [])
    (hkeep : ∀ e ∈ h₂, e.post.lookup (claim.scope, claim.key)
      = e.pre.lookup (claim.scope, claim.key))
    (hok₁ : e₁.reply.isOk = true) (hok₂ : e₂.reply.isOk = true)
    (hread : ∀ row, e₁.pre.lookup (claim.scope, claim.key) = some row → ∃ out, report row = some out) :
    entriesOf i h₃ = [] ∧ ∃ out, q = Prog.Ret (g (.ok out)) := by
  have htrace : traceOf i h = e₁.event :: e₂.event :: traceOf i h₃ := by
    rw [hsplit, traceOf, entriesOf_append, hfirst, entriesOf_cons hi₁, entriesOf_append, hnext,
      entriesOf_cons hi₂]
    rfl
  rw [htrace] at hsteps
  obtain ⟨reply₁, hev₁, hsteps₁⟩ := steps_cons_iff.mp hsteps
  subst hsplit
  have hobj₁ := hh.at_entry.2.2
  have hsplit' : h₁ ++ e₁ :: (h₂ ++ e₂ :: h₃) = (h₁ ++ e₁ :: h₂) ++ e₂ :: h₃ := by simp
  rw [hsplit'] at hh
  obtain ⟨hh₂, -, hobj₂⟩ := hh.at_entry
  have hsame := hh₂.kept (fun t => t.lookup (claim.scope, claim.key)) hkeep
  obtain ⟨t₁, ⟨j₁, c₁⟩, r₁, t₁'⟩ := e₁
  cases hev₁
  rcases r₁ with err | (_ | fence)
  · cases hok₁
  · obtain ⟨reply₂, hev₂, hsteps₂⟩ := steps_cons_iff.mp hsteps₁
    obtain ⟨t₂, ⟨j₂, c₂⟩, r₂, t₂'⟩ := e₂
    cases hev₂
    rcases r₂ with err | existing
    · cases hok₂
    · have hsql : beginSql t₁ claim terms = (none, t₁') := hobj₁
      rw [beginSql_eq] at hsql
      split_ifs at hsql with hclaim
      · cases hsql
      rw [Bool.not_eq_true] at hclaim
      obtain ⟨row, hrow, -, -⟩ := ClaimModel.not_claimable hclaim
      obtain ⟨out, hreport⟩ := hread row hrow
      have hexisting : existing = some row := by
        have hsel : (selectSql t₂ claim.scope claim.key, t₂) = (existing, t₂') := hobj₂
        obtain ⟨hsel, -⟩ := Prod.mk.inj hsel
        have hpost : t₁' = t₁ := (Prod.mk.inj hsql).2.symm
        rw [← hsel, ← hrow, ← hpost]
        exact hsame
      subst hexisting
      rw [hrow] at hclaim
      have hruns : Runs (beginProgram claim terms beginFailed selectFailed classify unsettled
          >>= fun r => Prog.Ret (g r)) _ (g (.ok out)) :=
        runs_bind_iff.mpr ⟨_, [], Except.ok out, (List.append_nil _).symm,
          runs_beginProgram_refused hc hclaim hreport, Steps.refl _⟩
      obtain ⟨hnil, rfl⟩ := hruns.ends hsteps
      exact ⟨List.map_eq_nil_iff.mp hnil, out, rfl⟩
  · cases hsteps₁

end

end Steps

end

end Anyonce
