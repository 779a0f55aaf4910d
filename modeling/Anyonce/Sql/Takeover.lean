import Anyonce.Claim.Runs
import Anyonce.Sql.Linearizability

/-!
# Takeover fencing

As long as the row of a claim is not deleted, the fences of the later claims go up by one, and a
settlement under an old fence is refused without a trace, whatever the newer holder has done in the
meantime.  The fences of the SQL statements obey the law of `Core/Fencing.lean`
(`sql_fence_step`), as those of the memory stores do, so the counting is done there.

* `run_cell` — what a statement can do to the row of a key.
* `sqlGranted` — the fence a statement granted: a `BEGIN_SQL` that wrote the row.
* `takeover_fencing` — the law, for `MemoryStore` and for interleaved SQL calls.
-/

namespace Anyonce

open Interaction Relational

section

variable {T X Err : Type} [DecidableEq T] {ι : Type}

/-! ## Statements and one row -/

/-- **What a statement can do to the row of a key**: claim it, leave it, complete it, or delete
it. -/
lemma run_cell (t : Records T) (c : Statement T) (key : T × T) :
    (∃ claim terms, c = .Begin claim terms ∧ (claim.scope, claim.key) = key
        ∧ (c.run t).2.lookup key
          = some (claimRow claim terms ((rowModel T).nextFence (t.lookup key))))
      ∨ (c.run t).2.lookup key = t.lookup key
      ∨ (∃ fence now result row, c = .Complete key.1 key.2 fence now result
        ∧ t.lookup key = some row ∧ (c.run t).2.lookup key = some (completedRow result row))
      ∨ (c.run t).2.lookup key = none := by
  have hremove : ∀ p : RecordRow T → Bool, (t.remove p).lookup key = t.lookup key
      ∨ (t.remove p).lookup key = none := by
    intro p
    rw [Table.lookup_remove]
    cases t.lookup key with
    | none => exact Or.inr rfl
    | some row => by_cases hp : p row <;> simp [Option.filter, hp]
  cases c with
  | Begin claim terms =>
      simp only [Statement.run, beginSql_eq]
      split_ifs
      · by_cases hkey : key = (claim.scope, claim.key)
        · subst hkey
          exact Or.inl ⟨claim, terms, rfl, rfl, by simp [Table.lookup_put]⟩
        · exact Or.inr (Or.inl (by simp [Table.lookup_put, hkey]))
      · exact Or.inr (Or.inl rfl)
  | Complete scope k fence now result =>
      simp only [Statement.run, completeSql_eq]
      cases hsel : (t.lookup (scope, k)).filter (RecordRow.completable fence now) with
      | none => exact Or.inr (Or.inl rfl)
      | some row =>
          obtain ⟨hrow, -⟩ := Option.filter_eq_some_iff.mp hsel
          have hk := Table.key_of_lookup hrow
          by_cases hkey : key = (scope, k)
          · subst hkey
            exact Or.inr (Or.inr (Or.inl ⟨fence, now, result, row, rfl, hrow,
              by simp [Table.lookup_put, hk]⟩))
          · exact Or.inr (Or.inl (by simp [Table.lookup_put, hk, hkey]))
  | Abandon scope k fence =>
      simp only [Statement.run, abandonSql_eq]
      split
      · exact Or.inr (Or.inl rfl)
      · exact (hremove _).elim (fun h => Or.inr (Or.inl h)) fun h => Or.inr (Or.inr (Or.inr h))
  | Get scope k now => exact Or.inr (Or.inl rfl)
  | Select scope k => exact Or.inr (Or.inl rfl)
  | Purge now =>
      exact (hremove _).elim (fun h => Or.inr (Or.inl h)) fun h => Or.inr (Or.inr (Or.inr h))
  | Remove scope k =>
      exact (hremove _).elim (fun h => Or.inr (Or.inl h)) fun h => Or.inr (Or.inr (Or.inr h))

/-- The fence of the row of a key. -/
def sqlFenceAt (key : T × T) (t : Records T) : Option ℤ := (t.lookup key).map RecordRow.fence

/-- The fence a step granted on a key: the step is a `BEGIN_SQL` on it that wrote the row.  A grant
whose reply was lost on the way to the caller is one too. -/
def sqlGranted (key : T × T) (e : SqlEntry ι T X) : Option ℤ :=
  match e.cmd.2 with
  | .Begin claim _ =>
      if (claim.scope, claim.key) = key ∧ e.post.lookup key ≠ e.pre.lookup key then
        sqlFenceAt key e.post
      else none
  | _ => none

lemma sqlGranted_written {t t' : Records T} {i : ι} {claim : ClaimColumns T} {terms : TermColumns}
    {reply : SqlReply X (.Begin claim terms)} {f : ℤ}
    (hchanged : t'.lookup (claim.scope, claim.key) ≠ t.lookup (claim.scope, claim.key))
    (hpost : t'.lookup (claim.scope, claim.key) = some (claimRow claim terms f)) :
    sqlGranted (claim.scope, claim.key) (⟨t, (i, .Begin claim terms), reply, t'⟩ : SqlEntry ι T X)
      = some f := by
  show (if _ then _ else _) = _
  rw [if_pos ⟨rfl, hchanged⟩, sqlFenceAt, hpost]
  rfl

/-- What `BEGIN_SQL` returns to its caller is the fence it granted. -/
lemma sqlGranted_of_returned {e : SqlEntry ι T X} (hobj : sqlObj e.pre e.cmd e.reply e.post)
    {claim : ClaimColumns T} {terms : TermColumns} {f : ℤ}
    (he : e.event = ⟨.Begin claim terms, .ok (some f)⟩) :
    sqlGranted (claim.scope, claim.key) e = some f := by
  obtain ⟨t, ⟨i, c⟩, reply, t'⟩ := e
  cases he
  have hrun : beginSql t claim terms = (some f, t') := hobj
  rw [beginSql_eq] at hrun
  split_ifs at hrun
  · obtain ⟨hf, rfl⟩ := Prod.mk.inj hrun
    rw [Option.some.injEq] at hf
    have hpost : (t.put (claimRow claim terms ((rowModel T).nextFence
        (t.lookup (claim.scope, claim.key))))).lookup (claim.scope, claim.key)
        = some (claimRow claim terms f) := by
      rw [Table.lookup_put, claimRow_primaryKey, if_pos rfl, hf]
    have hchanged : some (claimRow claim terms f) ≠ t.lookup (claim.scope, claim.key) := by
      intro hsame
      rw [← hsame, ClaimModel.nextFence] at hf
      simp only [claimRow, rowModel_fence] at hf
      omega
    exact sqlGranted_written (by rw [hpost]; exact hchanged) hpost
  · cases hrun

/-- **The fences of the statements obey the law of fencing tokens.** -/
lemma sql_fence_step (key : T × T) (e : SqlEntry ι T X)
    (hobj : sqlObj e.pre e.cmd e.reply e.post) :
    FenceStep (sqlFenceAt key) (sqlGranted key) e := by
  obtain ⟨t, ⟨i, c⟩, reply, t'⟩ := e
  have heffect : t' = t ∨ t' = (c.run t).2 := by
    cases reply with
    | ok returned =>
        have hrun : c.run t = (returned, t') := hobj
        rw [hrun]
        exact Or.inr rfl
    | error err => exact hobj
  by_cases hsame : t'.lookup key = t.lookup key
  · have hnone : sqlGranted key (⟨t, (i, c), reply, t'⟩ : SqlEntry ι T X) = none := by
      cases c <;> simp [sqlGranted, hsame]
    exact .of_not_granted hnone (Or.inr (by rw [sqlFenceAt, hsame, sqlFenceAt]))
  · obtain rfl : t' = (c.run t).2 := heffect.resolve_left fun h => hsame (by rw [h])
    rcases run_cell t c key with ⟨claim, terms, rfl, rfl, hpost⟩ | hkeep
      | ⟨fence, now, result, row, rfl, hrow, hpost⟩ | hgone
    · refine .of_granted (sqlGranted_written hsame hpost) ?_ (by rw [sqlFenceAt, hpost]; rfl)
      rw [sqlFenceAt]
      cases t.lookup (claim.scope, claim.key) <;> rfl
    · exact absurd hkeep hsame
    · refine .of_not_granted rfl (Or.inr ?_)
      rw [sqlFenceAt, hpost, sqlFenceAt, hrow]
      rfl
    · have hnone : sqlFenceAt key (c.run t).2 = none := by rw [sqlFenceAt, hgone]; rfl
      cases hg : sqlGranted key (⟨t, (i, c), reply, (c.run t).2⟩ : SqlEntry ι T X) with
      | none => exact .of_not_granted hg (Or.inl hnone)
      | some f =>
          exfalso
          cases c with
          | Begin claim terms =>
              simp only [sqlGranted] at hg
              split_ifs at hg
              rw [hnone] at hg
              cases hg
          | Complete | Abandon | Get | Select | Purge | Remove => cases hg

/-! ## Settlements under an old fence -/

/-- What a settlement under an old fence may answer. -/
def CompleteStatus.Refused (status : CompleteStatus) : Prop :=
  status = .StaleFence ∨ status = .NotFound

instance (status : CompleteStatus) : Decidable status.Refused :=
  inferInstanceAs (Decidable (_ ∨ _))

lemma completeSql_other_fence {t : Records T} {scope key : T} {row : RecordRow T} {fence : ℤ}
    (hrow : t.lookup (scope, key) = some row) (hne : row.fence ≠ fence) (now : ℤ)
    (result : ResultColumns T) : completeSql t scope key fence now result = (none, t) := by
  have hsel : (t.lookup (scope, key)).filter (RecordRow.completable fence now) = none := by
    simp [hrow, Option.filter, RecordRow.completable, hne]
  rw [completeSql_eq, hsel]

lemma abandonSql_other_fence {t : Records T} {scope key : T} {row : RecordRow T} {fence : ℤ}
    (hrow : t.lookup (scope, key) = some row) (hne : row.fence ≠ fence) :
    abandonSql t scope key fence = (none, t) := by
  have hsel : (t.lookup (scope, key)).filter (RecordRow.abandonable fence) = none := by
    simp [hrow, Option.filter, RecordRow.abandonable, hne]
  rw [abandonSql_eq, hsel]

omit [DecidableEq T] in
lemma completeStatus_other_fence {row : RecordRow T} {fence : ℤ} (hne : row.fence ≠ fence)
    (now : ℤ) : (completeStatus fence now (some row)).Refused := by
  simp only [completeStatus]
  split_ifs
  · exact Or.inr rfl
  · exact Or.inl rfl

omit [DecidableEq T] in
/-- An `abandon` that deleted nothing is refused, whatever it reads. -/
lemma abandonStatus_refused (fence : ℤ) (existing : Option (RecordRow T)) :
    (abandonStatus fence existing).Refused := by
  cases existing with
  | none => exact Or.inr rfl
  | some row =>
      simp only [abandonStatus]
      split_ifs
      · exact Or.inr rfl
      · exact Or.inr rfl
      · exact Or.inl rfl

/-- The statements of a settlement of `key` under the fence `f`. -/
def Settles (key : T × T) (f : ℤ) (c : Statement T) : Prop :=
  (∃ now result, c = .Complete key.1 key.2 f now result) ∨ c = .Abandon key.1 key.2 f
    ∨ c = .Select key.1 key.2

/-- **A settlement statement that meets another fence** does nothing, and reports that. -/
lemma settles_other_fence {key : T × T} {f : ℤ} {e : SqlEntry ι T X}
    (hobj : sqlObj e.pre e.cmd e.reply e.post) (hc : Settles key f e.cmd.2) {row : RecordRow T}
    (hrow : e.pre.lookup key = some row) (hne : row.fence ≠ f) :
    e.post = e.pre
      ∧ (∀ now result g, e.event ≠ ⟨.Complete key.1 key.2 f now result, .ok (some g)⟩)
      ∧ (∀ g, e.event ≠ ⟨.Abandon key.1 key.2 f, .ok (some g)⟩)
      ∧ ∀ existing, e.event = ⟨.Select key.1 key.2, .ok existing⟩ → existing = some row := by
  obtain ⟨t, ⟨i, c⟩, reply, t'⟩ := e
  have hrun : ∀ {returned : Returned c}, c.run t = (returned, t) →
      t' = t ∧ ∀ r, reply = .ok r → r = returned := by
    intro returned hrun
    cases reply with
    | ok r =>
        have hstep : c.run t = (r, t') := hobj
        rw [hrun] at hstep
        obtain ⟨rfl, rfl⟩ := Prod.mk.inj hstep
        exact ⟨rfl, fun r h => (Except.ok.inj h).symm⟩
    | error err =>
        have hstep : t' = t ∨ t' = (c.run t).2 := hobj
        rw [hrun, or_self] at hstep
        exact ⟨hstep, fun r h => by cases h⟩
  obtain ⟨scope, k⟩ := key
  rcases hc with ⟨now, result, rfl⟩ | rfl | rfl
  · obtain ⟨hpost, hreply⟩ := hrun (completeSql_other_fence hrow hne now result)
    refine ⟨hpost, ?_, (fun g h => by cases h), (fun existing h => by cases h)⟩
    intro now' result' g h
    cases h
    exact nomatch hreply _ rfl
  · obtain ⟨hpost, hreply⟩ := hrun (abandonSql_other_fence hrow hne)
    refine ⟨hpost, (fun now result g h => by cases h), ?_, (fun existing h => by cases h)⟩
    intro g h
    cases h
    exact nomatch hreply _ rfl
  · obtain ⟨hpost, hreply⟩ := hrun (rfl : Statement.run t (.Select scope k) = _)
    refine ⟨hpost, (fun now result g h => by cases h), (fun g h => by cases h), ?_⟩
    intro existing h
    cases h
    exact (hreply _ rfl).trans hrow

/-- The caller `i` came after a grant that followed the grant of `f` on `key`, and the row was not
deleted since `f` was granted. -/
def Superseded [DecidableEq ι] (key : T × T) (f : ℤ) (i : ι) (h : List (SqlEntry ι T X)) : Prop :=
  ∃ h₁ e h₂ e' h₃, h = h₁ ++ e :: (h₂ ++ e' :: h₃) ∧ sqlGranted key e = some f
    ∧ sqlGranted key e' ≠ none ∧ (∀ x ∈ h₂ ++ e' :: h₃, x.post.lookup key ≠ none)
    ∧ entriesOf i (h₁ ++ e :: (h₂ ++ [e'])) = []

section Runs

variable [DecidableEq ι] {α : Type} {t₀ : Records T} {start : ι → SqlProg T X α}
variable {cfg : Config ι (Statement T) (SqlReply X) α (Records T)} {key : T × T} {f : ℤ} {i : ι}

/-- A superseded caller meets a row with another fence at each of its statements. -/
lemma superseded_fence (h : Interleave (fun _ _ _ => True) sqlObj t₀ start cfg)
    (hs : Superseded key f i cfg.history) {x : SqlEntry ι T X} (hx : x ∈ entriesOf i cfg.history) :
    ∃ row, x.pre.lookup key = some row ∧ row.fence ≠ f := by
  obtain ⟨h₁, e, h₂, e', h₃, hsplit, he, he', hkept, hfirst⟩ := hs
  have hmem : x ∈ entriesOf i h₃ := by
    have hassoc : h₁ ++ e :: (h₂ ++ e' :: h₃) = (h₁ ++ e :: (h₂ ++ [e'])) ++ h₃ := by simp
    rwa [hsplit, hassoc, entriesOf_append, hfirst, List.nil_append] at hx
  obtain ⟨u, v, rfl⟩ := List.append_of_mem (mem_entriesOf.mp hmem).1
  have hh := h.history
  have hassoc : h₁ ++ e :: (h₂ ++ e' :: (u ++ x :: v))
      = (h₁ ++ e :: (h₂ ++ e' :: u)) ++ x :: v := by simp
  rw [hsplit, hassoc] at hh
  obtain ⟨g, hg, hlt⟩ := fence_lt (sql_fence_step key) hh.at_entry.1 he
    (fun y hy => by
      have hrow := hkept y (by
        rcases List.mem_append.mp hy with hy | hy
        · exact List.mem_append_left _ hy
        · refine List.mem_append_right _ ?_
          rcases List.mem_cons.mp hy with rfl | hy
          · exact List.mem_cons_self
          · exact List.mem_cons_of_mem _ (List.mem_append_left _ hy))
      simpa [sqlFenceAt] using hrow)
    (by
      obtain ⟨g, hg⟩ := Option.ne_none_iff_exists'.mp he'
      simp [List.filterMap_append, hg])
  obtain ⟨row, hrow, rfl⟩ := Option.map_eq_some_iff.mp hg
  exact ⟨row, hrow, by omega⟩

/-- A settlement that is superseded changes nothing. -/
lemma superseded_unchanged (h : Interleave (fun _ _ _ => True) sqlObj t₀ start cfg)
    (honly : (start i).Only (Settles key f)) (hs : Superseded key f i cfg.history) :
    ∀ x ∈ entriesOf i cfg.history, x.post = x.pre := by
  intro x hx
  obtain ⟨row, hrow, hne⟩ := superseded_fence h hs hx
  have hc := (h.steps i).only honly x.event (List.mem_map_of_mem hx)
  exact (settles_other_fence (h.history.obj_of_mem (mem_entriesOf.mp hx).1) hc hrow hne).1

/-- The replies to a settlement that is superseded: no row was written, and the row it reads carries
another fence. -/
lemma superseded_event (h : Interleave (fun _ _ _ => True) sqlObj t₀ start cfg)
    (hs : Superseded key f i cfg.history) (ev : Event (Statement T) (SqlReply X))
    (hev : ev ∈ traceOf i cfg.history) (hc : Settles key f ev.1) :
    (∀ now result g, ev ≠ ⟨.Complete key.1 key.2 f now result, .ok (some g)⟩)
      ∧ (∀ g, ev ≠ ⟨.Abandon key.1 key.2 f, .ok (some g)⟩)
      ∧ ∀ existing, ev = ⟨.Select key.1 key.2, .ok existing⟩ →
        ∃ row, existing = some row ∧ row.fence ≠ f := by
  obtain ⟨x, hx, rfl⟩ := List.mem_map.mp hev
  obtain ⟨row, hrow, hne⟩ := superseded_fence h hs hx
  obtain ⟨-, hcomplete, habandon, hselect⟩ :=
    settles_other_fence (h.history.obj_of_mem (mem_entriesOf.mp hx).1) hc hrow hne
  exact ⟨hcomplete, habandon, fun existing hev => ⟨row, hselect existing hev, hne⟩⟩

/-- A `complete` that is superseded and returns is refused. -/
lemma superseded_complete (h : Interleave (fun _ _ _ => True) sqlObj t₀ start cfg)
    (hs : Superseded key f i cfg.history) {now : ℤ} {result : ResultColumns T}
    {writeFailed selectFailed : X → Err} {status : CompleteStatus}
    (hrun : Runs (completeProgram key.1 key.2 f now result writeFailed selectFailed)
      (traceOf i cfg.history) (.ok status)) : status.Refused := by
  rcases runs_completeProgram hrun with ⟨g, htrace, -⟩ | ⟨existing, htrace, rfl⟩
  · have hwrite := superseded_event h hs
      ⟨.Complete key.1 key.2 f now result, .ok (some g)⟩ (by simp [htrace]) (Or.inl ⟨now, result, rfl⟩)
    exact absurd rfl (hwrite.1 now result g)
  · have hread := superseded_event h hs ⟨.Select key.1 key.2, .ok existing⟩
      (by simp [htrace]) (Or.inr (Or.inr rfl))
    obtain ⟨row, rfl, hne⟩ := hread.2.2 existing rfl
    exact completeStatus_other_fence hne now

/-- An `abandon` that is superseded and returns is refused. -/
lemma superseded_abandon (h : Interleave (fun _ _ _ => True) sqlObj t₀ start cfg)
    (hs : Superseded key f i cfg.history) {writeFailed selectFailed : X → Err}
    {status : CompleteStatus}
    (hrun : Runs (abandonProgram key.1 key.2 f writeFailed selectFailed)
      (traceOf i cfg.history) (.ok status)) : status.Refused := by
  rcases runs_abandonProgram hrun with ⟨g, htrace, -⟩ | ⟨existing, -, rfl⟩
  · have hwrite := superseded_event h hs ⟨.Abandon key.1 key.2 f, .ok (some g)⟩
      (by simp [htrace]) (Or.inr (Or.inl rfl))
    exact absurd rfl (hwrite.2.1 g)
  · exact abandonStatus_refused f existing

/-- **The fence a `begin` returns was granted**, by one of its own statements. -/
lemma granted_of_acquired (h : Interleave (fun _ _ _ => True) sqlObj t₀ start cfg)
    {claim : ClaimColumns T} {terms : TermColumns} {beginFailed selectFailed : X → Err} {Rec : Type}
    {classify : Option (RecordRow T) → Option (Except Err (BeginOutcome Rec))} {unsettled : Err}
    (hcl : ∀ existing g, classify existing ≠ some (.ok (.Acquired g))) {g : ℤ}
    (hrun : Runs (beginProgram claim terms beginFailed selectFailed classify unsettled)
      (traceOf i cfg.history) (.ok (.Acquired g))) :
    ∃ e ∈ entriesOf i cfg.history, sqlGranted (claim.scope, claim.key) e = some g := by
  obtain ⟨ts, t', htrace, -, ⟨-, hgave, -⟩ | ⟨hlast, -⟩⟩ := runs_retry hrun
  · cases hgave
  rcases runs_beginAttempt hlast with ⟨fence, rfl, hout⟩ | ⟨_, _, hout⟩ | ⟨existing, _, hout⟩
    | ⟨_, _, hout⟩
  · cases hout
    obtain ⟨es, e, hsplit, -, he⟩ := entries_of_trace htrace
    have hown : e ∈ entriesOf i cfg.history := by simp [hsplit]
    have hobj := h.history.obj_of_mem (mem_entriesOf.mp hown).1
    exact ⟨e, hown, sqlGranted_of_returned hobj he⟩
  · cases hout
  · exact absurd hout.symm (hcl existing g)
  · cases hout

end Runs

section Only

variable {scope key : T} {fence now : ℤ} {result : ResultColumns T}
variable {writeFailed selectFailed : X → Err}

omit [DecidableEq T] in
lemma only_completeProgram : (completeProgram scope key fence now result writeFailed
    selectFailed).Only (Settles (scope, key) fence) := by
  refine ⟨Or.inl ⟨now, result, rfl⟩, fun reply => ?_⟩
  rcases reply with err | (_ | g)
  · trivial
  · exact ⟨Or.inr (Or.inr rfl), fun reply => by cases reply <;> trivial⟩
  · trivial

omit [DecidableEq T] in
lemma only_abandonProgram : (abandonProgram scope key fence writeFailed selectFailed).Only
    (Settles (scope, key) fence) := by
  refine ⟨Or.inr (Or.inl rfl), fun reply => ?_⟩
  rcases reply with err | (_ | g)
  · trivial
  · exact ⟨Or.inr (Or.inr rfl), fun reply => by cases reply <;> trivial⟩
  · trivial

end Only

end

/-! ## The law of takeovers -/

/-- The law for a run of `MemoryStore`: after a claim on a key was granted with fence `f` and as long
as its row was not deleted, the later grants continue from `f`, and after a later grant a settlement
under `f` is refused and changes nothing. -/
def MemoryStore.Fenced {ι : Type} (h : List (memoryClaims.StoreEntry ι)) (s : MemoryStore) : Prop :=
  ∀ scope key h₁ e h₂ f, h = h₁ ++ e :: h₂ →
    memoryClaims.grantedAt (mapKey scope key) e = some f →
    (∀ x ∈ h₂, x.post.records.get (mapKey scope key) ≠ none) →
    Continues f (h₂.filterMap (memoryClaims.grantedAt (mapKey scope key)))
        (memoryClaims.fenceAt (mapKey scope key) s)
      ∧ (h₂.filterMap (memoryClaims.grantedAt (mapKey scope key)) ≠ [] →
        ∀ op : Operation, mapKey op.scope op.key = mapKey scope key →
          (∀ result now, (s.complete op f result now).1.Refused
              ∧ (s.complete op f result now).2 = s)
            ∧ (s.abandon op f).1.Refused ∧ (s.abandon op f).2 = s)

/-- The same law for a run of calls over statements.  A settlement that starts after a later grant
leaves the table as it was with each of its statements. -/
structure SqlFenced {ι T X Op Opts P Err Rec : Type} [DecidableEq ι] [DecidableEq T]
    (keyOf : Op → T × T) (calls : ι → StoreCall Op Opts P)
    (cfg : Config ι (Statement T) (SqlReply X)
      ((c : StoreCall Op Opts P) × Except Err (StoreReply Rec c)) (Records T)) : Prop where
  granted : ∀ i op opts g, cfg.pool i = .Ret ⟨.Begin op opts, .ok (.Acquired g)⟩ →
    ∃ e ∈ entriesOf i cfg.history, sqlGranted (keyOf op) e = some g
  continues : ∀ key h₁ e h₂ f, cfg.history = h₁ ++ e :: h₂ → sqlGranted key e = some f →
    (∀ x ∈ h₂, x.post.lookup key ≠ none) →
    Continues f (h₂.filterMap (sqlGranted key)) (sqlFenceAt key cfg.state)
  complete : ∀ i op f result now, calls i = .Complete op f result now →
    Superseded (keyOf op) f i cfg.history →
    (∀ x ∈ entriesOf i cfg.history, x.post = x.pre)
      ∧ ∀ status, cfg.pool i = .Ret ⟨.Complete op f result now, .ok status⟩ → status.Refused
  abandon : ∀ i op f, calls i = .Abandon op f → Superseded (keyOf op) f i cfg.history →
    (∀ x ∈ entriesOf i cfg.history, x.post = x.pre)
      ∧ ∀ status, cfg.pool i = .Ret ⟨.Abandon op f, .ok status⟩ → status.Refused

section

variable {ι : Type}

lemma MemoryStore.fenced {s₀ s : MemoryStore} {h : List (memoryClaims.StoreEntry ι)}
    (hh : History (fun _ _ _ => True) memoryClaims.obj s₀ h s) : MemoryStore.Fenced h s := by
  intro scope key h₁ e h₂ f hsplit he hkept
  subst hsplit
  have hcell : ∀ x ∈ h₂, memoryClaims.fenceAt (mapKey scope key) x.post ≠ none := by
    intro x hx hnone
    exact hkept x hx (Option.map_eq_none_iff.mp hnone)
  refine ⟨fences_continue (ClaimStore.fence_step _) hh he hcell, fun hlater op hop => ?_⟩
  obtain ⟨g, hg, hlt⟩ := fence_lt (ClaimStore.fence_step _) hh he hcell hlater
  obtain ⟨row, hrow, rfl⟩ := Option.map_eq_some_iff.mp hg
  have hop : s.cell op = some row := by rw [MemoryStore.cell, hop]; exact hrow
  have hne : memoryModel.fence row ≠ f := by omega
  have hself := s.withCell_cell op
  rw [hop] at hself
  refine ⟨fun result now => ?_, ?_⟩
  · obtain ⟨hstatus, hkeep⟩ :=
      (memoryModel.complete_other_fence hne : _ ∧ (memoryModel.complete f result now (some row)).2 = _)
    rw [s.complete_eq, hop, hkeep]
    exact ⟨hstatus, hself⟩
  · obtain ⟨hstatus, hkeep⟩ := memoryModel.abandon_other_fence hne
    rw [s.abandon_eq, hop, hkeep]
    exact ⟨hstatus, hself⟩

variable [DecidableEq ι]

/-- The part of the law that every store over the statements has in common. -/
lemma sql_continues {T X α : Type} [DecidableEq T] {t₀ : Records T} {start : ι → SqlProg T X α}
    {cfg : Config ι (Statement T) (SqlReply X) α (Records T)}
    (h : Interleave (fun _ _ _ => True) sqlObj t₀ start cfg) (key : T × T)
    (h₁ : List (SqlEntry ι T X)) (e : SqlEntry ι T X) (h₂ : List (SqlEntry ι T X)) (f : ℤ)
    (hsplit : cfg.history = h₁ ++ e :: h₂) (he : sqlGranted key e = some f)
    (hkept : ∀ x ∈ h₂, x.post.lookup key ≠ none) :
    Continues f (h₂.filterMap (sqlGranted key)) (sqlFenceAt key cfg.state) := by
  have hh := h.history
  rw [hsplit] at hh
  refine fences_continue (sql_fence_step key) hh he fun x hx hnone => ?_
  exact hkept x hx (Option.map_eq_none_iff.mp hnone)

/-- What differs between the stores over the statements is only how a call is written. -/
lemma SqlDialect.fenced {X : Type} (d : SqlDialect)
    {calls : ι → StoreCall Operation BeginOptions Completion} {t₀ : Records JsString}
    {cfg : Config ι (Statement JsString) (SqlReply X) _ (Records JsString)}
    (h : Interleave (fun _ _ _ => True) sqlObj t₀ (poolOf (d.program (X := X)) calls) cfg) :
    SqlFenced (fun op : Operation => (op.scope, op.key)) calls cfg where
  granted i op opts g hret := by
    refine granted_of_acquired h (fun existing g hg => ?_) (h.returned hret).2
    obtain ⟨row, -, -, hreport⟩ := (classifier d op opts).settled existing _ hg
    obtain ⟨record, -, hclass⟩ := Option.map_eq_some_iff.mp hreport
    exact ClaimModel.classify_ne_acquired hclass
  continues := sql_continues h
  complete i op f result now hcall hs := by
    refine ⟨superseded_unchanged h ?_ hs, fun status hret => ?_⟩
    · rw [poolOf_eq _ hcall]
      exact only_bind only_completeProgram fun r => trivial
    · exact superseded_complete h hs (h.returned hret).2
  abandon i op f hcall hs := by
    refine ⟨superseded_unchanged h ?_ hs, fun status hret => ?_⟩
    · rw [poolOf_eq _ hcall]
      exact only_bind only_abandonProgram fun r => trivial
    · exact superseded_abandon h hs (h.returned hret).2

lemma Go.only_complete (json : Go.MetaJson) (op : Go.Operation) (f : ℤ) (result : Go.StoredResult)
    (now : ℤ) : (Go.complete json op f result now).Only (Settles (op.scope, op.key) f) := by
  unfold Go.complete
  split
  · trivial
  · exact only_completeProgram

lemma Go.fenced (json : Go.MetaJson)
    {calls : ι → StoreCall Go.Operation Go.BeginOptions Go.StoredResult} {t₀ : Records Go.GoString}
    {cfg : Config ι (Statement Go.GoString) (SqlReply Go.DriverFailure) _ (Records Go.GoString)}
    (h : Interleave (fun _ _ _ => True) sqlObj t₀ (poolOf (Go.program json) calls) cfg) :
    SqlFenced (fun op : Go.Operation => (op.scope, op.key)) calls cfg where
  granted i op opts g hret := by
    refine granted_of_acquired h (fun existing g hg => ?_) (h.returned hret).2
    obtain ⟨row, -, -, hreport⟩ := (Go.classifier json op opts).settled existing _ hg
    exact ClaimModel.classify_ne_acquired (Option.some.inj hreport)
  continues := sql_continues h
  complete i op f result now hcall hs := by
    refine ⟨superseded_unchanged h ?_ hs, fun status hret => ?_⟩
    · rw [poolOf_eq _ hcall]
      exact only_bind (Go.only_complete json op f result now) fun r => trivial
    · have hrun : Runs (Go.complete json op f result now) (traceOf i cfg.history) (.ok status) :=
        (h.returned hret).2
      unfold Go.complete at hrun
      split at hrun
      · obtain ⟨-, hfail⟩ := runs_ret_iff.mp hrun
        cases hfail
      · exact superseded_complete h hs hrun
  abandon i op f hcall hs := by
    refine ⟨superseded_unchanged h ?_ hs, fun status hret => ?_⟩
    · rw [poolOf_eq _ hcall]
      exact only_bind only_abandonProgram fun r => trivial
    · exact superseded_abandon h hs (h.returned hret).2

/-- **Takeover fencing.**  In every run of `MemoryStore`, and in every interleaving of calls of the
stores over the SQL statements: as long as the row of a claim granted with fence `f` is not deleted,
the fences granted after it are `f + 1, f + 2, …`, the row carries the latest, and a settlement that
comes with `f` after a later grant is refused and changes no row. -/
theorem takeover_fencing :
    (∀ (s₀ s : MemoryStore) (h : List (memoryClaims.StoreEntry ι)),
        History (fun _ _ _ => True) memoryClaims.obj s₀ h s → MemoryStore.Fenced h s)
      ∧ (∀ (X : Type) (d : SqlDialect) (calls : ι → StoreCall Operation BeginOptions Completion)
        (t₀ : Records JsString) cfg,
        Interleave (fun _ _ _ => True) sqlObj t₀ (poolOf (d.program (X := X)) calls) cfg →
        SqlFenced (fun op : Operation => (op.scope, op.key)) calls cfg)
      ∧ ∀ (json : Go.MetaJson)
        (calls : ι → StoreCall Go.Operation Go.BeginOptions Go.StoredResult)
        (t₀ : Records Go.GoString) cfg,
        Interleave (fun _ _ _ => True) sqlObj t₀ (poolOf (Go.program json) calls) cfg →
        SqlFenced (fun op : Go.Operation => (op.scope, op.key)) calls cfg :=
  ⟨fun _ _ _ hh => MemoryStore.fenced hh, fun _ d _ _ _ h => d.fenced h,
    fun json _ _ _ h => Go.fenced json h⟩

end

/-- A claim, its takeover once the lease has lapsed, and the first holder that abandons too late. -/
def overtakenCalls : ℕ → StoreCall Operation BeginOptions Completion
  | 0 => .Begin raceOp ⟨10, 100, 0⟩
  | 1 => .Begin raceOp ⟨10, 100, 10⟩
  | _ => .Abandon raceOp 1

/-- The claim and its takeover. -/
def takeover : List (ℕ × StoreCall Operation BeginOptions Completion) :=
  [(0, overtakenCalls 0), (1, overtakenCalls 1)]

def overtaken := sqlRun (SqlDialect.D1.program (X := Unit)) overtakenCalls Table.empty [0, 1, 2, 2]

theorem takeover_fencing_overtaken :
    ((memoryClaims.reached MemoryStore.empty takeover).abandon raceOp 1).1.Refused
      ∧ memoryClaims.fenceAt (mapKey raceOp.scope raceOp.key)
          (memoryClaims.reached MemoryStore.empty takeover) = some 2
      ∧ overtaken.pool 2 = .Ret ⟨.Abandon raceOp 1, .ok .StaleFence⟩
      ∧ sqlFenceAt (raceOp.scope, raceOp.key) overtaken.state = some 2
      ∧ ∀ x ∈ entriesOf 2 overtaken.history, x.post = x.pre := by
  have hcalls : History (fun _ _ _ => True) memoryClaims.obj MemoryStore.empty
      (memoryClaims.record MemoryStore.empty takeover)
      (memoryClaims.reached MemoryStore.empty takeover) :=
    ClaimStore.history_record History.start takeover ⟨trivial, trivial, trivial⟩
  have hmemory := takeover_fencing.1 _ _ _ hcalls raceOp.scope raceOp.key [] _ _ 1 rfl
    (by decide +kernel) (by decide +kernel)
  have hlate := takeover_fencing.2.1 Unit .D1 overtakenCalls Table.empty overtaken (interleave_sqlRun _ _ _ _)
  refine ⟨(hmemory.2 (by decide +kernel) raceOp rfl).2.1, hmemory.1.latest.trans (by decide +kernel),
    rfl, ?_, ?_⟩
  · exact (hlate.continues (raceOp.scope, raceOp.key) [] _ _ 1 rfl (by decide +kernel)
      (by decide +kernel)).latest.trans (by decide +kernel)
  · refine (hlate.abandon 2 raceOp 1 rfl ?_).1
    exact ⟨[], _, [], _, _, rfl, by decide +kernel, by decide +kernel, by decide +kernel, rfl⟩

end Anyonce
