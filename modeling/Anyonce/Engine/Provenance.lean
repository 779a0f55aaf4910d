import Anyonce.Engine.System

/-!
# Replays and their origin

For every number of concurrent `execute` calls on one `MemoryStore`, in every interleaving of their
store calls with purges, with any clock readings:

* a replayed result was passed to `complete` by an `execute` of the same scope, key and fingerprint;
* an `execute` that says its result is stored completed the record its own `begin` created.

`replays_have_provenance` proves it for the interleavings in which no `complete` meets, after its own
row was deleted, a live row that carries its fence number again.  Without that condition it fails:
`late_complete_poisons_replay` is an interleaving in which a result is replayed to another payload.
-/

namespace Anyonce

open Interaction

/-- What a payload becomes in the record. -/
def storedForm : Completion → StoredResult
  | .Stored result => copyResult result
  | .Omitted result => omittedToStored result

lemma storeCompletion_result (row : IdempotencyRecord) (p : Completion) :
    (MemoryStore.storeCompletion row p).result = some (storedForm p) := by
  cases p <;> rfl

section

variable {E ι : Type}

/-- A state of the system: the store, what is left of each task, and the past. -/
abbrev SystemConfig (E ι : Type) : Type :=
  Config ι (SystemCall E) (SystemReply E) (Option (Except E (ExecuteResult E))) MemoryStore

/-- The record `row` is the one the last grant of `op` wrote, and that grant was `j`'s `begin`. -/
def OwnRecord (h : List (SystemEntry E ι)) (j : ι) (op : Operation) (fence : ℤ)
    (row : IdempotencyRecord) : Prop :=
  ∃ opts g, memoryClaims.lastGrant (mapKey op.scope op.key) (storeView h) = some g
    ∧ g.cmd = (j, .Begin op opts)
    ∧ (row = MemoryStore.newRecord op opts fence
      ∨ ∃ p, row = MemoryStore.storeCompletion (MemoryStore.newRecord op opts fence) p)

/-- Where the results come from that a state of the system has given out. -/
structure ReplayProvenance (tasks : ι → Task) (cfg : SystemConfig E ι) : Prop where
  /-- A replayed result was passed to `complete` by an `execute` of the same operation and payload. -/
  replayed : ∀ j op config record, tasks j = .Execute op config →
    cfg.pool j = .Ret (some (.ok (.Replayed record))) →
      ∃ i op' config' fence payload now r s s', tasks i = .Execute op' config'
        ∧ op'.scope = op.scope ∧ op'.key = op.key ∧ op'.fingerprint = op.fingerprint
        ∧ ⟨s, (i, .Engine (.Complete op' fence payload now)), r, s'⟩ ∈ cfg.history
        ∧ record.result = some (storedForm payload)
  /-- A stored result went into the record of the same `execute`, so its fingerprint is that
  `execute`'s. -/
  stored : ∀ j op config result, tasks j = .Execute op config →
    cfg.pool j = .Ret (some (.ok (.Executed result true))) →
      ∃ h₁ h₂ s s' fence payload now row,
        cfg.history = h₁ ++ ⟨s, (j, .Engine (.Complete op fence payload now)), .ok .Ok, s'⟩ :: h₂
          ∧ s.cell op = some row ∧ OwnRecord h₁ j op fence row ∧ row.fingerprint = op.fingerprint

/-- Only an engine's `complete` is seen as one. -/
lemma storeEntry_complete {e : SystemEntry E ι} {e' : memoryClaims.StoreEntry ι}
    (he : storeEntry e = some e') {i : ι} {op : Operation} {fence now : ℤ} {p : Completion}
    (hcmd : e'.cmd = (i, .Complete op fence p now)) :
    ∃ s r s', e = ⟨s, (i, .Engine (.Complete op fence p now)), r, s'⟩ := by
  obtain ⟨s, ⟨j, c⟩, r, s'⟩ := e
  cases c with
  | Purge n =>
      cases he
      cases hcmd
  | Engine c =>
      cases c with
      | Complete op' fence' p' now' =>
          cases r with
          | error thrown => cases he
          | ok status =>
              cases he
              cases hcmd
              exact ⟨s, .ok status, s', rfl⟩
      | Begin op' opts =>
          cases r with
          | error thrown => cases he
          | ok out =>
              cases he
              cases hcmd
      | Abandon op' fence' =>
          cases r with
          | error thrown => cases he
          | ok out =>
              cases he
              cases hcmd
      | Clock => cases he
      | Run fence' => cases he
      | StoreResult result => cases he
      | Hook call => cases he
      | CountHookError => cases he

variable [DecidableEq ι]

/-! ## From a finished task to its store calls -/

/-- A finished `execute` ran through one of the paths, and its calls are in the history. -/
lemma path_of_finished {tasks : ι → Task} {cfg : SystemConfig E ι} (h : SystemRun tasks cfg) {j : ι}
    {op : Operation} {config : PolicyConfig} (htask : tasks j = .Execute op config)
    {out : Except E (ExecuteResult E)} (hout : cfg.pool j = .Ret (some out)) :
    ∃ t₀, Path op config (visible EngineCall.shown t₀) out
      ∧ traceOf j cfg.history = t₀.map (Event.embed SystemCall.Engine) := by
  have hsteps := h.steps j
  rw [htask, hout] at hsteps
  obtain ⟨t₀, q₀, hrun, hq, htrace⟩ := Steps.of_embed hsteps
  cases q₀ with
  | Call c k => cases hq
  | Ret out₀ =>
      cases hq
      exact ⟨t₀, execute_path hrun, htrace⟩

/-- An engine call in the history was made by an `execute`. -/
lemma execute_of_mem {tasks : ι → Task} {cfg : SystemConfig E ι} (h : SystemRun tasks cfg) {i : ι}
    {c : EngineCall E} {r : EngineReply E c} {s s' : MemoryStore}
    (hmem : (⟨s, (i, .Engine c), r, s'⟩ : SystemEntry E ι) ∈ cfg.history) :
    ∃ config, tasks i = .Execute (tasks i).op config := by
  have hsteps := h.steps i
  have hev : (⟨.Engine c, r⟩ : Event (SystemCall E) (SystemReply E)) ∈ traceOf i cfg.history :=
    mem_traceOf.mpr ⟨_, hmem, rfl, rfl⟩
  cases htask : tasks i with
  | Execute op config => exact ⟨config, rfl⟩
  | Purge now =>
      rw [htask] at hsteps
      generalize traceOf i cfg.history = t at hsteps hev
      generalize cfg.pool i = q at hsteps
      cases hsteps with
      | refl => cases hev
      | call n hrest =>
          cases hrest with
          | refl => simp at hev

/-- A store call in the history is a store call of the run of the store, made after what came
before it. -/
lemma storeRun_at {tasks : ι → Task} {cfg : SystemConfig E ι} (h : SystemRun tasks cfg)
    {e : SystemEntry E ι} {e' : memoryClaims.StoreEntry ι} (he : storeEntry e = some e')
    {h₁ h₂ : List (SystemEntry E ι)} (hsplit : cfg.history = h₁ ++ e :: h₂) :
    memoryClaims.OwnRun (fun i => (tasks i).op) MemoryStore.empty (storeView h₁) e'.pre
      ∧ (memoryClaims.ActsOn (fun i => (tasks i).op) (storeView h₁) e'.cmd.1 e'.cmd.2
        ∧ memoryClaims.CompletesOwn (storeView h₁) e'.pre e'.cmd.1 e'.cmd.2)
      ∧ memoryClaims.apply e'.pre e'.cmd.2 = (e'.reply, e'.post) := by
  have hrun := system_storeRun h
  rw [hsplit, storeView_append, storeView, storeView, List.filterMap_cons_some he] at hrun
  exact hrun.at_entry

/-- A payload passed to the store was passed by an `execute`. -/
lemma execute_of_passed {tasks : ι → Task} {cfg : SystemConfig E ι} (h : SystemRun tasks cfg)
    {h₁ : List (SystemEntry E ι)} (hsub : h₁ ⊆ cfg.history) {i : ι} {op : Operation} {p : Completion}
    (hp : memoryClaims.Passed (storeView h₁) i op p) :
    ∃ config fence now r s s', tasks i = .Execute (tasks i).op config
      ∧ ⟨s, (i, .Engine (.Complete op fence p now)), r, s'⟩ ∈ cfg.history := by
  obtain ⟨e', he', fence, now, hcmd⟩ := hp
  obtain ⟨e, he, hview⟩ := List.mem_filterMap.mp he'
  obtain ⟨s, r, s', rfl⟩ := storeEntry_complete hview hcmd
  obtain ⟨config, htask⟩ := execute_of_mem h (hsub he)
  exact ⟨config, fence, now, r, s, s', htask, hsub he⟩

/-- **Replays have their provenance.** -/
theorem replays_have_provenance {tasks : ι → Task}
    (hkeys : ∀ i op config, tasks i = .Execute op config → 0x00 ∉ op.key) {cfg : SystemConfig E ι}
    (h : SystemRun tasks cfg) : ReplayProvenance tasks cfg := by
  constructor
  · intro j op config record htask hout
    obtain ⟨t₀, hpath, htrace⟩ := path_of_finished h htask hout
    obtain ⟨opts, hbegin⟩ := hpath.replayed_begin
    obtain ⟨s, s', hmem⟩ := mem_history_of_trace htrace (mem_visible.mp hbegin).1
    obtain ⟨h₁, h₂, hsplit⟩ := List.append_of_mem hmem
    obtain ⟨hrun, -, hobj⟩ := storeRun_at h rfl hsplit
    have hreply : (memoryModel.begin op opts (s.cell op)).1 = .Completed record :=
      (memoryClaims.begin_reply s op opts).symm.trans (congrArg Prod.fst hobj)
    obtain ⟨hrow, hstate, hfp⟩ := ClaimModel.begin_completed hreply
    obtain ⟨e, o, f, -, -, haddr, hform⟩ :=
      ClaimStore.sourced_run (fun _ => rfl) hrun _ _ hrow
    rcases hform with rfl | ⟨p, hpassed, rfl⟩
    · cases hstate
    · have hsub : h₁ ⊆ cfg.history := by
        rw [hsplit]
        exact List.subset_append_left _ _
      obtain ⟨config', fence, now, r, s₁, s₂, hexec, hcall⟩ := execute_of_passed h hsub hpassed
      obtain ⟨hscope, hkey⟩ := mapKey_inj (hkeys _ _ _ hexec) (hkeys _ _ _ htask) haddr
      refine ⟨e.cmd.1, _, config', fence, p, now, r, s₁, s₂, hexec, hscope, hkey, ?_, hcall, ?_⟩
      · rw [← show _ = op.fingerprint from hfp, memoryModel.fingerprint_finish]
        rfl
      · exact storeCompletion_result _ p
  · intro j op config result htask hout
    obtain ⟨t₀, hpath, htrace⟩ := path_of_finished h htask hout
    obtain ⟨fence, payload, now, hcomplete⟩ := hpath.stored_complete
    obtain ⟨s, s', hmem⟩ := mem_history_of_trace htrace (mem_visible.mp hcomplete).1
    obtain ⟨h₁, h₂, hsplit⟩ := List.append_of_mem hmem
    obtain ⟨hrun, ⟨hacts, howns⟩, hobj⟩ := storeRun_at h rfl hsplit
    have hreply : (memoryModel.complete fence payload now (s.cell op)).1 = .Ok :=
      (memoryClaims.complete_reply s op fence payload now).symm.trans (congrArg Prod.fst hobj)
    obtain ⟨row, hrow, hlive, hfence⟩ := ClaimModel.complete_ok hreply
    obtain ⟨g, hlast, hg⟩ := ClaimStore.completes_own hrun hacts howns hrow hlive hfence
    obtain ⟨e, o, f, hlast', hgrant, -, hform⟩ :=
      ClaimStore.sourced_run (fun _ => rfl) hrun _ _ hrow
    obtain rfl : g = e := Option.some.inj (hlast.symm.trans hlast')
    have hop : (tasks g.cmd.1).op = op := by
      rw [hg, htask]
      rfl
    simp only [hop] at hgrant hform
    have hcmd : g.cmd = (j, .Begin op o) := Prod.ext hg (begin_of_grantOf hgrant)
    -- the fence found is the fence of the grant
    have hf : f = fence := by
      rw [← hfence]
      rcases hform with rfl | ⟨p, -, rfl⟩
      · exact (memoryModel.fence_fresh op o f).symm
      · rw [memoryModel.fence_finish, memoryModel.fence_fresh]
    subst hf
    refine ⟨h₁, h₂, s, s', f, payload, now, row, hsplit, hrow, ⟨o, g, hlast, hcmd, ?_⟩, ?_⟩
    · rcases hform with hfresh | ⟨p, -, hfin⟩
      · exact Or.inl hfresh
      · exact Or.inr ⟨p, hfin⟩
    · rcases hform with rfl | ⟨p, -, rfl⟩
      · rfl
      · exact memoryModel.fingerprint_finish p _

end

/-! ## Runs -/

/-- A policy with a short lease and TTL. -/
def shortPolicy : PolicyConfig := ⟨5, 10, 1024, .FailClosed, none, false⟩

/-- One key, with the given payload. -/
def withPayload (fingerprint : String) : Operation := ⟨js "orders", js "k1", js fingerprint⟩

/-- The result the handlers return. -/
def created : StoredResult := { kind := .Http, status := some 201 }

/-- Two calls of one payload. -/
def duplicate : Bool → Task := fun _ => .Execute (withPayload "p") shortPolicy

theorem replays_have_provenance_duplicate :
    ∃ cfg : SystemConfig Unit Bool, ReplayProvenance duplicate cfg
      ∧ ∃ record, cfg.pool true = .Ret (some (.ok (.Replayed record))) := by
  have h₀ : SystemRun (E := Unit) duplicate _ := Interleave.start
  have h₁ := h₀.next false (.Engine .Clock) (0 : ℤ) rfl trivial rfl
  have h₂ := h₁.next false (.Engine (.Begin (withPayload "p") ⟨5, 10, 0⟩)) (.ok (.Acquired 1)) rfl
    trivial ⟨rfl, rfl⟩
  have h₃ := h₂.next false (.Engine (.Run 1)) (.ok created) rfl trivial rfl
  have h₄ := h₃.next false (.Engine (.StoreResult created)) (.ok true) rfl trivial rfl
  have h₅ := h₄.next false (.Engine .Clock) (1 : ℤ) rfl trivial rfl
  have h₆ := h₅.next false (.Engine (.Complete (withPayload "p") 1 (.Stored created) 1)) (.ok .Ok) rfl
    (by
      rintro ⟨t₁, e, t₂, hsplit, -, -, e', he', -⟩
      have hlen := congrArg List.length hsplit
      have hpos := List.length_pos_of_mem he'
      rw [List.length_append, List.length_cons] at hlen
      change 1 = _ at hlen
      omega) ⟨rfl, rfl⟩
  have h₇ := h₆.next true (.Engine .Clock) (2 : ℤ) rfl trivial rfl
  have h₈ := h₇.next true (.Engine (.Begin (withPayload "p") ⟨5, 10, 2⟩))
    (.ok (.Completed ⟨js "orders", js "k1", js "p", .Completed, 1, 5, 0, 10, some created, none⟩)) rfl
    trivial ⟨rfl, rfl⟩
  refine ⟨_, replays_have_provenance ?_ h₈, _, rfl⟩
  rintro i op config htask
  cases htask
  decide

/-- The clock reading a call carries to the store. -/
def SystemCall.time {E : Type} : SystemCall E → Option ℤ
  | .Engine (.Begin _ opts) => some opts.now
  | .Engine (.Complete _ _ _ now) => some now
  | .Engine _ => none
  | .Purge now => some now

/-- Clock readings reach the store in order. -/
def MonotoneClocks {E ι : Type} (h : List (SystemEntry E ι)) (_ : MemoryStore)
    (p : ι × SystemCall E) : Prop :=
  ∀ t ∈ p.2.time, ∀ e ∈ h, ∀ t' ∈ e.cmd.2.time, t' ≤ t

instance {E ι : Type} (h : List (SystemEntry E ι)) (s : MemoryStore) (p : ι × SystemCall E) :
    Decidable (MonotoneClocks h s p) :=
  inferInstanceAs (Decidable (∀ t ∈ p.2.time, ∀ e ∈ h, ∀ t' ∈ e.cmd.2.time, t' ≤ t))

/-- Task 0 outlives its TTL and its row is purged; task 2 claims the key for another payload, again
with fence 1; the late `complete` of task 0 lands in the record of task 2; task 3 replays it. -/
def latecomer : ℕ → Task
  | 0 => .Execute (withPayload "p") shortPolicy
  | 1 => .Purge 10
  | _ => .Execute (withPayload "q") shortPolicy

/-- **A late complete is replayed to another payload.** -/
theorem late_complete_poisons_replay :
    ¬ ∀ (tasks : ℕ → Task) (cfg : SystemConfig Unit ℕ),
      (∀ i op config, tasks i = .Execute op config → validateKey op.key = .Ok) →
      Interleave MonotoneClocks memoryObj MemoryStore.empty (fun i => (tasks i).program) cfg →
        ReplayProvenance tasks cfg := by
  intro hall
  have h₀ : Interleave (R := SystemReply Unit) MonotoneClocks memoryObj MemoryStore.empty
    (fun i => (latecomer i).program) _ := Interleave.start
  have h₁ := h₀.next 0 (.Engine .Clock) (0 : ℤ) rfl (by decide) rfl
  have h₂ := h₁.next 0 (.Engine (.Begin (withPayload "p") ⟨5, 10, 0⟩)) (.ok (.Acquired 1)) rfl
    (by decide) ⟨rfl, rfl⟩
  have h₃ := h₂.next 0 (.Engine (.Run 1)) (.ok created) rfl (by decide) rfl
  have h₄ := h₃.next 0 (.Engine (.StoreResult created)) (.ok true) rfl (by decide) rfl
  have h₅ := h₄.next 1 (.Purge 10) (1 : ℕ) rfl (by decide +kernel) rfl
  have h₆ := h₅.next 2 (.Engine .Clock) (11 : ℤ) rfl (by decide +kernel) rfl
  have h₇ := h₆.next 2 (.Engine (.Begin (withPayload "q") ⟨5, 10, 11⟩)) (.ok (.Acquired 1)) rfl
    (by decide +kernel) ⟨rfl, rfl⟩
  have h₈ := h₇.next 0 (.Engine .Clock) (12 : ℤ) rfl (by decide +kernel) rfl
  have h₉ := h₈.next 0 (.Engine (.Complete (withPayload "p") 1 (.Stored created) 12)) (.ok .Ok) rfl
    (by decide +kernel) ⟨rfl, rfl⟩
  have h₁₀ := h₉.next 3 (.Engine .Clock) (13 : ℤ) rfl (by decide +kernel) rfl
  have h₁₁ := h₁₀.next 3 (.Engine (.Begin (withPayload "q") ⟨5, 10, 13⟩))
    (.ok (.Completed ⟨js "orders", js "k1", js "q", .Completed, 1, 16, 11, 21, some created, none⟩))
    rfl (by decide +kernel) ⟨rfl, rfl⟩
  have hkeys : ∀ i op config, latecomer i = .Execute op config → validateKey op.key = .Ok := by
    intro i op config htask
    unfold latecomer at htask
    split at htask <;> cases htask <;> decide
  obtain ⟨i, op', config', fence, payload, now, r, s, s', htask, -, -, hfp, hmem, -⟩ :=
    (hall latecomer _ hkeys h₁₁).replayed 3 (withPayload "q") shortPolicy _ rfl rfl
  -- the only `complete` of the run is that of task 0
  simp at hmem
  obtain ⟨-, ⟨rfl, rfl, -⟩, -⟩ := hmem
  cases htask
  revert hfp
  decide

end Anyonce
