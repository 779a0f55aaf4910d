import Anyonce.Claim.Provenance
import Anyonce.Engine.Settlement
import Anyonce.Store.Memory

/-!
# Engines over one memory store

Any number of `execute` calls and purges, interleaved over one `MemoryStore`.  Every store call is
one atomic step of the store; clock readings, handlers, predicates and hooks may answer anything and
leave the store alone, so a lease or a TTL may run out while a handler is running.

The store calls of such a system form a run of the store (`storeView`), in which the caller is the
number of the task.  `system_storeRun` shows that the engine makes the callers behave: each acts on
its own operation only and completes only with the fence it was granted.
-/

namespace Anyonce

open Interaction

section

variable (E : Type)

/-- The commands of the system: those of the engines, and purges. -/
inductive SystemCall
  | Engine (c : EngineCall E)
  | Purge (now : ℤ)

abbrev SystemReply : SystemCall E → Type
  | .Engine c => EngineReply E c
  | .Purge _ => ℕ

end

/-- What a task of the system is: one `execute`, or one purge. -/
inductive Task
  | Execute (op : Operation) (cfg : PolicyConfig)
  | Purge (now : ℤ)

/-- The operation of a task; a purge has none, and this value is never looked at. -/
def Task.op : Task → Operation
  | .Execute op _ => op
  | .Purge _ => ⟨[], [], []⟩

section

variable {E : Type}

/-- The program of a task.  An `execute` returns what it returns; a purge returns `none`. -/
def Task.program : Task → Prog (SystemCall E) (SystemReply E) (Option (Except E (ExecuteResult E)))
  | .Execute op cfg => (executeCalls op cfg).embed SystemCall.Engine some
  | .Purge now => Prog.Call (.Purge now) fun _ => Prog.Ret none

variable {ι : Type}

/-- One step of the memory store: store calls act on it, everything else leaves it alone. -/
def memoryObj (s : MemoryStore) :
    (p : ι × SystemCall E) → Tagged ι (SystemReply E) p → MemoryStore → Prop
  | (_, .Engine (.Begin op opts)), r, s' => r = .ok (s.begin op opts).1 ∧ s' = (s.begin op opts).2
  | (_, .Engine (.Complete op fence payload now)), r, s' =>
      r = .ok (s.complete op fence payload now).1 ∧ s' = (s.complete op fence payload now).2
  | (_, .Engine (.Abandon op fence)), r, s' =>
      r = .ok (s.abandon op fence).1 ∧ s' = (s.abandon op fence).2
  | (_, .Engine .Clock), _, s' => s' = s
  | (_, .Engine (.Run _)), _, s' => s' = s
  | (_, .Engine (.StoreResult _)), _, s' => s' = s
  | (_, .Engine (.Hook _)), _, s' => s' = s
  | (_, .Engine .CountHookError), _, s' => s' = s
  | (_, .Purge now), r, s' => s.purge now = (r, s')

/-- One recorded step of the system. -/
abbrev SystemEntry (E ι : Type) : Type :=
  Entry (ι × SystemCall E) (Tagged ι (SystemReply E)) MemoryStore

/-- The call of the store that a step of the system makes, if it makes one. -/
def storeEntry : SystemEntry E ι → Option (memoryClaims.StoreEntry ι)
  | ⟨s, (i, .Engine (.Begin op opts)), .ok out, s'⟩ => some ⟨s, (i, .Begin op opts), out, s'⟩
  | ⟨s, (i, .Engine (.Complete op fence payload now)), .ok out, s'⟩ =>
      some ⟨s, (i, .Complete op fence payload now), out, s'⟩
  | ⟨s, (i, .Engine (.Abandon op fence)), .ok out, s'⟩ => some ⟨s, (i, .Abandon op fence), out, s'⟩
  | ⟨s, (i, .Purge now), n, s'⟩ => some ⟨s, (i, .Purge now), n, s'⟩
  | _ => none

/-- The run of the store inside a run of the system. -/
def storeView (h : List (SystemEntry E ι)) : List (memoryClaims.StoreEntry ι) :=
  h.filterMap storeEntry

/-! ## What a task has done so far -/

instance (c : EngineCall E) : Nonempty (EngineReply E c) := by
  cases c with
  | Begin op opts => exact ⟨.ok (.Acquired 0)⟩
  | Complete op fence payload now => exact ⟨.ok .Ok⟩
  | Abandon op fence => exact ⟨.ok .Ok⟩
  | Clock => exact ⟨0⟩
  | Run fence => exact ⟨.ok ⟨.Http, none, none, none, none, none⟩⟩
  | StoreResult result => exact ⟨.ok true⟩
  | Hook call => exact ⟨.ok ()⟩
  | CountHookError => exact ⟨()⟩

/-- A call the engine is about to make stands in one of the paths, after the calls it has made. -/
lemma path_of_steps {op : Operation} {cfg : PolicyConfig} {t : List (EngineEvent E)}
    {c : EngineCall E} {k : EngineReply E c → EngineProg E (Except E (ExecuteResult E))}
    (h : Steps (executeCalls op cfg) t (Prog.Call c k)) (hc : c.shown = true)
    (r : EngineReply E c) : ∃ t' out,
      Path op cfg (visible EngineCall.shown t ++ ⟨c, r⟩ :: t') out := by
  obtain ⟨t', out, hrun⟩ := (h.snoc r).exists_runs
  have hpath := execute_path hrun
  rw [visible_append, visible_append, visible_cons hc, visible_nil, List.append_assoc,
    List.singleton_append] at hpath
  exact ⟨_, out, hpath⟩

/-- The engine begins its own operation. -/
lemma steps_begin {op op' : Operation} {cfg : PolicyConfig} {t : List (EngineEvent E)}
    {opts : BeginOptions} {k : _ → EngineProg E (Except E (ExecuteResult E))}
    (h : Steps (executeCalls op cfg) t (Prog.Call (.Begin op' opts) k)) : op' = op := by
  obtain ⟨t', out, hpath⟩ := path_of_steps h rfl (.ok (.Acquired 0))
  generalize hseen : visible EngineCall.shown t ++ ⟨.Begin op' opts, .ok (.Acquired 0)⟩ :: t' = seen
    at hpath
  have hmem : ⟨.Begin op' opts, .ok (.Acquired 0)⟩ ∈ seen := by simp [← hseen]
  cases hpath <;> simp_all [opening]

/-- The engine completes its own operation, with the fence it was granted. -/
lemma steps_complete {op op' : Operation} {cfg : PolicyConfig} {t : List (EngineEvent E)}
    {fence : ℤ} {payload : Completion} {now : ℤ}
    {k : _ → EngineProg E (Except E (ExecuteResult E))}
    (h : Steps (executeCalls op cfg) t (Prog.Call (.Complete op' fence payload now) k)) :
    op' = op ∧ Acquired t op fence := by
  obtain ⟨t', out, hpath⟩ := path_of_steps h rfl (.ok .Ok)
  rw [← acquired_shown]
  exact hpath.complete_under_claim rfl

/-! ## The run of the store -/

lemma storeView_append (h h' : List (SystemEntry E ι)) :
    storeView (h ++ h') = storeView h ++ storeView h' :=
  List.filterMap_append ..

/-- A call the task is about to make is a call its engine is about to make. -/
lemma engine_of_program {task : Task} {t : List (Event (SystemCall E) (SystemReply E))}
    {c : EngineCall E} {k : EngineReply E c → Prog (SystemCall E) (SystemReply E) _}
    (h : Steps (task.program (E := E)) t (Prog.Call (.Engine c) k)) :
    ∃ cfg t₀ k₀, task = .Execute task.op cfg
      ∧ Steps (executeCalls task.op cfg) t₀ (Prog.Call c k₀)
      ∧ t = t₀.map (Event.embed SystemCall.Engine) := by
  cases task with
  | Execute op cfg =>
      obtain ⟨t₀, q₀, hsteps, hq, ht⟩ := Steps.of_embed h
      cases q₀ with
      | Ret out => cases hq
      | Call c₀ k₀ =>
          simp only [Prog.embed, Prog.Call.injEq, SystemCall.Engine.injEq] at hq
          obtain ⟨rfl, -⟩ := hq
          exact ⟨cfg, t₀, k₀, rfl, hsteps, ht⟩
  | Purge now =>
      cases h with
      | call r h => cases h

/-- A step that is no store call leaves the run of the store as it is. -/
lemma ownRun_aside {opOf : ι → Operation} {h : List (memoryClaims.StoreEntry ι)} {s : MemoryStore}
    (hh : memoryClaims.OwnRun opOf MemoryStore.empty h s) {e : SystemEntry E ι}
    (he : storeEntry e = none) :
    memoryClaims.OwnRun opOf MemoryStore.empty (h ++ storeView [e]) s := by
  rwa [storeView, List.filterMap_cons_none he, List.filterMap_nil, List.append_nil]

variable [DecidableEq ι]

/-- A step of the engine that a task has recorded is in the history of the system. -/
lemma mem_history_of_trace {i : ι} {h : List (SystemEntry E ι)} {t₀ : List (EngineEvent E)}
    (ht : traceOf i h = t₀.map (Event.embed SystemCall.Engine)) {c : EngineCall E}
    {r : EngineReply E c} (hmem : ⟨c, r⟩ ∈ t₀) :
    ∃ s s', (⟨s, (i, .Engine c), r, s'⟩ : SystemEntry E ι) ∈ h := by
  have hev : Event.embed SystemCall.Engine (⟨c, r⟩ : EngineEvent E) ∈ traceOf i h := by
    rw [ht]
    exact List.mem_map_of_mem hmem
  obtain ⟨⟨s, ⟨j, c'⟩, r', s'⟩, he, rfl, hevent⟩ := mem_traceOf.mp hev
  simp only [Entry.event, Event.embed, Sigma.mk.injEq] at hevent
  obtain ⟨rfl, hr⟩ := hevent
  obtain rfl := eq_of_heq hr
  exact ⟨s, s', he⟩

/-- The promise a step of the system makes: a `complete` of an engine whose row was deleted finds no
live row under its fence number. -/
def SystemGuard (h : List (SystemEntry E ι)) (s : MemoryStore) (p : ι × SystemCall E) : Prop :=
  match p.2 with
  | .Engine (.Complete op fence payload now) =>
      memoryClaims.CompletesOwn (storeView h) s p.1 (.Complete op fence payload now)
  | _ => True

/-- The interleavings of the tasks in which every `complete` keeps that promise. -/
abbrev SystemRun (tasks : ι → Task)
    (cfg : Config ι (SystemCall E) (SystemReply E) (Option (Except E (ExecuteResult E)))
      MemoryStore) : Prop :=
  Interleave SystemGuard memoryObj MemoryStore.empty (fun i => (tasks i).program) cfg

/-- **The store calls of a system are a run of the store whose callers act on their own operation and
complete only what they were granted.** -/
theorem system_storeRun {tasks : ι → Task}
    {cfg : Config ι (SystemCall E) (SystemReply E) (Option (Except E (ExecuteResult E))) MemoryStore}
    (h : SystemRun tasks cfg) :
    memoryClaims.OwnRun (fun i => (tasks i).op) MemoryStore.empty (storeView cfg.history)
      cfg.state := by
  induction h with
  | start => exact History.start
  | @step cfg i c k r s' hrun hpool hguard hobj ih =>
      rw [storeView_append]
      have hsteps := hrun.steps i
      rw [hpool] at hsteps
      cases c with
      | Purge now =>
          obtain ⟨rfl, rfl⟩ := Prod.mk.inj hobj
          exact ih.snoc i (.Purge now) trivial trivial
      | Engine c =>
          obtain ⟨config, t₀, k₀, -, hengine, htrace⟩ := engine_of_program hsteps
          cases c with
          | Begin op opts =>
              obtain ⟨rfl, rfl⟩ := hobj
              exact ih.snoc i (.Begin op opts) (steps_begin hengine) trivial
          | Complete op fence payload now =>
              obtain ⟨rfl, rfl⟩ := hobj
              refine ih.snoc i (.Complete op fence payload now) ?_ hguard
              obtain ⟨rfl, opts, hacquired⟩ := steps_complete hengine
              obtain ⟨s₁, s₂, hmem⟩ := mem_history_of_trace htrace hacquired
              refine ⟨rfl, ⟨s₁, (i, .Begin (tasks i).op opts), .Acquired fence, s₂⟩, ?_, rfl, ?_⟩
              · exact List.mem_filterMap.mpr ⟨_, hmem, rfl⟩
              · exact ClaimStore.grantedAt_eq_some.mpr ⟨_, opts, rfl, rfl⟩
          | Abandon op fence =>
              obtain ⟨rfl, rfl⟩ := hobj
              exact ih.snoc i (.Abandon op fence) trivial trivial
          | Clock =>
              obtain rfl : s' = cfg.state := hobj
              exact ownRun_aside ih rfl
          | Run fence =>
              obtain rfl : s' = cfg.state := hobj
              exact ownRun_aside ih rfl
          | StoreResult result =>
              obtain rfl : s' = cfg.state := hobj
              exact ownRun_aside ih rfl
          | Hook call =>
              obtain rfl : s' = cfg.state := hobj
              exact ownRun_aside ih rfl
          | CountHookError =>
              obtain rfl : s' = cfg.state := hobj
              exact ownRun_aside ih rfl

end

end Anyonce
