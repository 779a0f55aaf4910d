import Anyonce.Go.Memory
import Anyonce.Go.Queue
import Anyonce.Store.Memory

/-!
# No message is acknowledged unprocessed

Any number of deliveries and purges of the queue door, interleaved over one memory store, in each of
the two languages.  Every store call is one atomic step that may fail, before its effect or after it;
clocks, handlers and hooks may answer anything, so leases and TTLs run out at any point.

A delivery that returns without an error is acknowledged.  Its own replies justify it by its contract
(`idempotent_meets`, `wrap_meets`), and notes that justify are evidence (`Discipline.evidence`).

* `acknowledged_only_processed` — of every such run, in both languages.
-/

namespace Anyonce

open Interaction

/-- A store call that may fail, before its effect or after it. -/
def Faulty {E X σ : Type} (s : σ) (call : X × σ) (r : Except E X) (s' : σ) : Prop :=
  (r = .ok call.1 ∧ s' = call.2) ∨ ((∃ e, r = .error e) ∧ (s' = s ∨ s' = call.2))

lemma Faulty.effect {E X σ : Type} {s s' : σ} {call : X × σ} {r : Except E X}
    (h : Faulty s call r s') : s' = s ∨ s' = call.2 := by
  rcases h with ⟨-, h⟩ | ⟨-, h⟩
  · exact .inr h
  · exact h

lemma Faulty.truthful {E X σ : Type} {s s' : σ} {call : X × σ} {x : X}
    (h : Faulty (E := E) s call (.ok x) s') : call.1 = x := by
  rcases h with ⟨h, -⟩ | ⟨⟨e, h⟩, -⟩
  · exact (Except.ok.inj h).symm
  · cases h

/-- A computation that goes well, goes well up to its last part. -/
lemma ok_of_bind {ε α β : Type} {x : Except ε α} {f : α → Except ε β} {b : β}
    (h : (x >>= f) = .ok b) : ∃ a, x = .ok a ∧ f a = .ok b := by
  cases x with
  | error e => cases h
  | ok a => exact ⟨a, rfl, h⟩

lemma ok_of_toOption {ε α : Type} {x : Except ε α} {a : α} (h : x.toOption = some a) : x = .ok a := by
  cases x with
  | error e => cases h
  | ok a' => exact congrArg _ (Option.some.inj h)

/-! ## TypeScript -/

section

variable {E ι : Type}

/-- A delivery of a message by a wrapper, or a purge. -/
inductive QueueTask (E : Type)
  | Deliver (options : IdempotentOptions) (message : QueueMessage E)
  | Purge (now : ℤ)

/-- The operation of a task, when it has one. -/
def QueueTask.op : QueueTask E → Option Operation
  | .Deliver _ message => (messageOperation message).toOption
  | .Purge _ => none

/-- The program of a task; a purge returns `none`. -/
def QueueTask.program : QueueTask E → QueueProg E (Option (Except (QueueError E) Unit))
  | .Deliver options message => idempotent options message >>= fun out => Prog.Ret (some out)
  | .Purge now => Prog.Call (.Purge now) fun _ => Prog.Ret none

/-- One step of the memory store: its calls may fail, everything else leaves it alone. -/
def queueObj (s : MemoryStore) :
    (p : ι × QueueCall E) → Tagged ι (QueueReply E) p → MemoryStore → Prop
  | (_, .Begin op opts), r, s' => Faulty s (s.begin op opts) r s'
  | (_, .Complete op fence payload now), r, s' => Faulty s (s.complete op fence payload now) r s'
  | (_, .Abandon op fence), r, s' => Faulty s (s.abandon op fence) r s'
  | (_, .Purge now), r, s' => Faulty s (s.purge now) r s'
  | (_, .Untranslated), _, s' => s' = s
  | (_, .Warn), _, s' => s' = s
  | (_, .Clock), _, s' => s' = s
  | (_, .Handle), _, s' => s' = s
  | (_, .Hook _), _, s' => s' = s
  | (_, .SetPending _ _), _, s' => s' = s

/-- The store call a command makes. -/
def QueueCall.storeCall : QueueCall E → Option (StoreCall Operation BeginOptions Completion)
  | .Begin op opts => some (.Begin op opts)
  | .Complete op fence payload now => some (.Complete op fence payload now)
  | .Abandon op fence => some (.Abandon op fence)
  | .Purge now => some (.Purge now)
  | _ => none

/-- A `begin` that was answered `completed`. -/
lemma queueMark_replayed {ev : QueueEvent E} (h : queueMark ev = some .Replayed) :
    ∃ op opts record, ev = ⟨.Begin op opts, .ok (.Completed record)⟩ := by
  unfold queueMark at h
  split at h
  · cases h
  · cases h
  · exact ⟨_, _, _, rfl⟩
  · cases h

/-- A handler that returned. -/
lemma queueMark_succeeded {ev : QueueEvent E} (h : queueMark ev = some .Succeeded) :
    ev = ⟨.Handle, .ok ()⟩ := by
  unfold queueMark at h
  split at h
  · rfl
  · cases h
  · cases h
  · cases h

/-- The commands of the deliveries, over the memory store. -/
def queueUsage : Usage memoryClaims ι (QueueCall E) (QueueReply E) where
  obj := queueObj
  storeCall := QueueCall.storeCall
  replays ev := queueMark ev = some .Replayed
  effect {s p r s'} h := by
    obtain ⟨i, c⟩ := p
    cases c with
    | Begin op opts => exact (Faulty.effect h).imp_right fun h => ⟨_, rfl, h⟩
    | Complete op fence payload now => exact (Faulty.effect h).imp_right fun h => ⟨_, rfl, h⟩
    | Abandon op fence => exact (Faulty.effect h).imp_right fun h => ⟨_, rfl, h⟩
    | Purge now => exact (Faulty.effect h).imp_right fun h => ⟨_, rfl, h⟩
    | Untranslated => exact .inl h
    | Warn => exact .inl h
    | Clock => exact .inl h
    | Handle => exact .inl h
    | Hook call => exact .inl h
    | SetPending leaseUntil delayMs => exact .inl h
  truthful {s p r s'} h hmark op o hcall := by
    obtain ⟨i, c⟩ := p
    obtain ⟨op', opts, record, hev⟩ := queueMark_replayed hmark
    obtain rfl : c = .Begin op' opts := congrArg Sigma.fst hev
    cases hcall
    obtain rfl : r = .ok (.Completed record) := eq_of_heq (Sigma.mk.inj hev).2
    exact ⟨record, Faulty.truthful h⟩

variable (tasks : ι → QueueTask E)

/-- Deliveries keep to their contracts. -/
def queueDiscipline : Discipline (queueUsage (E := E)) fun i => (tasks i).op where
  mark := queueMark
  contract i := deliveryContract (tasks i).op
  note_eq _ _ _ := rfl
  begins {i t c op o} hasks hcall := by
    cases c with
    | Begin op' opts =>
        cases hcall
        exact hasks
    | _ => cases hcall
  completes {i t c op f p now} hasks hcall := by
    cases c with
    | Complete op' fence payload now' =>
        cases hcall
        exact hasks
    | _ => cases hcall
  succeeds {i t c r} hasks hmark := by
    obtain rfl : c = .Handle := congrArg Sigma.fst (queueMark_succeeded hmark)
    exact Option.isSome_iff_exists.mp hasks
  replays {ev} hmark := by
    obtain ⟨op, opts, record, rfl⟩ := queueMark_replayed hmark
    exact ⟨hmark, op, opts, rfl⟩

variable {tasks} [DecidableEq ι]

/-- A state of the system. -/
abbrev QueueConfig (E ι : Type) : Type :=
  Config ι (QueueCall E) (QueueReply E) (Option (Except (QueueError E) Unit)) MemoryStore

/-- The interleavings of the tasks, with store calls that fail now and then. -/
abbrev QueueRun (tasks : ι → QueueTask E) (cfg : QueueConfig E ι) : Prop :=
  Interleave (fun _ _ _ => True) queueObj MemoryStore.empty (fun i => (tasks i).program) cfg

/-- Some handler invocation of that identity has returned successfully. -/
def Processed (tasks : ι → QueueTask E) (cfg : QueueConfig E ι) (op : Operation) : Prop :=
  ∃ e ∈ cfg.history, e.event = ⟨.Handle, .ok ()⟩
    ∧ ∃ op', (tasks e.cmd.1).op = some op' ∧ op'.scope = op.scope ∧ op'.key = op.key

/-- A delivery is acknowledged only with a reason, and it has none when its handler has failed. -/
structure AckedProcessed (tasks : ι → QueueTask E) (cfg : QueueConfig E ι) (i : ι) : Prop where
  processed : cfg.pool i = .Ret (some (.ok ())) → ∃ op, (tasks i).op = some op ∧ Processed tasks cfg op
  failed : (∃ thrown, ⟨.Handle, .error thrown⟩ ∈ traceOf i cfg.history) →
    cfg.pool i ≠ .Ret (some (.ok ()))

/-- The result of a task is justified by its notes. -/
def QueueTask.JustifiedBy (task : QueueTask E) (t : Notes)
    (out : Option (Except (QueueError E) Unit)) : Prop :=
  ∀ options message, task = .Deliver options message → ∀ result, out = some result →
    DeliveryJustified options t result

lemma QueueTask.program_meets (task : QueueTask E) :
    task.program.Meets (deliveryContract task.op) task.JustifiedBy Notes.empty := by
  cases task with
  | Purge now =>
      refine ⟨trivial, fun _ => ?_⟩
      intro options message htask
      cases htask
  | Deliver options message =>
      refine meets_bind_iff.mpr ((idempotent_meets options message).mono ?_)
      intro t out hout options' message' htask result hresult
      cases htask
      cases hresult
      exact hout

omit [DecidableEq ι] in
lemma key_of_op {task : QueueTask E} {op : Operation} (h : task.op = some op) :
    validateKey op.key = .Ok := by
  cases task with
  | Purge now => cases h
  | Deliver options message =>
      obtain ⟨scope, -, h⟩ := ok_of_bind (ok_of_toOption h)
      obtain ⟨key, hkey, h⟩ := ok_of_bind h
      obtain ⟨fingerprint, -, h⟩ := ok_of_bind h
      obtain ⟨identity, -, hvalid⟩ := ok_of_bind hkey
      obtain rfl := Except.ok.inj h
      cases hv : validateKey identity with
      | Fail reason =>
          rw [hv] at hvalid
          cases hvalid
      | Ok =>
          rw [hv] at hvalid
          obtain rfl : identity = key := Except.ok.inj hvalid
          exact hv

/-- **In TypeScript.** -/
lemma queue_acked_processed {cfg : QueueConfig E ι} (h : QueueRun tasks cfg) {i : ι}
    {options : IdempotentOptions} {message : QueueMessage E}
    (htask : tasks i = .Deliver options message) (hretry : options.onInFlight.getD .Retry = .Retry) :
    AckedProcessed tasks cfg i := by
  have hmeets : cfg.pool i = .Ret (some (.ok ())) →
      Justified ((queueDiscipline tasks).notes cfg i) := by
    intro hret
    have hpost := h.meets (K := fun i => (queueDiscipline tasks).contract i)
      (fun i => (tasks i).program_meets) i
    rw [hret] at hpost
    exact hpost options message htask _ rfl hretry rfl
  constructor
  · intro hret
    obtain ⟨op, hop, e, he, hmark, haddr⟩ := (queueDiscipline tasks).evidence
      (fun _ _ hrow => by cases hrow) (fun i => (tasks i).program_meets) h (hmeets hret)
    obtain ⟨op', hop', hkey⟩ := Option.map_eq_some_iff.mp haddr
    obtain ⟨hscope, hkey⟩ := mapKey_inj (not_mem_of_validateKey (key_of_op hop') (by decide))
      (not_mem_of_validateKey (key_of_op hop) (by decide)) hkey
    exact ⟨op, hop, e, he, queueMark_succeeded hmark, op', hop', hscope, hkey⟩
  · rintro ⟨thrown, hfailed⟩ hret
    have hnoted := ((queueDiscipline tasks).notes_iff cfg i .Failed).mpr ⟨_, hfailed, rfl⟩
    rw [(hmeets hret).2] at hnoted
    cases hnoted

end

/-! ## Go -/

namespace Go

section

variable {V ι : Type}

/-- A delivery of a message by a wrapper, or a purge. -/
inductive QueueTask
  | Deliver (options : QueueOptions) (message : QueueMessage)
  | Purge (now : ℤ)

/-- The operation of a task, when it has one. -/
def QueueTask.op : QueueTask → Option Operation
  | .Deliver options message => (options.operation message).toOption
  | .Purge _ => none

/-- The program of a task; a purge returns `none`. -/
def QueueTask.program : QueueTask → QueueProg V (Option (Except V (Option QueueError)))
  | .Deliver options message => wrap options message >>= fun out => Prog.Ret (some out)
  | .Purge now => Prog.Call (.Purge now) fun _ => Prog.Ret none

/-- One step of the memory store: its calls may fail, everything else leaves it alone. -/
def queueObj (s : MemoryStore) :
    (p : ι × QueueCall) → Tagged ι (QueueReply V) p → MemoryStore → Prop
  | (_, .Begin _ op opts), r, s' => Faulty s (s.beginLive op opts) r s'
  | (_, .Complete _ op fence payload now), r, s' =>
      Faulty s (s.completeLive op fence payload now) r s'
  | (_, .Abandon _ op fence), r, s' => Faulty s (s.abandonLive op fence) r s'
  | (_, .Purge now), r, s' => Faulty s (s.purgeLive now) r s'
  | (_, .Untranslated), _, s' => s' = s
  | (_, .Warn), _, s' => s' = s
  | (_, .CtxErr), _, s' => s' = s
  | (_, .Now), _, s' => s' = s
  | (_, .Handle), _, s' => s' = s
  | (_, .StoreResult _), _, s' => s' = s
  | (_, .Hook _), _, s' => s' = s
  | (_, .CountHookError), _, s' => s' = s
  | (_, .SetPending _ _), _, s' => s' = s

/-- The store call a command makes. -/
def QueueCall.storeCall : QueueCall → Option (StoreCall Operation BeginOptions StoredResult)
  | .Begin _ op opts => some (.Begin op opts)
  | .Complete _ op fence payload now => some (.Complete op fence payload now)
  | .Abandon _ op fence => some (.Abandon op fence)
  | .Purge now => some (.Purge now)
  | _ => none

/-- A `Begin` that was answered `completed`. -/
lemma queueMark_replayed {ev : QueueEvent V} (h : queueMark ev = some .Replayed) :
    ∃ ctx op opts record, ev = ⟨.Begin ctx op opts, .ok (.Completed record)⟩ := by
  unfold queueMark at h
  split at h
  · cases h
  · cases h
  · cases h
  · exact ⟨_, _, _, _, rfl⟩
  · cases h

/-- A handler that returned no error. -/
lemma queueMark_succeeded {ev : QueueEvent V} (h : queueMark ev = some .Succeeded) :
    ev = ⟨.Handle, .Returned none⟩ := by
  unfold queueMark at h
  split at h
  · rfl
  · cases h
  · cases h
  · cases h
  · cases h

/-- The commands of the deliveries, over the memory store. -/
def queueUsage : Usage memoryClaims ι QueueCall (QueueReply V) where
  obj := queueObj
  storeCall := QueueCall.storeCall
  replays ev := queueMark ev = some .Replayed
  effect {s p r s'} h := by
    obtain ⟨i, c⟩ := p
    cases c with
    | Begin ctx op opts => exact (Faulty.effect h).imp_right fun h => ⟨_, rfl, h⟩
    | Complete ctx op fence payload now => exact (Faulty.effect h).imp_right fun h => ⟨_, rfl, h⟩
    | Abandon ctx op fence => exact (Faulty.effect h).imp_right fun h => ⟨_, rfl, h⟩
    | Purge now => exact (Faulty.effect h).imp_right fun h => ⟨_, rfl, h⟩
    | Untranslated => exact .inl h
    | Warn => exact .inl h
    | CtxErr => exact .inl h
    | Now => exact .inl h
    | Handle => exact .inl h
    | StoreResult result => exact .inl h
    | Hook call => exact .inl h
    | CountHookError => exact .inl h
    | SetPending leaseUntil delayMs => exact .inl h
  truthful {s p r s'} h hmark op o hcall := by
    obtain ⟨i, c⟩ := p
    obtain ⟨ctx, op', opts, record, hev⟩ := queueMark_replayed hmark
    obtain rfl : c = .Begin ctx op' opts := congrArg Sigma.fst hev
    cases hcall
    obtain rfl : r = .ok (.Completed record) := eq_of_heq (Sigma.mk.inj hev).2
    exact ⟨record, Faulty.truthful h⟩

variable (tasks : ι → QueueTask)

/-- Deliveries keep to their contracts. -/
def queueDiscipline : Discipline (queueUsage (V := V)) fun i => (tasks i).op where
  mark := queueMark
  contract i := deliveryContract (tasks i).op
  note_eq _ _ _ := rfl
  begins {i t c op o} hasks hcall := by
    cases c with
    | Begin ctx op' opts =>
        cases hcall
        exact hasks
    | _ => cases hcall
  completes {i t c op f p now} hasks hcall := by
    cases c with
    | Complete ctx op' fence payload now' =>
        cases hcall
        exact hasks
    | _ => cases hcall
  succeeds {i t c r} hasks hmark := by
    obtain rfl : c = .Handle := congrArg Sigma.fst (queueMark_succeeded hmark)
    exact Option.isSome_iff_exists.mp hasks
  replays {ev} hmark := by
    obtain ⟨ctx, op, opts, record, rfl⟩ := queueMark_replayed hmark
    exact ⟨hmark, op, opts, rfl⟩

variable {tasks} [DecidableEq ι]

/-- A state of the system. -/
abbrev QueueConfig (V ι : Type) : Type :=
  Config ι QueueCall (QueueReply V) (Option (Except V (Option QueueError))) MemoryStore

/-- The interleavings of the tasks, with store calls that fail now and then. -/
abbrev QueueRun (tasks : ι → QueueTask) (cfg : QueueConfig V ι) : Prop :=
  Interleave (fun _ _ _ => True) queueObj MemoryStore.empty (fun i => (tasks i).program) cfg

/-- Some handler invocation of that identity has returned no error. -/
def Processed (tasks : ι → QueueTask) (cfg : QueueConfig V ι) (op : Operation) : Prop :=
  ∃ e ∈ cfg.history, e.event = ⟨.Handle, .Returned none⟩
    ∧ ∃ op', (tasks e.cmd.1).op = some op' ∧ op'.scope = op.scope ∧ op'.key = op.key

/-- A delivery is acknowledged only with a reason, and it has none when its handler has failed or
panicked. -/
structure AckedProcessed (tasks : ι → QueueTask) (cfg : QueueConfig V ι) (i : ι) : Prop where
  processed : cfg.pool i = .Ret (some (.ok none)) → ∃ op, (tasks i).op = some op ∧ Processed tasks cfg op
  failed : (∃ err, ⟨.Handle, .Returned (some err)⟩ ∈ traceOf i cfg.history) →
    cfg.pool i ≠ .Ret (some (.ok none))
  panicked : (∃ p, ⟨.Handle, .Panicked p⟩ ∈ traceOf i cfg.history) →
    cfg.pool i ≠ .Ret (some (.ok none))

/-- The result of a task is justified by its notes. -/
def QueueTask.JustifiedBy (task : QueueTask) (t : Notes)
    (out : Option (Except V (Option QueueError))) : Prop :=
  ∀ options message, task = .Deliver options message → ∀ result, out = some result →
    DeliveryJustified options t result

lemma QueueTask.program_meets (task : QueueTask) :
    (task.program (V := V)).Meets (deliveryContract task.op) task.JustifiedBy Notes.empty := by
  cases task with
  | Purge now =>
      refine ⟨trivial, fun _ => ?_⟩
      intro options message htask
      cases htask
  | Deliver options message =>
      refine meets_bind_iff.mpr ((wrap_meets options message).mono ?_)
      intro t out hout options' message' htask result hresult
      cases htask
      cases hresult
      exact hout

omit [DecidableEq ι] in
lemma key_of_op {task : QueueTask} {op : Operation} (h : task.op = some op) :
    validateKey op.key false = .ok () := by
  cases task with
  | Purge now => cases h
  | Deliver options message =>
      obtain ⟨u, -, h⟩ := ok_of_bind (ok_of_toOption h)
      obtain ⟨scope, -, h⟩ := ok_of_bind h
      obtain ⟨key, hkey, h⟩ := ok_of_bind h
      obtain ⟨fingerprint, -, h⟩ := ok_of_bind h
      obtain ⟨identity, -, hvalid⟩ := ok_of_bind hkey
      obtain rfl := Except.ok.inj h
      cases hv : validateKey identity false with
      | error reason =>
          rw [hv] at hvalid
          cases hvalid
      | ok u =>
          rw [hv] at hvalid
          obtain rfl : identity = key := Except.ok.inj hvalid
          exact hv

/-- **In Go.** -/
lemma queue_acked_processed {cfg : QueueConfig V ι} (h : QueueRun tasks cfg) {i : ι}
    {options : QueueOptions} {message : QueueMessage}
    (htask : tasks i = .Deliver options message) (hretry : options.onInFlight = .Retry) :
    AckedProcessed tasks cfg i := by
  have hmeets : cfg.pool i = .Ret (some (.ok none)) →
      Justified ((queueDiscipline tasks).notes cfg i) := by
    intro hret
    have hpost := h.meets (K := fun i => (queueDiscipline tasks).contract i)
      (fun i => (tasks i).program_meets) i
    rw [hret] at hpost
    exact hpost options message htask _ rfl hretry rfl
  have hnoted : ∀ ev ∈ traceOf i cfg.history, queueMark ev = some .Failed →
      cfg.pool i ≠ .Ret (some (.ok none)) := by
    intro ev hev hmark hret
    have hfailed := ((queueDiscipline tasks).notes_iff cfg i .Failed).mpr ⟨ev, hev, hmark⟩
    rw [(hmeets hret).2] at hfailed
    cases hfailed
  constructor
  · intro hret
    obtain ⟨op, hop, e, he, hmark, haddr⟩ := (queueDiscipline tasks).evidence
      (fun _ _ hrow => by cases hrow) (fun i => (tasks i).program_meets) h (hmeets hret)
    obtain ⟨op', hop', hkey⟩ := Option.map_eq_some_iff.mp haddr
    obtain ⟨hscope, hkey⟩ := append_separator_inj (zero_not_mem_of_validateKey (key_of_op hop'))
      (zero_not_mem_of_validateKey (key_of_op hop)) hkey
    exact ⟨op, hop, e, he, queueMark_succeeded hmark, op', hop', hscope, hkey⟩
  · rintro ⟨err, hfailed⟩
    exact hnoted _ hfailed rfl
  · rintro ⟨p, hpanicked⟩
    exact hnoted _ hpanicked rfl

end

end Go

/-! ## Both languages -/

/-- **No message is acknowledged unprocessed.**  In every run of any number of deliveries and purges,
whatever the handlers, clocks and hooks do and whichever store calls fail, with or without their effect:
a delivery in the mode `retry` returns without an error only when a handler invocation of its identity
has returned successfully, and never when its own handler has failed. -/
theorem acknowledged_only_processed {E V ι : Type} [DecidableEq ι] {tasks : ι → QueueTask E}
    {cfg : QueueConfig E ι} (h : QueueRun tasks cfg) {goTasks : ι → Go.QueueTask}
    {goCfg : Go.QueueConfig V ι} (hgo : Go.QueueRun goTasks goCfg) :
    (∀ i options message, tasks i = .Deliver options message →
        options.onInFlight.getD .Retry = .Retry → AckedProcessed tasks cfg i)
      ∧ ∀ i options message, goTasks i = .Deliver options message → options.onInFlight = .Retry →
        Go.AckedProcessed goTasks goCfg i :=
  ⟨fun _ _ _ htask hretry => queue_acked_processed h htask hretry,
    fun _ _ _ htask hretry => Go.queue_acked_processed hgo htask hretry⟩

/-- Deliveries of one message. -/
def redelivered : Bool → QueueTask Unit := fun _ => .Deliver {} ⟨.ok (js "q"), .ok (js "m1"), .ok (js "p")⟩

def Go.redelivered : Bool → Go.QueueTask := fun _ =>
  .Deliver {} ⟨.ok (ascii "q"), .ok (ascii "m1"), .ok (ascii "p")⟩

/-- The operation of both. -/
def Go.redeliveredOp : Go.Operation := ⟨ascii "q", ascii "m1", ascii "p"⟩

/-- A delivery is processed, the reply to its `complete` is lost, and its duplicate is acknowledged. -/
theorem acknowledged_only_processed_redelivered :
    ∃ cfg : QueueConfig Unit Bool, cfg.pool true = .Ret (some (.ok ()))
      ∧ AckedProcessed redelivered cfg true
      ∧ ∃ goCfg : Go.QueueConfig Unit Bool, goCfg.pool true = .Ret (some (.ok none))
        ∧ Go.AckedProcessed Go.redelivered goCfg true := by
  have h₀ : QueueRun redelivered _ := Interleave.start
  have h₁ := h₀.next false .Untranslated false rfl trivial rfl
  have h₂ := h₁.next false .Clock (0 : ℤ) rfl trivial rfl
  have h₃ := h₂.next false (.Begin ⟨js "q", js "m1", js "p"⟩ ⟨30000, 86400000, 0⟩) (.ok (.Acquired 1))
    rfl trivial (.inl ⟨rfl, rfl⟩)
  have h₄ := h₃.next false .Handle (.ok ()) rfl trivial rfl
  have h₅ := h₄.next false .Clock (1 : ℤ) rfl trivial rfl
  have h₆ := h₅.next false (.Complete ⟨js "q", js "m1", js "p"⟩ 1 (.Stored okResult) 1) (.error ()) rfl
    trivial (.inr ⟨⟨(), rfl⟩, .inr rfl⟩)
  have h₇ := h₆.next true .Untranslated false rfl trivial rfl
  have h₈ := h₇.next true .Clock (2 : ℤ) rfl trivial rfl
  have h₉ := h₈.next true (.Begin ⟨js "q", js "m1", js "p"⟩ ⟨30000, 86400000, 2⟩)
    (.ok (.Completed ⟨js "q", js "m1", js "p", .Completed, 1, 30000, 0, 86400000, some okResult, none⟩))
    rfl trivial (.inl ⟨rfl, rfl⟩)
  have g₀ : Go.QueueRun (V := Unit) Go.redelivered _ := Interleave.start
  have g₁ := g₀.next false .Untranslated false rfl trivial rfl
  have g₂ := g₁.next false .CtxErr none rfl trivial rfl
  have g₃ := g₂.next false .Now (0 : ℤ) rfl trivial rfl
  have g₄ := g₃.next false (.Begin .Caller Go.redeliveredOp ⟨30000000000, 86400000000000, 0⟩)
    (.ok (.Acquired 1)) rfl trivial (.inl ⟨rfl, rfl⟩)
  have g₅ := g₄.next false .Handle (.Returned none) rfl trivial rfl
  have g₆ := g₅.next false .CtxErr none rfl trivial rfl
  have g₇ := g₆.next false .Now (1 : ℤ) rfl trivial rfl
  have g₈ := g₇.next false (.Complete .Bookkeeping Go.redeliveredOp 1 Go.okResult 1)
    (.error (.HandlerFailed .Panicked)) rfl trivial (.inr ⟨⟨_, rfl⟩, .inr rfl⟩)
  have g₉ := g₈.next true .Untranslated false rfl trivial rfl
  have g₁₀ := g₉.next true .CtxErr none rfl trivial rfl
  have g₁₁ := g₁₀.next true .Now (2 : ℤ) rfl trivial rfl
  have g₁₂ := g₁₁.next true (.Begin .Caller Go.redeliveredOp ⟨30000000000, 86400000000000, 2⟩)
    (.ok (.Completed ⟨Go.ascii "q", Go.ascii "m1", Go.ascii "p", .Completed, 1, 30000000000, 0,
      86400000000000, some Go.okResult, false⟩)) rfl trivial (.inl ⟨rfl, rfl⟩)
  have hboth := acknowledged_only_processed h₉ g₁₂
  exact ⟨_, rfl, hboth.1 true _ _ rfl rfl, _, rfl, hboth.2 true _ _ rfl rfl⟩

end Anyonce
