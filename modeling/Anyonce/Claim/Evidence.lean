import Anyonce.Claim.Store
import Anyonce.Core.Contract

/-!
# What a completed row is evidence of

Programs share a store whose calls may fail, before their effect or after it.  When every program
completes an operation only after an event of its own, a success, then a completed row is evidence of a
success: `evidence_of_completed`.  Whatever leases and claims came and went in between, nothing but a
`complete` makes a row completed.

A `Usage` says how the commands of the programs act on the store.  A `Discipline` is a contract for each
program: it begins and completes its own operation only, and completes it only after a success.

* `Discipline.evidence` — in every interleaving of such programs, one that has had a success itself or
  has been told that its record is completed has evidence of a success at its address.
-/

namespace Anyonce

open Interaction

/-! ## Notes -/

/-- What matters of the replies a program gets: its work succeeded or failed, or had been completed. -/
inductive Mark
  | Succeeded
  | Failed
  | Replayed
  deriving DecidableEq

/-- The marks a program has noted. -/
abbrev Notes : Type := Mark → Bool

def Notes.empty : Notes := fun _ => false

def Notes.add (t : Notes) (mark : Option Mark) : Notes := fun m => mark = some m || t m

@[simp] lemma Notes.empty_apply (m : Mark) : Notes.empty m = false := rfl

-- true by computation, so that replies without a mark drop out of the notes by themselves
@[simp] lemma Notes.add_none (t : Notes) : t.add none = t := rfl

@[simp] lemma Notes.add_some (t : Notes) (mark m : Mark) :
    t.add (some mark) m = (decide (mark = m) || t m) := by
  simp [Notes.add]

/-- **A mark is noted exactly when one of the replies was marked so.** -/
lemma Notes.foldl_iff {Ev : Type} (mark : Ev → Option Mark) (evs : List Ev) (t : Notes) (m : Mark) :
    evs.foldl (fun t ev => t.add (mark ev)) t m = true ↔ t m = true ∨ ∃ ev ∈ evs, mark ev = some m := by
  induction evs generalizing t with
  | nil => simp
  | cons ev evs ih =>
      rw [List.foldl_cons, ih]
      simp [Notes.add, or_assoc, or_left_comm]

/-- Notes that justify a program in saying that its work is done. -/
def Justified (t : Notes) : Prop := (t .Succeeded = true ∨ t .Replayed = true) ∧ t .Failed = false

lemma justified_succeeded : Justified (Notes.empty.add (some .Succeeded)) := by
  constructor <;> simp

lemma justified_replayed : Justified (Notes.empty.add (some .Replayed)) := by
  constructor <;> simp

/-! ## The store -/

section

variable {F Op Opts Row P : Type} [DecidableEq F]
variable {M : ClaimModel F Op Opts Row P} {σ A : Type} [DecidableEq A]

namespace ClaimStore

variable {S : ClaimStore M σ A}

/-- **Only a `complete` at its address makes a row completed.** -/
lemma completed_step {s s' : σ} {a : A} {row : Row} {c : StoreCall Op Opts P} {r : StoreReply Row c}
    (h : S.apply s c = (r, s')) (hrow : S.lookup s' a = some row) (hstate : M.state row = .Completed) :
    (∃ row', S.lookup s a = some row' ∧ M.state row' = .Completed)
      ∨ ∃ op f p now, c = .Complete op f p now ∧ S.addr op = a := by
  have hcell := cell_step h a
  generalize hpost : S.lookup s' a = post at hcell hrow
  cases hcell with
  | keep c r hg => exact Or.inl ⟨row, hrow, hstate⟩
  | grant op o ha hc =>
      rw [← Option.some.inj hrow, M.state_fresh] at hstate
      cases hstate
  | finish op f p now row' ha hrow' hlive hf hs => exact Or.inr ⟨op, f, p, now, rfl, ha⟩
  | abandon op f row' ha hrow' hs hf => cases hrow
  | purge now n row' hrow' hdead => cases hrow
  | remove op ha => cases hrow

end ClaimStore

/-- How commands use a store: a step leaves the store alone or has the effect of its store call, and a
reply that says `completed` is the store's. -/
structure Usage (S : ClaimStore M σ A) (ι C : Type) (R : C → Type) where
  obj : σ → (p : ι × C) → Tagged ι R p → σ → Prop
  storeCall : C → Option (StoreCall Op Opts P)
  replays : Event C R → Prop
  effect : ∀ {s p r s'}, obj s p r s' →
    s' = s ∨ ∃ call, storeCall p.2 = some call ∧ s' = (S.apply s call).2
  truthful : ∀ {s p r s'}, obj s p r s' → replays ⟨p.2, r⟩ → ∀ {op o},
    storeCall p.2 = some (.Begin op o) → ∃ row, (S.begin s op o).1 = .Completed row

variable {S : ClaimStore M σ A} {ι C : Type} {R : C → Type} {α : Type} [DecidableEq ι]
variable (success : Event C R → Prop) (addrOf : ι → Option A)

/-- One of the programs at that address has had a success. -/
def Evidence (h : List (Entry (ι × C) (Tagged ι R) σ)) (a : A) : Prop :=
  ∃ e ∈ h, success e.event ∧ addrOf e.cmd.1 = some a

variable {success addrOf}

omit [DecidableEq A] [DecidableEq ι] in
lemma Evidence.later {h : List (Entry (ι × C) (Tagged ι R) σ)} {a : A}
    (hev : Evidence success addrOf h a) (h' : List (Entry (ι × C) (Tagged ι R) σ)) :
    Evidence success addrOf (h ++ h') a := by
  obtain ⟨e, he, hsucc, ha⟩ := hev
  exact ⟨e, List.mem_append_left h' he, hsucc, ha⟩

/-- **A completed row is evidence of a success**, and so is a reply that says there is one. -/
theorem evidence_of_completed (U : Usage S ι C R) {s₀ : σ} {start : ι → Prog C R α}
    (hempty : ∀ a row, S.lookup s₀ a = some row → M.state row ≠ .Completed)
    (hcomplete : ∀ {cfg : Config ι C R α σ} {i : ι} {c : C} {k : R c → Prog C R α},
      Interleave (fun _ _ _ => True) U.obj s₀ start cfg → cfg.pool i = .Call c k →
      ∀ {op f p now}, U.storeCall c = some (.Complete op f p now) →
        addrOf i = some (S.addr op) ∧ ∃ ev ∈ traceOf i cfg.history, success ev)
    {cfg : Config ι C R α σ} (h : Interleave (fun _ _ _ => True) U.obj s₀ start cfg) :
    (∀ a row, S.lookup cfg.state a = some row → M.state row = .Completed →
        Evidence success addrOf cfg.history a)
      ∧ ∀ e ∈ cfg.history, U.replays e.event → ∀ op o, U.storeCall e.cmd.2 = some (.Begin op o) →
        Evidence success addrOf cfg.history (S.addr op) := by
  induction h with
  | start => exact ⟨fun a row hrow hstate => absurd hstate (hempty a row hrow), by simp⟩
  | @step cfg i c k r s' hrun hpool _ hobj ih =>
      obtain ⟨hrows, hreplies⟩ := ih
      refine ⟨fun a row hrow hstate => ?_, fun e he hrep op o hcall => ?_⟩
      · rcases U.effect hobj with rfl | ⟨call, hcall, rfl⟩
        · exact (hrows a row hrow hstate).later _
        · have happly : S.apply cfg.state call = (_, (S.apply cfg.state call).2) := rfl
          rcases ClaimStore.completed_step happly hrow hstate with
            ⟨row', hrow', hstate'⟩ | ⟨op, f, p, now, rfl, ha⟩
          · exact (hrows a row' hrow' hstate').later _
          · obtain ⟨haddr, ev, hev, hsucc⟩ := hcomplete hrun hpool hcall
            obtain ⟨e, he, hi, rfl⟩ := mem_traceOf.mp hev
            exact Evidence.later ⟨e, he, hsucc, by rw [hi, haddr, ha]⟩ _
      · rcases List.mem_append.mp he with he | he
        · exact (hreplies e he hrep op o hcall).later _
        · obtain rfl := List.mem_singleton.mp he
          obtain ⟨row, hrow⟩ := U.truthful hobj hrep hcall
          rw [S.begin_reply] at hrow
          obtain ⟨hfound, hstate, -⟩ := ClaimModel.begin_completed hrow
          exact (hrows _ row hfound hstate).later _

/-- Programs that keep to their own operation, and complete it only after a success of their own. -/
structure Discipline (U : Usage S ι C R) (opOf : ι → Option Op) where
  mark : Event C R → Option Mark
  contract : ι → Contract C R Notes
  note_eq : ∀ i t ev, (contract i).note t ev = t.add (mark ev)
  begins : ∀ {i t c op o}, (contract i).asks t c → U.storeCall c = some (.Begin op o) →
    opOf i = some op
  completes : ∀ {i t c op f p now}, (contract i).asks t c →
    U.storeCall c = some (.Complete op f p now) → opOf i = some op ∧ t .Succeeded = true
  succeeds : ∀ {i t c r}, (contract i).asks t c → mark ⟨c, r⟩ = some .Succeeded →
    ∃ op, opOf i = some op
  replays : ∀ {ev}, mark ev = some .Replayed →
    U.replays ev ∧ ∃ op o, U.storeCall ev.1 = some (.Begin op o)

namespace Discipline

variable {U : Usage S ι C R} {opOf : ι → Option Op} (D : Discipline U opOf)

/-- What a program has noted of its own past. -/
def notes (cfg : Config ι C R α σ) (i : ι) : Notes :=
  (traceOf i cfg.history).foldl (D.contract i).note Notes.empty

lemma notes_iff (cfg : Config ι C R α σ) (i : ι) (m : Mark) :
    D.notes cfg i m = true ↔ ∃ ev ∈ traceOf i cfg.history, D.mark ev = some m := by
  have hnote : (D.contract i).note = fun t ev => t.add (D.mark ev) :=
    funext fun t => funext fun ev => D.note_eq i t ev
  rw [notes, hnote, Notes.foldl_iff]
  simp

/-- The events that are evidence. -/
abbrev Done (h : List (Entry (ι × C) (Tagged ι R) σ)) (a : A) : Prop :=
  Evidence (fun ev => D.mark ev = some .Succeeded) (fun i => (opOf i).map S.addr) h a

/-- **Who is justified has evidence**, whatever the programs beside it and the store have done. -/
theorem evidence {s₀ : σ} {start : ι → Prog C R α} {post : ι → Notes → α → Prop}
    (hempty : ∀ a row, S.lookup s₀ a = some row → M.state row ≠ .Completed)
    (hstart : ∀ i, (start i).Meets (D.contract i) (post i) Notes.empty) {cfg : Config ι C R α σ}
    (h : Interleave (fun _ _ _ => True) U.obj s₀ start cfg) {i : ι}
    (hjustified : Justified (D.notes cfg i)) :
    ∃ op, opOf i = some op ∧ D.Done cfg.history (S.addr op) := by
  have hcomplete : ∀ {cfg : Config ι C R α σ} {i : ι} {c : C} {k : R c → Prog C R α},
      Interleave (fun _ _ _ => True) U.obj s₀ start cfg → cfg.pool i = .Call c k →
      ∀ {op f p now}, U.storeCall c = some (.Complete op f p now) →
        (opOf i).map S.addr = some (S.addr op)
          ∧ ∃ ev ∈ traceOf i cfg.history, D.mark ev = some .Succeeded := by
    intro cfg i c k hrun hpool op f p now hcall
    have hmeets := hrun.meets hstart i
    rw [hpool] at hmeets
    obtain ⟨hop, hsucceeded⟩ := D.completes hmeets.1 hcall
    exact ⟨by rw [hop]; rfl, (D.notes_iff cfg i _).mp hsucceeded⟩
  have hreplays : ∀ e ∈ cfg.history, U.replays e.event → ∀ op o,
      U.storeCall e.cmd.2 = some (.Begin op o) → D.Done cfg.history (S.addr op) :=
    (evidence_of_completed U hempty hcomplete h).2
  have hasks : ∀ ev ∈ traceOf i cfg.history, ∃ t, (D.contract i).asks t ev.1 :=
    (hstart i).asks (h.steps i)
  rcases hjustified.1 with hsucceeded | hreplayed
  · obtain ⟨ev, hev, hmark⟩ := (D.notes_iff cfg i _).mp hsucceeded
    obtain ⟨t, hcall⟩ := hasks ev hev
    obtain ⟨op, hop⟩ := D.succeeds hcall hmark
    obtain ⟨e, he, hi, rfl⟩ := mem_traceOf.mp hev
    refine ⟨op, hop, e, he, hmark, ?_⟩
    show (opOf e.cmd.1).map S.addr = some (S.addr op)
    rw [hi, hop]
    rfl
  · obtain ⟨ev, hev, hmark⟩ := (D.notes_iff cfg i _).mp hreplayed
    obtain ⟨hrep, op, o, hbegin⟩ := D.replays hmark
    obtain ⟨t, hcall⟩ := hasks ev hev
    obtain ⟨e, he, hi, rfl⟩ := mem_traceOf.mp hev
    exact ⟨op, D.begins hcall hbegin, hreplays e he hrep op o hbegin⟩

end Discipline

end

end Anyonce
