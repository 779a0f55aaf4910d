import Anyonce.Sql.Refinement

/-!
# Stores that keep one value under one key

A store that keeps a record as one value under one composed key (a Redis hash, a DynamoDB item)
mirrors the memory store when each value holds the row of the record at the same operation.  What the
composed keys have to satisfy is `Addressing`; then a cell written in both stores keeps the mirror
(`CellMirrors.write`), whatever the values are.
-/

namespace Anyonce

open Relational

/-- What a composed key has to satisfy at the operations a store admits: it is made of the scope and
the key, different pairs have different ones, and the memory store keeps them apart too. -/
structure Addressing (admits : Operation → Prop) (addr : Operation → JsString) : Prop where
  keyClean : ∀ op, admits op → 0x00 ∉ op.key
  congr : ∀ op op', op.scope = op'.scope → op.key = op'.key → addr op = addr op'
  inj : ∀ op op', admits op → admits op' → addr op = addr op' →
    op.scope = op'.scope ∧ op.key = op'.key

/-- Each value holds the row of the record at the same operation. -/
structure CellMirrors {V : Type} (admits : Operation → Prop) (addr : Operation → JsString)
    (holds : V → RecordRow JsString → Prop) (m : MemoryStore) (get : JsString → Option V) : Prop where
  cells : ∀ op, admits op → Option.Rel holds (get (addr op)) (m.rowAt op)
  keyed : ∀ op record, admits op → m.cell op = some record →
    record.scope = op.scope ∧ record.key = op.key
  storable : ∀ op record, admits op → m.cell op = some record → record.Storable

section

variable {V : Type} {admits : Operation → Prop} {addr : Operation → JsString}
variable {holds : V → RecordRow JsString → Prop} {m : MemoryStore} {get : JsString → Option V}

/-- The memory store with a cell written, seen at an operation: the written cell, or the old one. -/
lemma Addressing.cell_cases (ha : Addressing admits addr) (m : MemoryStore) {op op' : Operation}
    (hop : admits op) (hop' : admits op') (cell : Option IdempotencyRecord) :
    (op'.scope = op.scope ∧ op'.key = op.key ∧ (m.withCell op cell).cell op' = cell)
      ∨ (addr op' ≠ addr op ∧ (m.withCell op cell).cell op' = m.cell op') := by
  by_cases hsame : op'.scope = op.scope ∧ op'.key = op.key
  · refine Or.inl ⟨hsame.1, hsame.2, ?_⟩
    rw [MemoryStore.cell, OrderedMap.get_setCell, hsame.1, hsame.2, if_pos rfl]
  · refine Or.inr ⟨fun heq => hsame (ha.inj op' op hop' hop heq), ?_⟩
    rw [MemoryStore.cell, OrderedMap.get_setCell, if_neg]
    exact fun heq => hsame (mapKey_inj (ha.keyClean op' hop') (ha.keyClean op hop) heq)

lemma cellMirrors_empty : CellMirrors admits addr holds MemoryStore.empty fun _ => none where
  cells _ _ := Option.Rel.none
  keyed _ _ _ h := nomatch h
  storable _ _ _ h := nomatch h

namespace CellMirrors

variable (h : CellMirrors admits addr holds m get)

include h

/-- **A cell written in both stores**, to the record and to the value that holds its row. -/
theorem write (ha : Addressing admits addr) {op : Operation} (hop : admits op)
    {cell : Option IdempotencyRecord} {value : Option V}
    (hholds : Option.Rel holds value (cell.map recordToRow))
    (hcell : ∀ record, cell = some record →
      (record.scope = op.scope ∧ record.key = op.key) ∧ record.Storable)
    {get' : JsString → Option V}
    (hget' : ∀ k, get' k = if k = addr op then value else get k) :
    CellMirrors admits addr holds (m.withCell op cell) get' := by
  constructor
  · intro op' hop'
    rcases ha.cell_cases m hop hop' cell with ⟨hscope, hkey, hm⟩ | ⟨hne, hm⟩
    · rw [MemoryStore.rowAt, hm, hget', if_pos (ha.congr op' op hscope hkey)]
      exact hholds
    · rw [MemoryStore.rowAt, hm, hget', if_neg hne]
      exact h.cells op' hop'
  · intro op' record hop' hrecord
    rcases ha.cell_cases m hop hop' cell with ⟨hscope, hkey, hm⟩ | ⟨-, hm⟩
    · rw [hm] at hrecord
      rw [hscope, hkey]
      exact (hcell record hrecord).1
    · exact h.keyed op' record hop' (hm ▸ hrecord)
  · intro op' record hop' hrecord
    rcases ha.cell_cases m hop hop' cell with ⟨-, -, hm⟩ | ⟨-, hm⟩
    · rw [hm] at hrecord
      exact (hcell record hrecord).2
    · exact h.storable op' record hop' (hm ▸ hrecord)

/-- The row found at an operation is the one of that operation. -/
lemma row_keyed {op : Operation} (hop : admits op) {row : RecordRow JsString}
    (hrow : m.rowAt op = some row) : row.scope = op.scope ∧ row.key = op.key := by
  obtain ⟨record, hcell, rfl⟩ := Option.map_eq_some_iff.mp hrow
  exact h.keyed op record hop hcell

end CellMirrors

end

end Anyonce
