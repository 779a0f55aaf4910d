import Mathlib.Data.List.Nodup

/-!
# Keyed tables

A table is a list of rows no two of which have the same key.  It serves two purposes that differ
only in how they are written down: a relational table with a primary key, and an insertion-ordered
map (rows are pairs, the key is the first component).

Every operation keeps the key constraint, so a table with a duplicate key cannot be built:

* `put` writes a row over the one with its key, in place, or appends it;
* `remove` deletes the rows a condition selects;
* `modify` rewrites the rows a condition selects, without touching their keys.

What a reader of the table sees is `lookup`, and `lookup_put` and `lookup_remove`
say what these operations do to it.  `Table.putRows_map` is the one fact about two tables: if one
is the row-by-row image of the other, a `put` on both keeps it so.
-/

namespace Relational

/-- Rows with pairwise different keys. -/
structure Table {Row K : Type} (key : Row → K) where
  rows : List Row
  nodup : (rows.map key).Nodup

namespace Table

variable {Row K : Type} {key : Row → K}

@[ext] lemma ext {t t' : Table key} (h : t.rows = t'.rows) : t = t' := by
  cases t
  cases t'
  cases h
  rfl

/-- The table without rows. -/
def empty : Table key := ⟨[], List.nodup_nil⟩

@[simp] lemma empty_rows : (empty : Table key).rows = [] := rfl

/-- Delete the rows that satisfy `p`. -/
def remove (t : Table key) (p : Row → Bool) : Table key :=
  ⟨t.rows.filter fun r => !p r, (t.nodup.sublist (List.filter_sublist.map key))⟩

@[simp] lemma remove_rows (t : Table key) (p : Row → Bool) :
    (t.remove p).rows = t.rows.filter fun r => !p r := rfl

/-- Rewrite the rows that satisfy `p`; the rewriting may not touch the key. -/
def modify (t : Table key) (p : Row → Bool) (f : Row → Row) (hf : ∀ r, key (f r) = key r) :
    Table key where
  rows := t.rows.map fun r => if p r then f r else r
  nodup := by
    have h : (key ∘ fun r => if p r then f r else r) = key := by
      funext r
      by_cases hp : p r
      · simp [hp, hf]
      · simp [hp]
    rw [List.map_map, h]
    exact t.nodup

@[simp] lemma modify_rows (t : Table key) (p : Row → Bool) (f : Row → Row)
    (hf : ∀ r, key (f r) = key r) :
    (t.modify p f hf).rows = t.rows.map fun r => if p r then f r else r := rfl

variable [DecidableEq K]

/-- The row with key `k`, if there is one. -/
def lookup (t : Table key) (k : K) : Option Row := t.rows.find? fun r => key r = k

/-- The rows after writing `row`: over the row with its key, or at the end. -/
def putRows (key : Row → K) (rows : List Row) (row : Row) : List Row :=
  if rows.any fun r => key r = key row then
    rows.map fun r => if key r = key row then row else r
  else rows ++ [row]

/-- Write a row: in place of the one with its key, or at the end. -/
def put (t : Table key) (row : Row) : Table key where
  rows := putRows key t.rows row
  nodup := by
    unfold putRows
    split_ifs with h
    · have hk : (key ∘ fun r => if key r = key row then row else r) = key := by
        funext r
        by_cases hr : key r = key row
        · simp [hr]
        · simp [hr]
      rw [List.map_map, hk]
      exact t.nodup
    · rw [List.map_append, List.nodup_append]
      refine ⟨t.nodup, by simp, ?_⟩
      intro k hk k' hk' heq
      obtain ⟨r, hr, rfl⟩ := List.mem_map.mp hk
      simp only [List.map_cons, List.map_nil, List.mem_singleton] at hk'
      apply h
      rw [List.any_eq_true]
      exact ⟨r, hr, by simp [heq, hk']⟩

@[simp] lemma put_rows (t : Table key) (row : Row) :
    (t.put row).rows = putRows key t.rows row := rfl

/-! ## What `lookup` sees -/

@[simp] lemma lookup_empty (k : K) : (empty : Table key).lookup k = none := rfl

lemma mem_of_lookup {t : Table key} {k : K} {r : Row} (h : t.lookup k = some r) : r ∈ t.rows :=
  List.mem_of_find?_eq_some h

lemma key_of_lookup {t : Table key} {k : K} {r : Row} (h : t.lookup k = some r) : key r = k :=
  of_decide_eq_true (List.find?_some (p := fun r => decide (key r = k)) h)

/-- A row is found under its own key: the key constraint leaves no other candidate. -/
lemma lookup_of_mem {t : Table key} {r : Row} (hr : r ∈ t.rows) : t.lookup (key r) = some r := by
  obtain ⟨r', hr'⟩ : ∃ r', t.lookup (key r) = some r' := by
    rw [← Option.isSome_iff_exists, lookup, List.find?_isSome]
    exact ⟨r, hr, by simp⟩
  rw [hr', List.inj_on_of_nodup_map t.nodup (mem_of_lookup hr') hr (key_of_lookup hr')]

lemma lookup_eq_some_iff {t : Table key} {k : K} {r : Row} :
    t.lookup k = some r ↔ r ∈ t.rows ∧ key r = k :=
  ⟨fun h => ⟨mem_of_lookup h, key_of_lookup h⟩, fun ⟨hr, hk⟩ => hk ▸ lookup_of_mem hr⟩

/-- The key constraint makes the direction of the search irrelevant. -/
lemma find?_reverse (t : Table key) (k : K) :
    (t.rows.reverse.find? fun r => key r = k) = t.lookup k := by
  have hnodup : (t.rows.reverse.map key).Nodup := by
    rw [List.map_reverse, List.nodup_reverse]
    exact t.nodup
  show (⟨t.rows.reverse, hnodup⟩ : Table key).lookup k = t.lookup k
  ext r
  rw [lookup_eq_some_iff, lookup_eq_some_iff, List.mem_reverse]

/-- Deleting rows: a row is still found exactly when it was not selected. -/
lemma lookup_remove (t : Table key) (p : Row → Bool) (k : K) :
    (t.remove p).lookup k = (t.lookup k).filter fun r => !p r := by
  ext r
  simp only [lookup_eq_some_iff, remove_rows, List.mem_filter, Option.filter_eq_some_iff]
  tauto

/-- Writing a row changes what is found under its key, and nothing else. -/
lemma lookup_put (t : Table key) (row : Row) (k : K) :
    (t.put row).lookup k = if k = key row then some row else t.lookup k := by
  split_ifs with hk
  · subst hk
    rw [lookup_eq_some_iff]
    refine ⟨?_, rfl⟩
    rw [put_rows, putRows]
    split_ifs with h
    · obtain ⟨r, hr, hkey⟩ := List.any_eq_true.mp h
      exact List.mem_map.mpr ⟨r, hr, by simp [of_decide_eq_true hkey]⟩
    · simp
  · ext r
    simp only [lookup_eq_some_iff, put_rows, putRows]
    split_ifs with h
    · simp only [List.mem_map]
      constructor
      · rintro ⟨⟨r₀, h₀, rfl⟩, rfl⟩
        split_ifs at hk ⊢ with hr
        · exact absurd rfl hk
        · exact ⟨h₀, rfl⟩
      · rintro ⟨h₀, rfl⟩
        exact ⟨⟨r, h₀, by simp [hk]⟩, rfl⟩
    · simp only [List.mem_append, List.mem_singleton]
      constructor
      · rintro ⟨h₀ | rfl, rfl⟩
        · exact ⟨h₀, rfl⟩
        · exact absurd rfl hk
      · rintro ⟨h₀, rfl⟩
        exact ⟨Or.inl h₀, rfl⟩

/-- Writing back the row that is there changes nothing. -/
lemma put_of_lookup {t : Table key} {row : Row} (h : t.lookup (key row) = some row) :
    t.put row = t := by
  obtain ⟨hmem, -⟩ := lookup_eq_some_iff.mp h
  ext1
  rw [put_rows, putRows, if_pos (List.any_eq_true.mpr ⟨row, hmem, by simp⟩)]
  conv_rhs => rw [← List.map_id t.rows]
  refine List.map_congr_left fun r hr => ?_
  split_ifs with hk
  · exact (List.inj_on_of_nodup_map t.nodup hr hmem hk).symm
  · rfl

/-! ## Statements that select by the key and a further condition -/

section At

variable (t : Table key) (k : K) (q : Row → Bool)

/-- Rows selected by their key and a condition: at most the row with that key. -/
lemma find?_at : (t.rows.find? fun r => key r = k && q r) = (t.lookup k).filter q := by
  ext r
  rw [Option.filter_eq_some_iff, lookup_eq_some_iff]
  constructor
  · intro h
    have hp := List.find?_some h
    rw [Bool.and_eq_true, decide_eq_true_eq] at hp
    exact ⟨⟨List.mem_of_find?_eq_some h, hp.1⟩, hp.2⟩
  · rintro ⟨⟨hmem, hk⟩, hq⟩
    obtain ⟨r', hr'⟩ : ∃ r', (t.rows.find? fun r => key r = k && q r) = some r' := by
      rw [← Option.isSome_iff_exists, List.find?_isSome]
      exact ⟨r, hmem, by simp [hk, hq]⟩
    have hp := List.find?_some hr'
    rw [Bool.and_eq_true, decide_eq_true_eq] at hp
    rw [hr', List.inj_on_of_nodup_map t.nodup (List.mem_of_find?_eq_some hr') hmem
      (hp.1.trans hk.symm)]

/-- An update by the key and a condition writes the row with that key, or nothing. -/
lemma modify_at (f : Row → Row) (hf : ∀ r, key (f r) = key r) :
    t.modify (fun r => key r = k && q r) f hf
      = match (t.lookup k).filter q with
        | none => t
        | some r => t.put (f r) := by
  ext1
  cases hc : (t.lookup k).filter q with
  | none =>
      rw [modify_rows]
      conv_rhs => rw [← List.map_id t.rows]
      refine List.map_congr_left fun r hr => ?_
      rw [if_neg]
      · rfl
      · intro hp
        rw [Bool.and_eq_true, decide_eq_true_eq] at hp
        have hsel : (t.lookup k).filter q = some r :=
          Option.filter_eq_some_iff.mpr ⟨lookup_eq_some_iff.mpr ⟨hr, hp.1⟩, hp.2⟩
        rw [hc] at hsel
        cases hsel
  | some r₀ =>
      obtain ⟨hl, hq⟩ := Option.filter_eq_some_iff.mp hc
      obtain ⟨hmem, hk⟩ := lookup_eq_some_iff.mp hl
      rw [modify_rows, put_rows, putRows,
        if_pos (List.any_eq_true.mpr ⟨r₀, hmem, by simp [hf]⟩)]
      refine List.map_congr_left fun r hr => ?_
      by_cases hr' : key r = k
      · obtain rfl : r = r₀ := List.inj_on_of_nodup_map t.nodup hr hmem (hr'.trans hk.symm)
        simp [hr', hq, hf]
      · have hne : key r ≠ key (f r₀) := by
          rw [hf, hk]
          exact hr'
        simp [hr', hne]

/-- A deletion by the key and a condition deletes the row with that key, or nothing. -/
lemma remove_at : t.remove (fun r => key r = k && q r)
    = match (t.lookup k).filter q with
      | none => t
      | some _ => t.remove fun r => key r = k := by
  ext1
  cases hc : (t.lookup k).filter q with
  | none =>
      rw [remove_rows, List.filter_eq_self]
      intro r hr
      cases hp : (key r = k && q r : Bool) with
      | false => rfl
      | true =>
          rw [Bool.and_eq_true, decide_eq_true_eq] at hp
          have hsel : (t.lookup k).filter q = some r :=
            Option.filter_eq_some_iff.mpr ⟨lookup_eq_some_iff.mpr ⟨hr, hp.1⟩, hp.2⟩
          rw [hc] at hsel
          cases hsel
  | some r₀ =>
      obtain ⟨hl, hq⟩ := Option.filter_eq_some_iff.mp hc
      obtain ⟨hmem, hk⟩ := lookup_eq_some_iff.mp hl
      rw [remove_rows, remove_rows]
      refine List.filter_congr fun r hr => ?_
      by_cases hr' : key r = k
      · obtain rfl : r = r₀ := List.inj_on_of_nodup_map t.nodup hr hmem (hr'.trans hk.symm)
        simp [hr', hq]
      · simp [hr']

end At

/-! ## Two tables side by side -/

/-- If `g` maps rows to rows and matches keys of the table exactly, writing a row and its image
keeps one list the image of the other. -/
lemma putRows_map {Row' K' : Type} {key' : Row' → K'} [DecidableEq K'] (g : Row → Row')
    (rows : List Row) (row : Row)
    (hkey : ∀ r ∈ rows, key' (g r) = key' (g row) ↔ key r = key row) :
    putRows key' (rows.map g) (g row) = (putRows key rows row).map g := by
  have hany : ((rows.map g).any fun r => key' r = key' (g row))
      = rows.any fun r => key r = key row := by
    rw [List.any_map, Bool.eq_iff_iff, List.any_eq_true, List.any_eq_true]
    refine exists_congr fun r => and_congr_right fun hr => ?_
    simpa using hkey r hr
  unfold putRows
  rw [hany]
  split_ifs with h
  · rw [List.map_map, List.map_map]
    refine List.map_congr_left fun r hr => ?_
    by_cases hr' : key r = key row
    · simp [hr', (hkey r hr).mpr hr']
    · simp [hr', mt (hkey r hr).mp hr']
  · simp

end Table

/-! ## Insertion-ordered maps

A table of pairs whose key is the first component.  Writing an existing key keeps its place and
writing a new one goes to the end, as in the maps of a scripting language.
-/

/-- A map that iterates in the order its keys were first written. -/
abbrev OrderedMap (K V : Type) : Type := Table (Prod.fst : K × V → K)

namespace OrderedMap

variable {K V : Type} [DecidableEq K]

/-- The value under a key. -/
def get (m : OrderedMap K V) (k : K) : Option V := (Table.lookup m k).map Prod.snd

/-- The map with a value under a key: in its place where there was one, at the end otherwise. -/
def set (m : OrderedMap K V) (k : K) (v : V) : OrderedMap K V := Table.put m (k, v)

/-- The map without a key. -/
def delete (m : OrderedMap K V) (k : K) : OrderedMap K V := Table.remove m fun e => e.1 = k

@[simp] lemma get_empty (k : K) : OrderedMap.get (Table.empty : OrderedMap K V) k = none := rfl

lemma get_eq_some_iff {m : OrderedMap K V} {k : K} {v : V} : m.get k = some v ↔ (k, v) ∈ m.rows := by
  simp only [get, Option.map_eq_some_iff, Table.lookup_eq_some_iff]
  constructor
  · rintro ⟨⟨k', v'⟩, ⟨hmem, rfl⟩, rfl⟩
    exact hmem
  · intro hmem
    exact ⟨(k, v), ⟨hmem, rfl⟩, rfl⟩

@[simp] lemma get_set (m : OrderedMap K V) (k k' : K) (v : V) :
    (m.set k v).get k' = if k' = k then some v else m.get k' := by
  rw [get, set, Table.lookup_put]
  split_ifs <;> rfl

@[simp] lemma get_delete (m : OrderedMap K V) (k k' : K) :
    (m.delete k).get k' = if k' = k then none else m.get k' := by
  ext v
  rw [get_eq_some_iff, delete, Table.remove_rows, List.mem_filter]
  split_ifs with hk
  · simp [hk]
  · rw [get_eq_some_iff]
    simp [hk]

/-- Write a cell: `some v` sets the key, `none` deletes it. -/
def setCell (m : OrderedMap K V) (k : K) : Option V → OrderedMap K V
  | none => m.delete k
  | some v => m.set k v

lemma get_setCell (m : OrderedMap K V) (k k' : K) (c : Option V) :
    (m.setCell k c).get k' = if k' = k then c else m.get k' := by
  cases c with
  | none => exact get_delete m k k'
  | some v => exact get_set m k k' v

/-- Writing back what is there changes nothing, not even the order of the entries. -/
lemma setCell_get (m : OrderedMap K V) (k : K) : m.setCell k (m.get k) = m := by
  cases hc : m.get k with
  | none =>
      refine Table.ext (List.filter_eq_self.mpr fun e he => ?_)
      have hne : e.1 ≠ k := by
        intro hk
        have hmem : m.get k = some e.2 := get_eq_some_iff.mpr (hk ▸ he)
        rw [hc] at hmem
        cases hmem
      simp [hne]
  | some v => exact Table.put_of_lookup (Table.lookup_of_mem (get_eq_some_iff.mp hc))

/-- Removing entries by their value: an entry is still found when its value is not selected. -/
lemma get_remove (m : OrderedMap K V) (p : V → Bool) (k : K) :
    OrderedMap.get (Table.remove m fun e => p e.2) k = (m.get k).filter fun v => !p v := by
  ext v
  rw [get_eq_some_iff, Table.remove_rows, List.mem_filter, Option.filter_eq_some_iff,
    get_eq_some_iff]

/-! ### The deleting loop

A loop over the map that deletes the entries it selects while it stands on them, and counts them.
The iteration visits every entry of the map it started from.
-/

/-- One turn of the loop: the count so far and the map so far. -/
def sweepStep (p : V → Bool) (acc : ℕ × OrderedMap K V) (e : K × V) : ℕ × OrderedMap K V :=
  if p e.2 then (acc.1 + 1, acc.2.delete e.1) else acc

/-- Delete the entries whose value `p` selects, one at a time, and count them. -/
def sweep (p : V → Bool) (m : OrderedMap K V) : ℕ × OrderedMap K V :=
  m.rows.foldl (sweepStep p) (0, m)

lemma sweepLoop_rows (p : V → Bool) (l : List (K × V)) (n : ℕ) (m : OrderedMap K V) :
    (l.foldl (sweepStep p) (n, m)).2.rows
      = m.rows.filter fun e => l.all fun e' => !(p e'.2 && (e'.1 = e.1 : Bool)) := by
  induction l generalizing n m with
  | nil => simp
  | cons e rest ih =>
      rw [List.foldl_cons, sweepStep]
      by_cases he : p e.2
      · rw [if_pos he, ih, delete, Table.remove_rows, List.filter_filter]
        refine List.filter_congr fun x _ => ?_
        simp [he, Bool.and_comm, eq_comm]
      · rw [if_neg he, ih]
        refine List.filter_congr fun x _ => ?_
        simp [he]

lemma sweepLoop_count (p : V → Bool) (l : List (K × V)) (n : ℕ) (m : OrderedMap K V) :
    (l.foldl (sweepStep p) (n, m)).1 = n + l.countP fun e => p e.2 := by
  induction l generalizing n m with
  | nil => simp
  | cons e rest ih =>
      rw [List.foldl_cons, sweepStep]
      by_cases he : p e.2
      · rw [if_pos he, ih, List.countP_cons_of_pos (by exact he)]
        omega
      · rw [if_neg he, ih, List.countP_cons_of_neg (by exact he)]

/-- **What the loop does**: it removes exactly the selected entries, and counts them. -/
theorem sweep_eq (p : V → Bool) (m : OrderedMap K V) :
    m.sweep p = (m.rows.countP fun e => p e.2, Table.remove m fun e => p e.2) := by
  have hrows : (m.sweep p).2 = Table.remove m fun e => p e.2 := by
    refine Table.ext ?_
    rw [sweep, sweepLoop_rows, Table.remove_rows]
    refine List.filter_congr fun e he => ?_
    -- keys are unique, so the only visited entry with this key is the entry itself
    rw [Bool.eq_iff_iff, List.all_eq_true]
    constructor
    · intro h
      simpa using h e he
    · intro h e' he'
      by_cases hkey : e'.1 = e.1
      · rw [List.inj_on_of_nodup_map m.nodup he' he hkey]
        simpa using h
      · simp [hkey]
  rw [← hrows, ← Nat.zero_add (m.rows.countP _), ← sweepLoop_count p m.rows 0 m]
  rfl

end OrderedMap

/-- Of lists one after another, those that are not wanted drop out. -/
lemma flatMap_single {α β : Type} [DecidableEq α] {names : List α} (hnodup : names.Nodup) (f : α → List β)
    (name : α) : (names.flatMap fun m => if m = name then f m else [])
      = if name ∈ names then f name else [] := by
  induction names with
  | nil => rfl
  | cons m rest ih =>
      obtain ⟨hm, hrest⟩ := List.nodup_cons.mp hnodup
      rw [List.flatMap_cons, ih hrest]
      by_cases hname : m = name
      · subst hname
        simp [hm]
      · simp [hname, Ne.symm hname]

end Relational
