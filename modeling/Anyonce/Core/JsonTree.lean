import Mathlib.Data.List.Dedup
import Mathlib.Data.List.Sort
import Mathlib.Data.List.Lex
import Mathlib.Tactic.Common

/-!
# JSON trees

`JsonTree N S` is the shape of a JSON value, with numbers in `N` and strings in `S`: a text as it is
written, the value a program holds and what a reader is meant to understand are all trees, and one is
got from another by `map`.  An object is the list of members it was given one after another, so a name
may occur in it twice; `last` is the member that counts.

`meaning` forgets what JSON does not distinguish.  The members of an object become a partial function
from names, so their order is gone, and so is a member that a later one of the same name hides.

`ordered` lists the members that count by their names.  It depends on nothing but the meaning
(`ordered_congr`), which is what a canonical form is made of.
-/

/-- A JSON value. -/
inductive JsonTree (N S : Type)
  | Null
  | Boolean (b : Bool)
  | Num (n : N)
  | Str (s : S)
  | Arr (items : List (JsonTree N S))
  | Obj (members : List (S × JsonTree N S))

/-- A JSON value as it is understood: the members of an object are a partial function. -/
inductive JsonMeaning (N S : Type)
  | Null
  | Boolean (b : Bool)
  | Num (n : N)
  | Str (s : S)
  | Arr (items : List (JsonMeaning N S))
  | Obj (members : S → Option (JsonMeaning N S))

namespace JsonTree

variable {N N' N'' S S' S'' R β γ : Type}

/-- **Induction over a tree**: a container from all that it contains. -/
@[elab_as_elim]
theorem induction {motive : JsonTree N S → Prop} (Null : motive .Null)
    (Boolean : ∀ b, motive (.Boolean b)) (Num : ∀ n, motive (.Num n)) (Str : ∀ s, motive (.Str s))
    (Arr : ∀ items, (∀ v ∈ items, motive v) → motive (.Arr items))
    (Obj : ∀ members, (∀ m ∈ members, motive m.2) → motive (.Obj members)) :
    ∀ v, motive v := by
  intro v
  refine @JsonTree.rec N S motive (fun items => ∀ v ∈ items, motive v)
    (fun members => ∀ m ∈ members, motive m.2) (fun m => motive m.2) Null Boolean Num Str Arr Obj
    ?_ ?_ ?_ ?_ ?_ v
  · simp
  · intro v items hv hitems w hw
    rcases List.mem_cons.mp hw with rfl | hmem
    · exact hv
    · exact hitems w hmem
  · simp
  · intro m members hm hmembers w hw
    rcases List.mem_cons.mp hw with rfl | hmem
    · exact hm
    · exact hmembers w hmem
  · intro name v hv
    exact hv

/-! ## Folding and mapping -/

/-- What a fold does at each kind of value. -/
structure Cases (N S R : Type) where
  null : R
  bool : Bool → R
  num : N → R
  str : S → R
  arr : List R → R
  obj : List (S × R) → R

mutual

/-- The tree, from the leaves up. -/
def fold (c : Cases N S R) : JsonTree N S → R
  | .Null => c.null
  | .Boolean b => c.bool b
  | .Num n => c.num n
  | .Str s => c.str s
  | .Arr items => c.arr (foldItems c items)
  | .Obj members => c.obj (foldMembers c members)

def foldItems (c : Cases N S R) : List (JsonTree N S) → List R
  | [] => []
  | v :: rest => fold c v :: foldItems c rest

def foldMembers (c : Cases N S R) : List (S × JsonTree N S) → List (S × R)
  | [] => []
  | (name, v) :: rest => (name, fold c v) :: foldMembers c rest

end

@[simp] lemma fold_null (c : Cases N S R) : fold c .Null = c.null := by rw [fold]

@[simp] lemma fold_bool (c : Cases N S R) (b : Bool) : fold c (.Boolean b) = c.bool b := by rw [fold]

@[simp] lemma fold_num (c : Cases N S R) (n : N) : fold c (.Num n) = c.num n := by rw [fold]

@[simp] lemma fold_str (c : Cases N S R) (s : S) : fold c (.Str s) = c.str s := by rw [fold]

@[simp] lemma fold_arr (c : Cases N S R) (items : List (JsonTree N S)) :
    fold c (.Arr items) = c.arr (items.map (fold c)) := by
  have hitems : ∀ items : List (JsonTree N S), foldItems c items = items.map (fold c) := by
    intro items
    induction items with
    | nil => rw [foldItems, List.map_nil]
    | cons v rest ih => rw [foldItems, ih, List.map_cons]
  rw [fold, hitems]

@[simp] lemma fold_obj (c : Cases N S R) (members : List (S × JsonTree N S)) :
    fold c (.Obj members) = c.obj (members.map (Prod.map id (fold c))) := by
  have hmembers : ∀ members : List (S × JsonTree N S),
      foldMembers c members = members.map (Prod.map id (fold c)) := by
    intro members
    induction members with
    | nil => rw [foldMembers, List.map_nil]
    | cons m rest ih => rw [foldMembers, ih, List.map_cons, Prod.map, id]
  rw [fold, hmembers]

/-- The tree with other numbers and other strings. -/
def map (f : N → N') (g : S → S') : JsonTree N S → JsonTree N' S' :=
  fold {
    null := .Null
    bool := .Boolean
    num := fun n => .Num (f n)
    str := fun s => .Str (g s)
    arr := .Arr
    obj := fun ms => .Obj (ms.map (Prod.map g id)) }

section Map

variable (f : N → N') (g : S → S')

@[simp] lemma map_null : map f g .Null = .Null := by simp [map]

@[simp] lemma map_bool (b : Bool) : map f g (.Boolean b) = .Boolean b := by simp [map]

@[simp] lemma map_num (n : N) : map f g (.Num n) = .Num (f n) := by simp [map]

@[simp] lemma map_str (s : S) : map f g (.Str s) = .Str (g s) := by simp [map]

@[simp] lemma map_arr (items : List (JsonTree N S)) :
    map f g (.Arr items) = .Arr (items.map (map f g)) := by
  simp [map]

@[simp] lemma map_obj (members : List (S × JsonTree N S)) :
    map f g (.Obj members) = .Obj (members.map (Prod.map g (map f g))) := by
  simp [map]

end Map

lemma map_map (f : N → N') (g : S → S') (f' : N' → N'') (g' : S' → S'') (v : JsonTree N S) :
    map f' g' (map f g v) = map (f' ∘ f) (g' ∘ g) v := by
  induction v using induction with
  | Null => simp
  | Boolean b => simp
  | Num n => simp
  | Str s => simp
  | Arr items ih => simpa using ih
  | Obj members ih =>
      simp only [map_obj, List.map_map, Prod.map_comp_map]
      refine congrArg Obj (List.map_congr_left ?_)
      intro m hm
      exact Prod.ext rfl (ih m hm)

lemma map_id (v : JsonTree N S) : map id id v = v := by
  induction v using induction with
  | Null => simp
  | Boolean b => simp
  | Num n => simp
  | Str s => simp
  | Arr items ih =>
      rw [map_arr]
      exact congrArg Arr ((List.map_congr_left ih).trans (List.map_id items))
  | Obj members ih =>
      rw [map_obj]
      refine congrArg Obj (Eq.trans (List.map_congr_left ?_) (List.map_id members))
      intro m hm
      exact Prod.ext rfl (ih m hm)

/-- What holds of every number and every string of a tree, member names included. -/
def All (p : N → Prop) (q : S → Prop) : JsonTree N S → Prop :=
  fold {
    null := True
    bool := fun _ => True
    num := p
    str := q
    arr := fun ps => ∀ h ∈ ps, h
    obj := fun ms => ∀ m ∈ ms, q m.1 ∧ m.2 }

section All

variable {p : N → Prop} {q : S → Prop}

@[simp] lemma all_null : All p q .Null := by simp [All]

@[simp] lemma all_bool (b : Bool) : All p q (.Boolean b) := by simp [All]

@[simp] lemma all_num (n : N) : All p q (.Num n) ↔ p n := by simp [All]

@[simp] lemma all_str (s : S) : All p q (.Str s) ↔ q s := by simp [All]

@[simp] lemma all_arr (items : List (JsonTree N S)) :
    All p q (.Arr items) ↔ ∀ v ∈ items, All p q v := by
  rw [All, fold_arr]
  exact List.forall_mem_map (P := fun h => h)

@[simp] lemma all_obj (members : List (S × JsonTree N S)) :
    All p q (.Obj members) ↔ ∀ m ∈ members, q m.1 ∧ All p q m.2 := by
  rw [All, fold_obj]
  exact List.forall_mem_map (P := fun m : S × Prop => q m.1 ∧ m.2)

lemma all_of_forall (hp : ∀ n, p n) (hq : ∀ s, q s) (v : JsonTree N S) : All p q v := by
  induction v using induction with
  | Null => exact all_null
  | Boolean b => exact all_bool b
  | Num n => exact (all_num n).mpr (hp n)
  | Str s => exact (all_str s).mpr (hq s)
  | Arr items ih => exact (all_arr items).mpr ih
  | Obj members ih => exact (all_obj members).mpr fun m hm => ⟨hq m.1, ih m hm⟩

lemma All.imp {p' : N → Prop} {q' : S → Prop} {v : JsonTree N S} (h : All p q v)
    (hp : ∀ n, p n → p' n) (hq : ∀ s, q s → q' s) : All p' q' v := by
  induction v using induction with
  | Null => exact all_null
  | Boolean b => exact all_bool b
  | Num n => exact (all_num n).mpr (hp n ((all_num n).mp h))
  | Str s => exact (all_str s).mpr (hq s ((all_str s).mp h))
  | Arr items ih => exact (all_arr items).mpr fun v hv => ih v hv ((all_arr items).mp h v hv)
  | Obj members ih =>
      rw [all_obj] at h ⊢
      exact fun m hm => ⟨hq m.1 (h m hm).1, ih m hm (h m hm).2⟩

lemma all_map {p : N' → Prop} {q : S' → Prop} (f : N → N') (g : S → S') (v : JsonTree N S) :
    All p q (v.map f g) ↔ All (fun n => p (f n)) (fun s => q (g s)) v := by
  induction v using induction with
  | Null => simp
  | Boolean b => simp
  | Num n => simp
  | Str s => simp
  | Arr items ih =>
      rw [map_arr, all_arr, all_arr, List.forall_mem_map]
      exact forall₂_congr ih
  | Obj members ih =>
      rw [map_obj, all_obj, all_obj, List.forall_mem_map]
      exact forall₂_congr fun m hm => and_congr Iff.rfl (ih m hm)

lemma map_congr {f f' : N → N'} {g g' : S → S'} {v : JsonTree N S}
    (h : All (fun n => f n = f' n) (fun s => g s = g' s) v) : map f g v = map f' g' v := by
  induction v using induction with
  | Null => simp
  | Boolean b => simp
  | Num n => simpa using h
  | Str s => simpa using h
  | Arr items ih =>
      rw [all_arr] at h
      simpa using fun v hv => ih v hv (h v hv)
  | Obj members ih =>
      rw [all_obj] at h
      simp only [map_obj]
      refine congrArg Obj (List.map_congr_left ?_)
      intro m hm
      exact Prod.ext (h m hm).1 (ih m hm (h m hm).2)

end All

/-! ## The members that count -/

variable [DecidableEq S]

/-- The member of a name: the last one that was given. -/
def last (name : S) (ms : List (S × β)) : Option β :=
  (ms.reverse.find? fun m => m.1 = name).map Prod.snd

@[simp] lemma last_nil (name : S) : last name ([] : List (S × β)) = none := rfl

lemma last_cons (name : S) (m : S × β) (rest : List (S × β)) :
    last name (m :: rest) = (last name rest).or (if m.1 = name then some m.2 else none) := by
  rw [last, last, List.reverse_cons, List.find?_append]
  cases rest.reverse.find? fun m => m.1 = name with
  | some found => rfl
  | none =>
      by_cases h : m.1 = name
      · simp [h]
      · simp [h]

lemma mem_of_last {name : S} {b : β} {ms : List (S × β)} (h : last name ms = some b) :
    (name, b) ∈ ms := by
  obtain ⟨⟨name', b'⟩, hfind, rfl⟩ := Option.map_eq_some_iff.mp h
  have hname : name' = name := by simpa using List.find?_some hfind
  rw [← hname]
  exact List.mem_reverse.mp (List.mem_of_find?_eq_some hfind)

lemma last_isSome (name : S) (ms : List (S × β)) :
    (last name ms).isSome = true ↔ name ∈ ms.map Prod.fst := by
  simp [last, List.find?_isSome]

lemma last_map (f : β → γ) (name : S) (ms : List (S × β)) :
    last name (ms.map (Prod.map id f)) = (last name ms).map f := by
  rw [last, last, ← List.map_reverse, List.find?_map, Option.map_map, Option.map_map]
  rfl

section Ordered

variable {K : Type} [LinearOrder K] {key : S → K}

/-- The names of the members, each once and in order. -/
def sortedNames (key : S → K) (ms : List (S × β)) : List S :=
  (ms.map Prod.fst).dedup.insertionSort fun a b => key a ≤ key b

/-- The members that count, in the order of their names. -/
def ordered (key : S → K) (ms : List (S × β)) : List (S × β) :=
  (sortedNames key ms).filterMap fun name => (last name ms).map (name, ·)

lemma mem_sortedNames (key : S → K) (ms : List (S × β)) (name : S) :
    name ∈ sortedNames key ms ↔ name ∈ ms.map Prod.fst := by
  simp [sortedNames]

lemma nodup_sortedNames (key : S → K) (ms : List (S × β)) : (sortedNames key ms).Nodup :=
  ((List.perm_insertionSort _ _).nodup_iff).mpr (List.nodup_dedup _)

lemma pairwise_sortedNames (key : S → K) (ms : List (S × β)) :
    (sortedNames key ms).Pairwise fun a b => key a ≤ key b := by
  have htotal : Std.Total fun a b : S => key a ≤ key b := ⟨fun a b => le_total (key a) (key b)⟩
  have htrans : IsTrans S fun a b => key a ≤ key b := ⟨fun a b c => le_trans⟩
  exact List.pairwise_insertionSort _ _

/-- **The order of the names depends on nothing but which names there are.** -/
lemma sortedNames_congr (hkey : Function.Injective key) {ms : List (S × β)} {ms' : List (S × γ)}
    (h : ∀ name, name ∈ ms.map Prod.fst ↔ name ∈ ms'.map Prod.fst) :
    sortedNames key ms = sortedNames key ms' := by
  have hperm : (sortedNames key ms).Perm (sortedNames key ms') := by
    rw [List.perm_ext_iff_of_nodup (nodup_sortedNames key ms) (nodup_sortedNames key ms')]
    intro name
    rw [mem_sortedNames, mem_sortedNames, h]
  refine hperm.eq_of_pairwise ?_ (pairwise_sortedNames key ms) (pairwise_sortedNames key ms')
  intro a b _ _ hab hba
  exact hkey (le_antisymm hab hba)

/-- **The members in order depend on nothing but the member of each name.** -/
theorem ordered_congr (hkey : Function.Injective key) {ms ms' : List (S × β)}
    (h : ∀ name, last name ms = last name ms') : ordered key ms = ordered key ms' := by
  have hnames : sortedNames key ms = sortedNames key ms' := by
    refine sortedNames_congr hkey fun name => ?_
    rw [← last_isSome, ← last_isSome, h]
  rw [ordered, ordered, hnames]
  exact List.filterMap_congr fun name _ => by rw [h]

lemma mem_ordered (key : S → K) (ms : List (S × β)) (m : S × β) :
    m ∈ ordered key ms ↔ last m.1 ms = some m.2 := by
  simp only [ordered, List.mem_filterMap, Option.map_eq_some_iff, mem_sortedNames]
  constructor
  · rintro ⟨name, -, b, hlast, rfl⟩
    exact hlast
  · intro hlast
    exact ⟨m.1, (last_isSome _ _).mp (by rw [hlast]; rfl), m.2, hlast, rfl⟩

/-- A list in which each member counts, as the member of its name. -/
lemma last_eq_of_mem {ms : List (S × β)} {name : S} {b : β}
    (hcounts : ∀ m ∈ ms, ∀ m' ∈ ms, m.1 = m'.1 → m = m') (hmem : (name, b) ∈ ms) :
    last name ms = some b := by
  have hsome : (last name ms).isSome = true :=
    (last_isSome name ms).mpr (List.mem_map_of_mem hmem)
  obtain ⟨b', hlast⟩ := Option.isSome_iff_exists.mp hsome
  have heq := hcounts _ hmem _ (mem_of_last hlast) rfl
  rw [hlast, Option.some.injEq]
  exact (congrArg Prod.snd heq).symm

/-- Putting the members in order changes none of them. -/
lemma last_ordered (key : S → K) (ms : List (S × β)) (name : S) :
    last name (ordered key ms) = last name ms := by
  have hcounts : ∀ m ∈ ordered key ms, ∀ m' ∈ ordered key ms, m.1 = m'.1 → m = m' := by
    intro m hm m' hm' hname
    rw [mem_ordered] at hm hm'
    rw [hname, hm', Option.some.injEq] at hm
    exact Prod.ext hname hm.symm
  cases hlast : last name ms with
  | some b => exact last_eq_of_mem hcounts ((mem_ordered key ms (name, b)).mpr hlast)
  | none =>
      cases hord : last name (ordered key ms) with
      | none => rfl
      | some b =>
          have hmem := (mem_ordered key ms (name, b)).mp (mem_of_last hord)
          rw [hlast] at hmem
          cases hmem

/-- Renaming the members without mixing names up. -/
lemma last_map_injective [DecidableEq S'] {g : S → S'} (hg : Function.Injective g) (f : β → γ)
    (ms : List (S × β)) (name : S) : last (g name) (ms.map (Prod.map g f)) = (last name ms).map f := by
  induction ms with
  | nil => rfl
  | cons m rest ih =>
      rw [List.map_cons, last_cons, ih, last_cons]
      cases last name rest with
      | some b => rfl
      | none => by_cases h : m.1 = name <;> simp [h, hg.eq_iff]

/-- Renaming the members without mixing names up, by names that sort the same way. -/
lemma ordered_map [DecidableEq S'] {key' : S' → K} {g : S → S'} (hg : Function.Injective g)
    (hkeys : ∀ name, key' (g name) = key name) (f : β → γ) (ms : List (S × β)) :
    ordered key' (ms.map (Prod.map g f)) = (ordered key ms).map (Prod.map g f) := by
  have hnames : sortedNames key' (ms.map (Prod.map g f)) = (sortedNames key ms).map g := by
    rw [sortedNames, sortedNames, List.map_insertionSort _ (s := fun a b => key' a ≤ key' b)]
    · rw [List.map_map, ← List.dedup_map_of_injective hg, List.map_map]
      rfl
    · intro a _ b _
      rw [hkeys, hkeys]
  rw [ordered, ordered, hnames, List.filterMap_map, List.map_filterMap]
  refine List.filterMap_congr fun name _ => ?_
  rw [Function.comp, last_map_injective hg, Option.map_map, Option.map_map]
  rfl

/-- Other values under the same names. -/
lemma ordered_values (key : S → K) (f : β → γ) (ms : List (S × β)) :
    ordered key (ms.map (Prod.map id f)) = (ordered key ms).map (Prod.map id f) :=
  ordered_map Function.injective_id (fun _ => rfl) f ms

end Ordered

/-! ## Meaning and normal form -/

/-- What a tree means. -/
def meaning : JsonTree N S → JsonMeaning N S :=
  fold {
    null := .Null
    bool := .Boolean
    num := .Num
    str := .Str
    arr := .Arr
    obj := fun ms => .Obj fun name => last name ms }

lemma meaning_arr (items : List (JsonTree N S)) :
    meaning (.Arr items) = .Arr (items.map meaning) := by
  simp [meaning]

lemma meaning_obj (members : List (S × JsonTree N S)) :
    meaning (.Obj members) = .Obj fun name => (last name members).map meaning := by
  simp only [meaning, fold_obj, last_map]

/-- The tree with the members of every object in order, each name once. -/
def canonical {K : Type} [LinearOrder K] (key : S → K) : JsonTree N S → JsonTree N S :=
  fold {
    null := .Null
    bool := .Boolean
    num := .Num
    str := .Str
    arr := .Arr
    obj := fun ms => .Obj (ordered key ms) }

section Canonical

variable {K : Type} [LinearOrder K] {key : S → K}

lemma canonical_arr (items : List (JsonTree N S)) :
    canonical key (.Arr items) = .Arr (items.map (canonical key)) := by
  simp [canonical]

lemma canonical_obj (members : List (S × JsonTree N S)) :
    canonical key (.Obj members)
      = .Obj (ordered key (members.map (Prod.map id (canonical key)))) := by
  simp [canonical]

/-- The normal form means what the tree means. -/
lemma meaning_canonical (v : JsonTree N S) : meaning (canonical key v) = meaning v := by
  induction v using induction with
  | Null => simp [canonical]
  | Boolean b => simp [canonical]
  | Num n => simp [canonical]
  | Str s => simp [canonical]
  | Arr items ih =>
      rw [canonical_arr, meaning_arr, meaning_arr, List.map_map]
      exact congrArg _ (List.map_congr_left ih)
  | Obj members ih =>
      rw [canonical_obj, meaning_obj, meaning_obj]
      refine congrArg _ (funext fun name => ?_)
      rw [last_ordered, last_map, Option.map_map]
      cases hlast : last name members with
      | none => rfl
      | some v => exact congrArg some (ih _ (mem_of_last hlast))

/-- Trees that mean the same have the same normal form. -/
lemma canonical_congr (hkey : Function.Injective key) {v w : JsonTree N S}
    (h : meaning v = meaning w) : canonical key v = canonical key w := by
  induction v using induction generalizing w with
  | Null => cases w <;> simp [meaning] at h ⊢
  | Boolean b => cases w <;> simp_all [meaning]
  | Num n => cases w <;> simp_all [meaning]
  | Str s => cases w <;> simp_all [meaning]
  | Arr items ih =>
      rw [meaning_arr] at h
      cases w with
      | Arr items' =>
          rw [meaning_arr, JsonMeaning.Arr.injEq] at h
          rw [canonical_arr, canonical_arr]
          refine congrArg _ ?_
          induction items generalizing items' with
          | nil =>
              obtain rfl : items' = [] := by simpa using h.symm
              rfl
          | cons v rest ih' =>
              obtain ⟨v', rest', rfl, hv, hrest⟩ := List.map_eq_cons_iff.mp h.symm
              rw [List.map_cons, List.map_cons, ih v List.mem_cons_self hv.symm,
                ih' (fun u hu => ih u (List.mem_cons_of_mem v hu)) rest' hrest.symm]
      | _ => simp [meaning] at h
  | Obj members ih =>
      rw [meaning_obj] at h
      cases w with
      | Obj members' =>
          rw [meaning_obj, JsonMeaning.Obj.injEq] at h
          rw [canonical_obj, canonical_obj]
          refine congrArg _ (ordered_congr hkey fun name => ?_)
          have hname := congrFun h name
          rw [last_map, last_map]
          cases hv : last name members with
          | none =>
              rw [hv, Option.map_none, eq_comm, Option.map_eq_none_iff] at hname
              rw [hname]
          | some v =>
              rw [hv, Option.map_some, eq_comm, Option.map_eq_some_iff] at hname
              obtain ⟨v', hv', hmeaning⟩ := hname
              rw [hv', Option.map_some, Option.map_some, ih _ (mem_of_last hv) hmeaning.symm]
      | _ => simp [meaning] at h

/-- **The canonical tree is a normal form**: trees have the same one exactly when they mean the
same. -/
theorem canonical_eq_iff (hkey : Function.Injective key) {v w : JsonTree N S} :
    canonical key v = canonical key w ↔ meaning v = meaning w := by
  constructor
  · intro h
    calc meaning v = meaning (canonical key v) := (meaning_canonical v).symm
      _ = meaning (canonical key w) := by rw [h]
      _ = meaning w := meaning_canonical w
  · exact canonical_congr hkey

/-- Renaming without mixing names up, by names that sort the same way, keeps the normal form. -/
lemma canonical_map [DecidableEq S'] {key' : S' → K} {g : S → S'} (hg : Function.Injective g)
    (hkeys : ∀ name, key' (g name) = key name) (f : N → N') (v : JsonTree N S) :
    canonical key' (map f g v) = map f g (canonical key v) := by
  induction v using induction with
  | Null => simp [canonical]
  | Boolean b => simp [canonical]
  | Num n => simp [canonical]
  | Str s => simp [canonical]
  | Arr items ih =>
      rw [map_arr, canonical_arr, canonical_arr, map_arr, List.map_map, List.map_map]
      exact congrArg _ (List.map_congr_left ih)
  | Obj members ih =>
      rw [map_obj, canonical_obj, canonical_obj, map_obj, ← ordered_map hg hkeys, List.map_map,
        List.map_map]
      refine congrArg (fun ms => Obj (ordered key' ms)) (List.map_congr_left ?_)
      intro m hm
      exact Prod.ext rfl (ih m hm)

/-- Other numbers in the same places. -/
lemma canonical_numbers (f : N → N') (v : JsonTree N S) :
    canonical key (map f id v) = map f id (canonical key v) :=
  canonical_map Function.injective_id (fun _ => rfl) f v

end Canonical

end JsonTree
