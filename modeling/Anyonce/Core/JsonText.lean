import Anyonce.Core.JsonTree

/-!
# JSON texts

The grammar of JSON over any alphabet that contains ASCII: UTF-16 code units, bytes, or the characters
themselves.  A text is read into a tree that keeps what is written, with its numbers as tokens and its
strings as pieces, some of them escapes; what a token or a piece stands for is for the programs that
use it to say.

The reader takes one symbol at a time and keeps the containers it is inside of on a stack, so it
recurses on nothing but the text.

* `parse_write` — what is written without white space is read back.
* `parse_expand` — reading does not depend on how the characters outside ASCII are encoded.
-/

namespace JsonText

/-- An alphabet that contains ASCII. -/
class Symbol (α : Type) where
  ord : α → ℕ
  sym : ℕ → α
  ord_sym : ∀ n, n < 0x80 → ord (sym n) = n
  sym_ord : ∀ a, ord a < 0x80 → sym (ord a) = a

export Symbol (ord sym)

instance : Symbol UInt16 where
  ord := UInt16.toNat
  sym := UInt16.ofNat
  ord_sym n h := by
    rw [UInt16.toNat_ofNat']
    omega
  sym_ord u _ := UInt16.ofNat_toNat

instance : Symbol UInt8 where
  ord := UInt8.toNat
  sym := UInt8.ofNat
  ord_sym n h := by
    rw [UInt8.toNat_ofNat']
    omega
  sym_ord u _ := UInt8.ofNat_toNat

instance : Symbol Char where
  ord := Char.toNat
  sym := Char.ofNat
  ord_sym n h := by
    rw [Char.ofNat, dif_pos (Or.inl (by omega))]
    rfl
  sym_ord c _ := Char.ofNat_toNat c

/-- A piece of a string as it is written. -/
inductive Piece (α : Type)
  | Raw (u : α)
  | Short (e : ℕ)
  | Hex (a b c d : ℕ)
  deriving DecidableEq

/-- A text as it is written, without the white space between its tokens. -/
abbrev Source (α : Type) : Type := JsonTree (List ℕ) (List (Piece α))

variable {α β : Type} [Symbol α] [Symbol β]

@[simp] lemma ord_sym {n : ℕ} (h : n < 0x80) : ord (sym n : α) = n := Symbol.ord_sym n h

/-! ## Numbers -/

/-- Where in a number a reader is. -/
inductive NumberState
  | Start
  | Minus
  | Zero
  | Int
  | Dot
  | Frac
  | Exp
  | ExpSign
  | ExpDigits
  deriving DecidableEq

namespace NumberState

def isDigit (n : ℕ) : Bool := 0x30 ≤ n && n ≤ 0x39

/-- The first digit of a number, or the digit after its sign. -/
def first (n : ℕ) : Option NumberState :=
  if n = 0x30 then some Zero else if isDigit n then some Int else none

/-- A fraction or an exponent. -/
def suffix (n : ℕ) : Option NumberState :=
  if n = 0x2E then some Dot else if n = 0x65 ∨ n = 0x45 then some Exp else none

def step : NumberState → ℕ → Option NumberState
  | Start, n => if n = 0x2D then some Minus else first n
  | Minus, n => first n
  | Zero, n => suffix n
  | Int, n => if isDigit n then some Int else suffix n
  | Dot, n => if isDigit n then some Frac else none
  | Frac, n => if isDigit n then some Frac else if n = 0x65 ∨ n = 0x45 then some Exp else none
  | Exp, n => if n = 0x2B ∨ n = 0x2D then some ExpSign else if isDigit n then some ExpDigits else none
  | ExpSign, n => if isDigit n then some ExpDigits else none
  | ExpDigits, n => if isDigit n then some ExpDigits else none

/-- Whether a number may end here. -/
def accepting : NumberState → Bool
  | Zero | Int | Frac | ExpDigits => true
  | _ => false

def run : NumberState → List ℕ → Option NumberState
  | s, [] => some s
  | s, n :: rest => (s.step n).bind fun s => run s rest

end NumberState

/-- A number token. -/
def IsNumber (token : List ℕ) : Prop :=
  ((NumberState.Start.run token).any NumberState.accepting) = true

instance : DecidablePred IsNumber := fun token =>
  inferInstanceAs (Decidable ((NumberState.Start.run token).any NumberState.accepting = true))

/-! ## Reading -/

def isSpace (u : α) : Bool := ord u = 0x20 || ord u = 0x09 || ord u = 0x0A || ord u = 0x0D

def isHex (n : ℕ) : Bool :=
  (0x30 ≤ n && n ≤ 0x39) || (0x61 ≤ n && n ≤ 0x66) || (0x41 ≤ n && n ≤ 0x46)

/-- The letters of the one-letter escapes: `b f n r t " \ /`. -/
def isShort (n : ℕ) : Bool := n ∈ [0x62, 0x66, 0x6E, 0x72, 0x74, 0x22, 0x5C, 0x2F]

/-- The symbols of an ASCII literal, by number. -/
def codes (s : String) : List (Fin 0x80) := s.toList.map fun c => Fin.ofNat 0x80 c.toNat

/-- The members of an object that were read. -/
abbrev Members (α : Type) : Type := List (List (Piece α) × Source α)

/-- A container a reader is inside of: what it has of it, and the name of the member it is at. -/
inductive Frame (α : Type)
  | Items (done : List (Source α))
  | Members (done : Members α) (name : List (Piece α))

/-- How far into an escape a reader is. -/
inductive Escape
  | Nowhere
  | Slash
  | Digits (digits : List ℕ)

/-- What a reader is at.  A string is a value, or the name of a member after those read. -/
inductive Mode (α : Type)
  | Value (first : Bool)
  | Name (first : Bool) (done : Members α)
  | Colon (done : Members α) (name : List (Piece α))
  | Done (v : Source α)
  | Quoted (role : Option (Members α)) (pieces : List (Piece α)) (escape : Escape)
  | Number (s : NumberState) (token : List ℕ)
  | Literal (left : List (Fin 0x80)) (v : Source α)

abbrev State (α : Type) : Type := Mode α × List (Frame α)

/-- A symbol after a value. -/
def stepDone (v : Source α) (stack : List (Frame α)) (u : α) : Option (State α) :=
  if isSpace u then some (.Done v, stack)
  else
    match stack with
    | [] => none
    | .Items done :: stack =>
        if ord u = 0x2C then some (.Value false, .Items (done ++ [v]) :: stack)
        else if ord u = 0x5D then some (.Done (.Arr (done ++ [v])), stack)
        else none
    | .Members done name :: stack =>
        if ord u = 0x2C then some (.Name false (done ++ [(name, v)]), stack)
        else if ord u = 0x7D then some (.Done (.Obj (done ++ [(name, v)])), stack)
        else none

/-- A symbol where a value begins; directly after a bracket it may close the array. -/
def stepValue (first : Bool) (stack : List (Frame α)) (u : α) : Option (State α) :=
  if isSpace u then some (.Value first, stack)
  else if ord u = 0x22 then some (.Quoted none [] .Nowhere, stack)
  else if ord u = 0x5B then some (.Value true, .Items [] :: stack)
  else if ord u = 0x7B then some (.Name true [], stack)
  else if ord u = 0x6E then some (.Literal (codes "ull") .Null, stack)
  else if ord u = 0x74 then some (.Literal (codes "rue") (.Boolean true), stack)
  else if ord u = 0x66 then some (.Literal (codes "alse") (.Boolean false), stack)
  else if ord u = 0x5D then
    match first, stack with
    | true, .Items done :: stack => some (.Done (.Arr done), stack)
    | _, _ => none
  else (NumberState.Start.step (ord u)).map fun s => (.Number s [ord u], stack)

/-- A symbol where a name begins; directly after a brace it may close the object. -/
def stepName (first : Bool) (done : Members α) (stack : List (Frame α)) (u : α) :
    Option (State α) :=
  if isSpace u then some (.Name first done, stack)
  else if ord u = 0x22 then some (.Quoted (some done) [] .Nowhere, stack)
  else if ord u = 0x7D && first then some (.Done (.Obj done), stack)
  else none

def stepColon (done : Members α) (name : List (Piece α)) (stack : List (Frame α)) (u : α) :
    Option (State α) :=
  if isSpace u then some (.Colon done name, stack)
  else if ord u = 0x3A then some (.Value false, .Members done name :: stack)
  else none

/-- A string that has ended. -/
def closeQuoted (pieces : List (Piece α)) : Option (Members α) → Mode α
  | none => .Done (.Str pieces)
  | some done => .Colon done pieces

/-- A symbol inside a string. -/
def stepQuoted (role : Option (Members α)) (pieces : List (Piece α)) (stack : List (Frame α))
    (u : α) : Escape → Option (State α)
  | .Nowhere =>
      if ord u = 0x22 then some (closeQuoted pieces role, stack)
      else if ord u = 0x5C then some (.Quoted role pieces .Slash, stack)
      else if ord u < 0x20 then none
      else some (.Quoted role (pieces ++ [.Raw u]) .Nowhere, stack)
  | .Slash =>
      if ord u = 0x75 then some (.Quoted role pieces (.Digits []), stack)
      else if isShort (ord u) then some (.Quoted role (pieces ++ [.Short (ord u)]) .Nowhere, stack)
      else none
  | .Digits digits =>
      if isHex (ord u) then
        match digits with
        | [a, b, c] => some (.Quoted role (pieces ++ [.Hex a b c (ord u)]) .Nowhere, stack)
        | _ => some (.Quoted role pieces (.Digits (digits ++ [ord u])), stack)
      else none

def step : State α → α → Option (State α)
  | (.Value first, stack), u => stepValue first stack u
  | (.Name first done, stack), u => stepName first done stack u
  | (.Colon done name, stack), u => stepColon done name stack u
  | (.Done v, stack), u => stepDone v stack u
  | (.Quoted role pieces escape, stack), u => stepQuoted role pieces stack u escape
  | (.Number s token, stack), u =>
      match s.step (ord u) with
      | some s => some (.Number s (token ++ [ord u]), stack)
      -- the symbol that ends a number is read as what follows a value
      | none => if s.accepting then stepDone (.Num token) stack u else none
  | (.Literal left v, stack), u =>
      match left with
      | [] => stepDone v stack u
      | n :: left => if ord u = n.val then some (.Literal left v, stack) else none

/-- The value at the end of a text. -/
def finish : State α → Option (Source α)
  | (.Done v, []) => some v
  | (.Number s token, []) => if s.accepting then some (.Num token) else none
  | (.Literal [] v, []) => some v
  | _ => none

def read : State α → List α → Option (Source α)
  | s, [] => finish s
  | s, u :: rest => (step s u).bind fun s => read s rest

/-- The tree of a whole text. -/
def parse (text : List α) : Option (Source α) := read (.Value false, []) text

/-! ## Writing -/

def ascii (s : String) : List α := (codes s).map fun n => sym n.val

def writePiece : Piece α → List α
  | .Raw u => [u]
  | .Short e => [sym 0x5C, sym e]
  | .Hex a b c d => [sym 0x5C, sym 0x75, sym a, sym b, sym c, sym d]

def quoted (pieces : List (Piece α)) : List α :=
  sym 0x22 :: (pieces.flatMap writePiece ++ [sym 0x22])

/-- `Array.prototype.join` with a separator of one symbol. -/
def join (sep : α) : List (List α) → List α
  | [] => []
  | x :: rest => x ++ rest.flatMap fun y => sep :: y

/-- A member, with the text of its value. -/
def member (m : List (Piece α) × List α) : List α := quoted m.1 ++ sym 0x3A :: m.2

def write : Source α → List α :=
  JsonTree.fold {
    null := ascii "null"
    bool := fun b => if b then ascii "true" else ascii "false"
    num := fun token => token.map sym
    str := quoted
    arr := fun items => sym 0x5B :: (join (sym 0x2C) items ++ [sym 0x5D])
    obj := fun ms => sym 0x7B :: (join (sym 0x2C) (ms.map member) ++ [sym 0x7D]) }

lemma write_arr (items : List (Source α)) :
    write (.Arr items) = sym 0x5B :: (join (sym 0x2C) (items.map write) ++ [sym 0x5D]) := by
  simp [write]

lemma write_obj (members : Members α) :
    write (.Obj members) = sym 0x7B
      :: (join (sym 0x2C) (members.map fun m => member (m.1, write m.2)) ++ [sym 0x7D]) := by
  simp [write, Function.comp_def, Prod.map]

/-! ## What is written is read back -/

/-- A piece that a string may have. -/
def Piece.Valid : Piece α → Prop
  | .Raw u => ord u ≠ 0x22 ∧ ord u ≠ 0x5C ∧ 0x20 ≤ ord u
  | .Short e => isShort e = true
  | .Hex a b c d => isHex a = true ∧ isHex b = true ∧ isHex c = true ∧ isHex d = true

/-- A tree that is the tree of a text. -/
def Valid (v : Source α) : Prop := v.All IsNumber fun pieces => ∀ p ∈ pieces, p.Valid

/-- What may follow a value inside a longer text: a comma or a closing bracket. -/
def Follow (text : List α) : Prop :=
  ∀ u ∈ text.head?, ord u = 0x2C ∨ ord u = 0x5D ∨ ord u = 0x7D

lemma follow_nil : Follow ([] : List α) := by
  simp [Follow]

lemma follow_cons {n : ℕ} (h : n = 0x2C ∨ n = 0x5D ∨ n = 0x7D) (rest : List α) :
    Follow (sym n :: rest) := by
  have hn : n < 0x80 := by omega
  simpa [Follow, ord_sym hn] using h

section Read

variable {stack : List (Frame α)} {rest : List α}

lemma read_cons (s : State α) (u : α) (rest : List α) :
    read s (u :: rest) = (step s u).bind fun s => read s rest := by
  rw [read]

lemma isHex_lt {n : ℕ} (h : isHex n = true) : n < 0x80 := by
  simp only [isHex, Bool.or_eq_true, Bool.and_eq_true, decide_eq_true_eq] at h
  omega

lemma isShort_lt {n : ℕ} (h : isShort n = true) : n < 0x80 ∧ n ≠ 0x75 := by
  simp only [isShort, List.mem_cons, List.not_mem_nil, or_false, decide_eq_true_eq] at h
  omega

/-- A piece of a string. -/
lemma read_piece {p : Piece α} (hp : p.Valid) (role : Option (Members α))
    (pieces : List (Piece α)) :
    read (.Quoted role pieces .Nowhere, stack) (writePiece p ++ rest)
      = read (.Quoted role (pieces ++ [p]) .Nowhere, stack) rest := by
  cases p with
  | Raw u =>
      obtain ⟨hquote, hslash, hctl⟩ := hp
      simp [writePiece, read_cons, step, stepQuoted, hquote, hslash, Nat.not_lt.mpr hctl]
  | Short e =>
      obtain ⟨he, hu⟩ := isShort_lt hp
      have hshort : isShort e = true := hp
      simp [writePiece, read_cons, step, stepQuoted, ord_sym he, hu, hshort]
  | Hex a b c d =>
      obtain ⟨ha, hb, hc, hd⟩ := hp
      simp [writePiece, read_cons, step, stepQuoted, ord_sym (isHex_lt ha), ord_sym (isHex_lt hb),
        ord_sym (isHex_lt hc), ord_sym (isHex_lt hd), ha, hb, hc, hd]

/-- A string, up to its closing quote. -/
lemma read_pieces {pieces : List (Piece α)} (h : ∀ p ∈ pieces, p.Valid) (role : Option (Members α))
    (before : List (Piece α)) :
    read (.Quoted role before .Nowhere, stack) (pieces.flatMap writePiece ++ sym 0x22 :: rest)
      = read (closeQuoted (before ++ pieces) role, stack) rest := by
  induction pieces generalizing before with
  | nil => simp [read_cons, step, stepQuoted]
  | cons p pieces ih =>
      rw [List.flatMap_cons, List.append_assoc, read_piece (h p List.mem_cons_self),
        ih (fun q hq => h q (List.mem_cons_of_mem p hq)), List.append_assoc]
      rfl

/-- A number goes on with nothing but ASCII, and not with what follows a value. -/
lemma NumberState.step_lt {s s' : NumberState} {n : ℕ} (h : s.step n = some s') :
    n < 0x80 ∧ n ≠ 0x2C ∧ n ≠ 0x5D ∧ n ≠ 0x7D := by
  by_contra hn
  have hcases : (0x80 ≤ n ∨ n = 0x2C ∨ n = 0x5D ∨ n = 0x7D) := by omega
  have hdigit : isDigit n = false := by
    rw [isDigit]
    rcases hcases with hge | rfl | rfl | rfl
    · simp
      omega
    · rfl
    · rfl
    · rfl
  have hne : n ≠ 0x2D ∧ n ≠ 0x30 ∧ n ≠ 0x2E ∧ n ≠ 0x65 ∧ n ≠ 0x45 ∧ n ≠ 0x2B := by omega
  cases s <;> simp [NumberState.step, first, suffix, hdigit, hne] at h

/-- The symbol after a number ends it. -/
lemma read_number_end {s : NumberState} (hs : s.accepting = true) (token : List ℕ)
    (hrest : Follow rest) :
    read (.Number s token, stack) rest = read (.Done (.Num token), stack) rest := by
  cases rest with
  | nil => cases stack <;> simp [read, finish, hs]
  | cons u rest =>
      have hu := hrest u (by simp)
      have hstep : s.step (ord u) = none := by
        cases hstep : s.step (ord u) with
        | none => rfl
        | some s' =>
            have hlt := NumberState.step_lt hstep
            omega
      simp [read_cons, step, hstep, hs]

/-- The rest of a number. -/
lemma read_token {token : List ℕ} {s : NumberState} (h : (s.run token).any NumberState.accepting = true)
    (before : List ℕ) (hrest : Follow rest) :
    read (.Number s before, stack) (token.map sym ++ rest)
      = read (.Done (.Num (before ++ token)), stack) rest := by
  induction token generalizing s before with
  | nil =>
      rw [List.map_nil, List.nil_append, List.append_nil]
      exact read_number_end (by simpa [NumberState.run] using h) before hrest
  | cons n token ih =>
      rw [NumberState.run] at h
      cases hstep : s.step n with
      | none => simp [hstep] at h
      | some s' =>
          rw [hstep] at h
          have hn := (NumberState.step_lt hstep).1
          have hread := ih h (before ++ [n])
          simpa [read_cons, step, ord_sym hn, hstep] using hread

lemma read_literal_end (v : Source α) :
    read (.Literal [] v, stack) rest = read (.Done v, stack) rest := by
  cases rest with
  | nil => cases stack <;> rfl
  | cons u rest => rfl

/-- The rest of a literal name. -/
lemma read_literal (left : List (Fin 0x80)) (v : Source α) :
    read (.Literal left v, stack) (left.map (fun n => sym n.val) ++ rest)
      = read (.Done v, stack) rest := by
  induction left with
  | nil => exact read_literal_end v
  | cons n left ih => simpa [read_cons, step, ord_sym n.isLt] using ih

/-- A quoted string where a value is read. -/
lemma read_quoted {pieces : List (Piece α)} (h : ∀ p ∈ pieces, p.Valid) (begins : Bool) :
    read (.Value begins, stack) (quoted pieces ++ rest) = read (.Done (.Str pieces), stack) rest := by
  have hread : read (.Quoted none [] .Nowhere, stack)
      (pieces.flatMap writePiece ++ sym 0x22 :: rest) = read (.Done (.Str pieces), stack) rest :=
    read_pieces h none []
  simpa [quoted, read_cons, step, stepValue, isSpace] using hread

/-- A name and its colon. -/
lemma read_name {name : List (Piece α)} (h : ∀ p ∈ name, p.Valid) (begins : Bool)
    (done : Members α) :
    read (.Name begins done, stack) (quoted name ++ sym 0x3A :: rest)
      = read (.Value false, .Members done name :: stack) rest := by
  have hread : read (.Quoted (some done) [] .Nowhere, stack)
      (name.flatMap writePiece ++ sym 0x22 :: sym 0x3A :: rest)
      = read (.Colon done name, stack) (sym 0x3A :: rest) := read_pieces h (some done) []
  rw [read_cons (.Colon done name, stack)] at hread
  simpa [quoted, read_cons, step, stepName, stepColon, isSpace] using hread

/-- A number where a value is read. -/
lemma read_number {token : List ℕ} (h : IsNumber token) (begins : Bool) (hrest : Follow rest) :
    read (.Value begins, stack) (token.map sym ++ rest) = read (.Done (.Num token), stack) rest := by
  cases token with
  | nil => simp [IsNumber, NumberState.run, NumberState.accepting] at h
  | cons n token =>
      rw [IsNumber, NumberState.run] at h
      cases hstep : NumberState.Start.step n with
      | none => simp [hstep] at h
      | some s =>
          rw [hstep] at h
          have hn := (NumberState.step_lt hstep).1
          have hfirst : n = 0x2D ∨ (0x30 ≤ n ∧ n ≤ 0x39) := by
            by_contra hne
            have hdigit : NumberState.isDigit n = false := by
              rw [NumberState.isDigit, Bool.and_eq_false_iff, decide_eq_false_iff_not,
                decide_eq_false_iff_not]
              omega
            have hne' : n ≠ 0x2D ∧ n ≠ 0x30 := by omega
            simp [NumberState.step, NumberState.first, hdigit, hne'] at hstep
          have hread : read (.Number s [n], stack) (token.map sym ++ rest) = _ :=
            read_token h [n] hrest
          have hne : n ≠ 0x20 ∧ n ≠ 0x09 ∧ n ≠ 0x0A ∧ n ≠ 0x0D ∧ n ≠ 0x22 ∧ n ≠ 0x5B ∧ n ≠ 0x7B
              ∧ n ≠ 0x6E ∧ n ≠ 0x74 ∧ n ≠ 0x66 ∧ n ≠ 0x5D := by omega
          simpa [read_cons, step, stepValue, isSpace, ord_sym hn, hne, hstep] using hread

end Read

/-- A tree that is read back wherever it stands. -/
def ReadsBack (v : Source α) : Prop :=
  ∀ (begins : Bool) (stack : List (Frame α)) (rest : List α), Follow rest →
    read (.Value begins, stack) (write v ++ rest) = read (.Done v, stack) rest

section Containers

variable {stack : List (Frame α)} {rest : List α}

/-- The items after the first, and the closing bracket. -/
lemma read_items {items : List (Source α)} (h : ∀ v ∈ items, ReadsBack v) (v : Source α)
    (done : List (Source α)) :
    read (.Done v, .Items done :: stack)
        ((items.map write).flatMap (fun y => sym 0x2C :: y) ++ sym 0x5D :: rest)
      = read (.Done (.Arr (done ++ v :: items)), stack) rest := by
  induction items generalizing v done with
  | nil => simp [read_cons, step, stepDone, isSpace]
  | cons w items ih =>
      have hrest : Follow ((items.map write).flatMap (fun y => sym 0x2C :: y) ++ sym 0x5D :: rest) := by
        cases items with
        | nil => exact follow_cons (Or.inr (Or.inl rfl)) _
        | cons x items => exact follow_cons (Or.inl rfl) _
      have hw := h w List.mem_cons_self false (.Items (done ++ [v]) :: stack) _ hrest
      have hitems := ih (fun x hx => h x (List.mem_cons_of_mem w hx)) w (done ++ [v])
      rw [hitems] at hw
      simpa [read_cons, step, stepDone, isSpace] using hw

/-- The members after the first, and the closing brace. -/
lemma read_members {members : Members α} (h : ∀ m ∈ members, ReadsBack m.2)
    (hnames : ∀ m ∈ members, ∀ p ∈ m.1, p.Valid) (name : List (Piece α)) (v : Source α)
    (done : Members α) :
    read (.Done v, .Members done name :: stack)
        ((members.map fun m => member (m.1, write m.2)).flatMap (fun y => sym 0x2C :: y)
          ++ sym 0x7D :: rest)
      = read (.Done (.Obj (done ++ (name, v) :: members)), stack) rest := by
  induction members generalizing name v done with
  | nil => simp [read_cons, step, stepDone, isSpace]
  | cons m members ih =>
      have hrest : Follow ((members.map fun m => member (m.1, write m.2)).flatMap
          (fun y => sym 0x2C :: y) ++ sym 0x7D :: rest) := by
        cases members with
        | nil => exact follow_cons (Or.inr (Or.inr rfl)) _
        | cons x members => exact follow_cons (Or.inl rfl) _
      have hm := h m List.mem_cons_self false (.Members (done ++ [(name, v)]) m.1 :: stack) _ hrest
      have hmembers := ih (fun x hx => h x (List.mem_cons_of_mem m hx))
        (fun x hx => hnames x (List.mem_cons_of_mem m hx)) m.1 m.2 (done ++ [(name, v)])
      rw [hmembers, ← read_name (hnames m List.mem_cons_self) false] at hm
      simpa [member, read_cons, step, stepDone, isSpace] using hm

end Containers

/-- **What is written is read back**, wherever it stands. -/
theorem readsBack {v : Source α} (hv : Valid v) : ReadsBack v := by
  induction v using JsonTree.induction with
  | Null =>
      intro begins stack rest _
      have hread := @read_literal α _ stack rest (codes "ull") .Null
      simpa [write, ascii, codes, read_cons, step, stepValue, isSpace] using hread
  | Boolean b =>
      intro begins stack rest _
      cases b with
      | true =>
          have hread := @read_literal α _ stack rest (codes "rue") (.Boolean true)
          simpa [write, ascii, codes, read_cons, step, stepValue, isSpace] using hread
      | false =>
          have hread := @read_literal α _ stack rest (codes "alse") (.Boolean false)
          simpa [write, ascii, codes, read_cons, step, stepValue, isSpace] using hread
  | Num token =>
      intro begins stack rest hrest
      simpa [write] using read_number (by simpa [Valid] using hv) begins hrest
  | Str pieces =>
      intro begins stack rest _
      simpa [write] using read_quoted (by simpa [Valid] using hv) begins
  | Arr items ih =>
      intro begins stack rest _
      rw [Valid, JsonTree.all_arr] at hv
      cases items with
      | nil => simp [write, join, read_cons, step, stepValue, isSpace]
      | cons w items =>
          have hrest : Follow ((items.map write).flatMap (fun y => sym 0x2C :: y)
              ++ sym 0x5D :: rest) := by
            cases items with
            | nil => exact follow_cons (Or.inr (Or.inl rfl)) _
            | cons x items => exact follow_cons (Or.inl rfl) _
          have hw := ih w List.mem_cons_self (hv w List.mem_cons_self) true (.Items [] :: stack) _ hrest
          rw [read_items fun x hx => ih x (List.mem_cons_of_mem w hx)
            (hv x (List.mem_cons_of_mem w hx))] at hw
          simpa [write, join, read_cons, step, stepValue, isSpace] using hw
  | Obj members ih =>
      intro begins stack rest _
      rw [Valid, JsonTree.all_obj] at hv
      cases members with
      | nil => simp [write, join, read_cons, step, stepValue, stepName, isSpace]
      | cons m members =>
          have hrest : Follow ((members.map fun m => member (m.1, write m.2)).flatMap
              (fun y => sym 0x2C :: y) ++ sym 0x7D :: rest) := by
            cases members with
            | nil => exact follow_cons (Or.inr (Or.inr rfl)) _
            | cons x members => exact follow_cons (Or.inl rfl) _
          have hm := ih m List.mem_cons_self (hv m List.mem_cons_self).2 false
            (.Members [] m.1 :: stack) _ hrest
          rw [read_members (fun x hx => ih x (List.mem_cons_of_mem m hx)
              (hv x (List.mem_cons_of_mem m hx)).2)
            (fun x hx => (hv x (List.mem_cons_of_mem m hx)).1),
            ← read_name (hv m List.mem_cons_self).1 true] at hm
          simpa [write, join, member, Function.comp_def, read_cons, step, stepValue, isSpace] using hm

/-- **A text is the text of its tree.** -/
theorem parse_write {v : Source α} (hv : Valid v) : parse (write v) = some v := by
  have hread := readsBack hv false [] [] follow_nil
  rw [List.append_nil] at hread
  exact hread

lemma write_injOn {v w : Source α} (hv : Valid v) (hw : Valid w) (h : write v = write w) : v = w := by
  have hparse := parse_write hv
  rw [h, parse_write hw] at hparse
  exact (Option.some.inj hparse).symm

/-! ## Encodings -/

/-- An encoding of one alphabet in another that keeps ASCII: the symbols of any other character are
outside it. -/
structure Encoding (e : α → List β) : Prop where
  ascii : ∀ u, ord u < 0x80 → e u = [sym (ord u)]
  wide : ∀ u, 0x80 ≤ ord u → e u ≠ [] ∧ ∀ b ∈ e u, 0x80 ≤ ord b

section Expand

variable (e : α → List β)

def expandPiece : Piece α → List (Piece β)
  | .Raw u => (e u).map .Raw
  | .Short n => [.Short n]
  | .Hex a b c d => [.Hex a b c d]

def expandPieces (pieces : List (Piece α)) : List (Piece β) := pieces.flatMap (expandPiece e)

/-- The tree of the encoded text. -/
def expand (v : Source α) : Source β := v.map id (expandPieces e)

def expandMembers (done : Members α) : Members β := done.map (Prod.map (expandPieces e) (expand e))

def expandFrame : Frame α → Frame β
  | .Items done => .Items (done.map (expand e))
  | .Members done name => .Members (expandMembers e done) (expandPieces e name)

def expandMode : Mode α → Mode β
  | .Value begins => .Value begins
  | .Name begins done => .Name begins (expandMembers e done)
  | .Colon done name => .Colon (expandMembers e done) (expandPieces e name)
  | .Done v => .Done (expand e v)
  | .Quoted role pieces escape =>
      .Quoted (role.map (expandMembers e)) (expandPieces e pieces) escape
  | .Number s token => .Number s token
  | .Literal left v => .Literal left (expand e v)

def expandState (s : State α) : State β := (expandMode e s.1, s.2.map (expandFrame e))

variable {e}

omit [Symbol α] [Symbol β] in
lemma expand_arr_append (done : List (Source α)) (v : Source α) :
    expand e (.Arr (done ++ [v])) = .Arr (done.map (expand e) ++ [expand e v]) := by
  simp [expand]

omit [Symbol α] [Symbol β] in
lemma expand_obj_append (done : Members α) (name : List (Piece α)) (v : Source α) :
    expand e (.Obj (done ++ [(name, v)]))
      = .Obj (expandMembers e done ++ [(expandPieces e name, expand e v)]) := by
  simp [expand, expandMembers, Prod.map]

omit [Symbol α] [Symbol β] in
lemma expandMembers_append (done : Members α) (name : List (Piece α)) (v : Source α) :
    expandMembers e (done ++ [(name, v)])
      = expandMembers e done ++ [(expandPieces e name, expand e v)] := by
  simp [expandMembers, Prod.map]

lemma stepDone_expand {u : α} {b : β} (hord : ord b = ord u) (v : Source α)
    (stack : List (Frame α)) :
    stepDone (expand e v) (stack.map (expandFrame e)) b
      = (stepDone v stack u).map (expandState e) := by
  have hspace : isSpace b = isSpace u := by simp [isSpace, hord]
  cases stack with
  | nil =>
      simp only [List.map_nil, stepDone, hspace]
      split_ifs <;> rfl
  | cons frame stack =>
      cases frame with
      | Items done =>
          simp only [List.map_cons, expandFrame, stepDone, hspace, hord]
          split_ifs <;> simp [expandState, expandMode, expandFrame, expand_arr_append]
      | Members done name =>
          simp only [List.map_cons, expandFrame, stepDone, hspace, hord]
          split_ifs <;>
            simp [expandState, expandMode, expandFrame, expand_obj_append, expandMembers_append]

/-- **A step does not depend on the alphabet**, for a symbol of ASCII. -/
lemma step_expand (he : Encoding e) {u : α} (hu : ord u < 0x80) (s : State α) :
    step (expandState e s) (sym (ord u)) = (step s u).map (expandState e) := by
  have hord : ord (sym (ord u) : β) = ord u := ord_sym hu
  have hspace : isSpace (sym (ord u) : β) = isSpace u := by simp [isSpace, hord]
  obtain ⟨mode, stack⟩ := s
  cases mode with
  | Value begins =>
      simp only [expandState, expandMode, step, stepValue, hspace, hord]
      split_ifs
      · rfl
      · rfl
      · rfl
      · rfl
      · simp [expandState, expandMode, expand]
      · simp [expandState, expandMode, expand]
      · simp [expandState, expandMode, expand]
      · cases begins with
        | false => rfl
        | true =>
            rcases stack with _ | ⟨⟨done⟩ | ⟨done, name⟩, stack⟩
            · rfl
            · simp [expandState, expandMode, expandFrame, expand]
            · rfl
      · cases NumberState.Start.step (ord u) <;> rfl
  | Name begins done =>
      simp only [expandState, expandMode, step, stepName, hspace, hord]
      split_ifs <;> simp [expandState, expandMode, expand, expandMembers, expandPieces]
  | Colon done name =>
      simp only [expandState, expandMode, step, stepColon, hspace, hord]
      split_ifs <;> simp [expandState, expandMode, expandFrame]
  | Done v => exact stepDone_expand hord v stack
  | Quoted role pieces escape =>
      have hpush : ∀ p, expandPieces e (pieces ++ [p]) = expandPieces e pieces ++ expandPiece e p := by
        simp [expandPieces]
      cases escape with
      | Nowhere =>
          simp only [expandState, expandMode, step, stepQuoted, hord]
          split_ifs
          · cases role <;> rfl
          · rfl
          · rfl
          · simp [expandState, expandMode, hpush, expandPiece, he.ascii u hu]
      | Slash =>
          simp only [expandState, expandMode, step, stepQuoted, hord]
          split_ifs
          · rfl
          · simp [expandState, expandMode, hpush, expandPiece]
          · rfl
      | Digits digits =>
          simp only [expandState, expandMode, step, stepQuoted, hord]
          split_ifs
          · split
            · simp [expandState, expandMode, hpush, expandPiece]
            · rfl
          · rfl
  | Number s token =>
      simp only [expandState, expandMode, step, hord]
      cases s.step (ord u) with
      | some s' => rfl
      | none =>
          dsimp only
          split_ifs
          · exact stepDone_expand hord (.Num token) stack
          · rfl
  | Literal left v =>
      cases left with
      | nil => exact stepDone_expand hord v stack
      | cons n left =>
          simp only [expandState, expandMode, step, hord]
          split_ifs <;> rfl

/-- A symbol outside ASCII is a piece of a string, or nothing at all. -/
lemma step_wide {u : α} (hu : 0x80 ≤ ord u) (s : State α) :
    step s u = match s with
      | (.Quoted role pieces .Nowhere, stack) =>
          some (.Quoted role (pieces ++ [.Raw u]) .Nowhere, stack)
      | _ => none := by
  have hspace : isSpace u = false := by
    simp only [isSpace, Bool.or_eq_false_iff, decide_eq_false_iff_not]
    omega
  have hdone : ∀ (v : Source α) (stack : List (Frame α)), stepDone v stack u = none := by
    intro v stack
    have hne : ord u ≠ 0x2C ∧ ord u ≠ 0x5D ∧ ord u ≠ 0x7D := by omega
    rcases stack with _ | ⟨⟨done⟩ | ⟨done, name⟩, stack⟩ <;> simp [stepDone, hspace, hne]
  have hnumber : ∀ s : NumberState, s.step (ord u) = none := by
    intro s
    cases hstep : s.step (ord u) with
    | none => rfl
    | some s' =>
        have hlt := (NumberState.step_lt hstep).1
        omega
  obtain ⟨mode, stack⟩ := s
  cases mode with
  | Value begins =>
      have hne : ord u ≠ 0x22 ∧ ord u ≠ 0x5B ∧ ord u ≠ 0x7B ∧ ord u ≠ 0x6E ∧ ord u ≠ 0x74
          ∧ ord u ≠ 0x66 ∧ ord u ≠ 0x5D := by omega
      simp [step, stepValue, hspace, hne, hnumber]
  | Name begins done =>
      have hne : ord u ≠ 0x22 ∧ ord u ≠ 0x7D := by omega
      simp [step, stepName, hspace, hne]
  | Colon done name =>
      have hne : ord u ≠ 0x3A := by omega
      simp [step, stepColon, hspace, hne]
  | Done v => exact hdone v stack
  | Quoted role pieces escape =>
      cases escape with
      | Nowhere =>
          have hne : ord u ≠ 0x22 ∧ ord u ≠ 0x5C ∧ ¬ ord u < 0x20 := by omega
          simp [step, stepQuoted, hne]
      | Slash =>
          have hshort : isShort (ord u) = false := by
            cases hs : isShort (ord u) with
            | false => rfl
            | true =>
                have hlt := (isShort_lt hs).1
                omega
          have hne : ord u ≠ 0x75 := by omega
          simp [step, stepQuoted, hne, hshort]
      | Digits digits =>
          have hhex : isHex (ord u) = false := by
            cases hs : isHex (ord u) with
            | false => rfl
            | true =>
                have hlt := isHex_lt hs
                omega
          simp [step, stepQuoted, hhex]
  | Number s token => simp [step, hnumber, hdone]
  | Literal left v =>
      cases left with
      | nil => exact hdone v stack
      | cons n left =>
          have hne : ord u ≠ n.val := by omega
          simp [step, hne]

/-- Symbols outside ASCII inside a string. -/
lemma read_wide {bs : List α} (hbs : ∀ b ∈ bs, 0x80 ≤ ord b) (role : Option (Members α))
    (pieces : List (Piece α)) (stack : List (Frame α)) (rest : List α) :
    read (.Quoted role pieces .Nowhere, stack) (bs ++ rest)
      = read (.Quoted role (pieces ++ bs.map .Raw) .Nowhere, stack) rest := by
  induction bs generalizing pieces with
  | nil => simp
  | cons b bs ih =>
      rw [List.cons_append, read_cons, step_wide (hbs b List.mem_cons_self)]
      have hread := ih (fun b' hb' => hbs b' (List.mem_cons_of_mem b hb')) (pieces ++ [.Raw b])
      rw [List.append_assoc] at hread
      exact hread

lemma read_expand (he : Encoding e) (text : List α) (s : State α) :
    read (expandState e s) (text.flatMap e) = (read s text).map (expand e) := by
  induction text generalizing s with
  | nil =>
      obtain ⟨mode, stack⟩ := s
      cases stack with
      | nil =>
          cases mode with
          | Number s token =>
              simp only [List.flatMap_nil, read, expandState, expandMode, List.map_nil, finish]
              split_ifs
              · simp [expand]
              · rfl
          | Literal left v => cases left <;> rfl
          | _ => rfl
      | cons frame stack =>
          cases mode with
          | Literal left v => cases left <;> rfl
          | _ => rfl
  | cons u text ih =>
      rw [List.flatMap_cons, read_cons]
      by_cases hu : ord u < 0x80
      · rw [he.ascii u hu, List.singleton_append, read_cons, step_expand he hu, Option.bind_map,
          Option.map_bind]
        exact congrArg _ (funext fun s' => ih s')
      · obtain ⟨hne, hwide⟩ := he.wide u (not_lt.mp hu)
        obtain ⟨b, bs, hbs⟩ := List.exists_cons_of_ne_nil hne
        have hb : 0x80 ≤ ord b := hwide b (by simp [hbs])
        -- outside a string neither reader goes on
        have hnone : step (expandState e s) b = none →
            read (expandState e s) (e u ++ text.flatMap e) = none := by
          intro hstep
          rw [hbs, List.cons_append, read_cons, hstep, Option.bind_none]
        rw [step_wide hb] at hnone
        rw [step_wide (not_lt.mp hu)]
        obtain ⟨mode, stack⟩ := s
        cases mode with
        | Quoted role pieces escape =>
            cases escape with
            | Nowhere =>
                rw [Option.bind_some, ← ih, expandState, expandMode, read_wide hwide]
                simp [expandState, expandMode, expandPieces, expandPiece]
            | Slash => exact hnone rfl
            | Digits digits => exact hnone rfl
        | _ => exact hnone rfl

/-- **Reading does not depend on the encoding.** -/
theorem parse_expand (he : Encoding e) (text : List α) :
    parse (text.flatMap e) = (parse text).map (expand e) :=
  read_expand he text (.Value false, [])

/-! ### Writing in an encoding -/

lemma flatMap_sym (he : Encoding e) {n : ℕ} (hn : n < 0x80) : e (sym n) = [sym n] := by
  rw [he.ascii _ (by rw [ord_sym hn]; exact hn), ord_sym hn]

lemma flatMap_token (he : Encoding e) {token : List ℕ} (h : ∀ n ∈ token, n < 0x80) :
    (token.map sym).flatMap e = token.map sym := by
  induction token with
  | nil => rfl
  | cons n token ih =>
      rw [List.map_cons, List.flatMap_cons, flatMap_sym he (h n List.mem_cons_self),
        ih fun m hm => h m (List.mem_cons_of_mem n hm)]
      rfl

lemma flatMap_ascii (he : Encoding e) (s : String) : (ascii s).flatMap e = ascii s := by
  have hcodes := @flatMap_token α β _ _ e he ((codes s).map Fin.val) (by simp)
  rw [List.map_map, List.map_map] at hcodes
  exact hcodes

lemma flatMap_join (he : Encoding e) {n : ℕ} (hn : n < 0x80) (texts : List (List α)) :
    (join (sym n) texts).flatMap e = join (sym n) (texts.map fun text => text.flatMap e) := by
  cases texts with
  | nil => rfl
  | cons text texts =>
      rw [join, List.map_cons, join, List.flatMap_append, List.flatMap_assoc, List.flatMap_map]
      simp only [List.flatMap_cons, flatMap_sym he hn]
      rfl

lemma flatMap_writePiece (he : Encoding e) {p : Piece α} (hp : p.Valid) :
    (writePiece p).flatMap e = (expandPiece e p).flatMap writePiece := by
  cases p with
  | Raw u => simp [writePiece, expandPiece, List.flatMap_map]
  | Short n => simp [writePiece, expandPiece, flatMap_sym he, (isShort_lt hp).1]
  | Hex a b c d =>
      obtain ⟨ha, hb, hc, hd⟩ := hp
      simp [writePiece, expandPiece, flatMap_sym he, isHex_lt ha, isHex_lt hb, isHex_lt hc,
        isHex_lt hd]

lemma flatMap_quoted (he : Encoding e) {pieces : List (Piece α)} (h : ∀ p ∈ pieces, p.Valid) :
    (quoted pieces).flatMap e = quoted (expandPieces e pieces) := by
  have hpieces : (pieces.flatMap writePiece).flatMap e
      = (expandPieces e pieces).flatMap writePiece := by
    rw [List.flatMap_assoc, expandPieces, List.flatMap_assoc]
    exact List.flatMap_congr fun p hp => flatMap_writePiece he (h p hp)
  simp [quoted, hpieces, flatMap_sym he]

lemma isNumber_lt {token : List ℕ} (h : IsNumber token) : ∀ n ∈ token, n < 0x80 := by
  have hrun : ∀ (s : NumberState) (token : List ℕ), (s.run token).isSome = true →
      ∀ n ∈ token, n < 0x80 := by
    intro s token
    induction token generalizing s with
    | nil => simp
    | cons n token ih =>
        intro hsome m hm
        rw [NumberState.run] at hsome
        cases hstep : s.step n with
        | none => simp [hstep] at hsome
        | some s' =>
            rw [hstep] at hsome
            rcases List.mem_cons.mp hm with rfl | hm
            · exact (NumberState.step_lt hstep).1
            · exact ih s' hsome m hm
  refine hrun .Start token ?_
  rw [IsNumber] at h
  cases hs : NumberState.Start.run token with
  | none => simp [hs] at h
  | some s => rfl

/-- **Encoding the text is writing the encoded tree.** -/
theorem write_expand (he : Encoding e) {v : Source α} (hv : Valid v) :
    write (expand e v) = (write v).flatMap e := by
  induction v using JsonTree.induction with
  | Null => simp [expand, write, flatMap_ascii he]
  | Boolean b => cases b <;> simp [expand, write, flatMap_ascii he]
  | Num token =>
      have htoken : IsNumber token := by simpa [Valid] using hv
      simpa [expand, write] using (flatMap_token he (isNumber_lt htoken)).symm
  | Str pieces =>
      have hpieces : ∀ p ∈ pieces, p.Valid := by simpa [Valid] using hv
      simpa [expand, write] using (flatMap_quoted he hpieces).symm
  | Arr items ih =>
      rw [Valid, JsonTree.all_arr] at hv
      have hitems : items.map (fun v => write (expand e v))
          = items.map fun v => (write v).flatMap e :=
        List.map_congr_left fun v hmem => ih v hmem (hv v hmem)
      rw [expand, JsonTree.map_arr, write_arr, write_arr, List.map_map, List.flatMap_cons,
        List.flatMap_append, flatMap_join he (by decide), List.map_map]
      simp only [flatMap_sym he, List.flatMap_cons, List.flatMap_nil, Nat.reduceLT]
      exact congrArg (fun texts => sym 0x5B :: (join (sym 0x2C) texts ++ [sym 0x5D])) hitems
  | Obj members ih =>
      rw [Valid, JsonTree.all_obj] at hv
      have hmembers : members.map (fun m => member (expandPieces e m.1, write (expand e m.2)))
          = members.map fun m => (member (m.1, write m.2)).flatMap e := by
        refine List.map_congr_left fun m hm => ?_
        simp [member, ih m hm (hv m hm).2, flatMap_quoted he (hv m hm).1, flatMap_sym he]
      rw [expand, JsonTree.map_obj, write_obj, write_obj, List.map_map, List.flatMap_cons,
        List.flatMap_append, flatMap_join he (by decide), List.map_map]
      simp only [flatMap_sym he, List.flatMap_cons, List.flatMap_nil, Nat.reduceLT]
      exact congrArg (fun texts => sym 0x7B :: (join (sym 0x2C) texts ++ [sym 0x7D])) hmembers

end Expand

end JsonText
