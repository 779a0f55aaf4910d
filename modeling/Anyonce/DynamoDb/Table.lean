import Anyonce.Core.Program
import Anyonce.Core.Table
import Anyonce.Types

/-!
# A DynamoDB table

The part of DynamoDB the store uses: one table with a string partition key `pk`, and items that map
attribute names to typed values.  A conditional write is one atomic step: its condition is evaluated
on the item as it is (on no attributes at all when there is no item), its `SET` operands are read from
that item too, and a write that is refused leaves the table alone and returns the old item
(`ReturnValuesOnConditionCheckFailure: ALL_OLD`).  A comparison with an attribute that is missing, or
that has another type, is false.

A number crosses the wire as its decimal text and is kept as the number.  Native TTL is not modelled:
the `ttl` attribute is written and never acted on.

* `Condition.holds`, `Update.apply` — the expressions.
* `updateItem`, `deleteItem`, `getItem` — the requests.
-/

namespace Anyonce

open Relational

/-- The attributes of an item. -/
inductive Attribute
  | Pk
  | Fingerprint
  | State
  | Fence
  | LeaseUntil
  | CreatedAt
  | ExpiresAt
  | Ttl
  | ResultMeta
  | ResultBody
  | ResultOmitted
  deriving DecidableEq

section

variable {T : Type}

/-- The types the store uses: string, number and binary. -/
inductive AttributeValue (T : Type)
  | S (text : T)
  | N (number : ℤ)
  | B (bytes : List UInt8)
  deriving DecidableEq

/-- The attributes an item has. -/
abbrev Item (T : Type) : Type := Attribute → Option (AttributeValue T)

/-- The item without attributes, on which the condition of a write is evaluated where there is none. -/
def Item.absent : Item T := fun _ => none

/-- The item a write creates has its key. -/
def Item.keyed (pk : T) : Item T := fun a => if a = .Pk then some (.S pk) else none

/-- The items of a table, by partition key. -/
abbrev Items (T : Type) : Type := OrderedMap T (Item T)

/-! ## Expressions -/

/-- The comparisons the store uses. -/
inductive Comparator
  | Eq
  | Le
  | Gt

/-- A condition expression, with its names and values filled in. -/
inductive Condition (T : Type)
  | NotExists (a : Attribute)
  | Compare (a : Attribute) (c : Comparator) (v : AttributeValue T)
  | And (p q : Condition T)
  | Or (p q : Condition T)

/-- The right-hand side of a `SET`. -/
inductive Operand (T : Type)
  | Value (v : AttributeValue T)
  | IfNotExists (a : Attribute) (v : AttributeValue T)
  | Plus (x y : Operand T)

/-- An update expression: the attributes it sets, and those it removes. -/
structure Update (T : Type) where
  set : List (Attribute × Operand T)
  remove : List Attribute

/-- Values of different types are never equal and never ordered. -/
def Comparator.holds [DecidableEq T] : Comparator → AttributeValue T → AttributeValue T → Bool
  | .Eq, x, y => x = y
  | .Le, .N x, .N y => x ≤ y
  | .Gt, .N x, .N y => x > y
  | _, _, _ => false

/-- The value of a condition on an item.  A comparison with an attribute that is missing is false. -/
def Condition.holds [DecidableEq T] (item : Item T) : Condition T → Bool
  | .NotExists a => (item a).isNone
  | .Compare a c v =>
      match item a with
      | none => false
      | some x => c.holds x v
  | .And p q => p.holds item && q.holds item
  | .Or p q => p.holds item || q.holds item

@[simp] lemma Condition.holds_and [DecidableEq T] (item : Item T) (p q : Condition T) :
    (Condition.And p q).holds item = (p.holds item && q.holds item) := rfl

@[simp] lemma Condition.holds_or [DecidableEq T] (item : Item T) (p q : Condition T) :
    (Condition.Or p q).holds item = (p.holds item || q.holds item) := rfl

/-- The value of an operand; `none` where numbers are added that are none. -/
def Operand.eval (item : Item T) : Operand T → Option (AttributeValue T)
  | .Value v => some v
  | .IfNotExists a v => some ((item a).getD v)
  | .Plus x y =>
      match x.eval item, y.eval item with
      | some (.N m), some (.N n) => some (.N (m + n))
      | _, _ => none

@[simp] lemma Operand.eval_value (item : Item T) (v : AttributeValue T) :
    (Operand.Value v).eval item = some v := rfl

/-- The item with one attribute written. -/
def Item.set (item : Item T) (a : Attribute) (v : AttributeValue T) : Item T :=
  fun b => if b = a then some v else item b

/-- The assignments in turn; every operand is read from the item before the update. -/
def Update.assign (old : Item T) : List (Attribute × Operand T) → Item T → Option (Item T)
  | [], item => some item
  | (a, x) :: rest, item => (x.eval old).bind fun v => assign old rest (item.set a v)

/-- The item after the update; `none` where an operand has no value. -/
def Update.apply (u : Update T) (pk : T) (old : Option (Item T)) : Option (Item T) :=
  let before := old.getD Item.absent
  (Update.assign before u.set (old.getD (Item.keyed pk))).map fun item b =>
    if b ∈ u.remove then none else item b

/-! ## Requests -/

/-- The errors of a request: a condition that failed, with the old item, and one that is not valid. -/
inductive WriteError (T : Type)
  | ConditionalCheckFailed (item : Option (Item T))
  | Validation

variable [DecidableEq T]

/-- A conditional `UpdateItem` that returns the new item (`ALL_NEW`). -/
def updateItem (items : Items T) (pk : T) (cond : Condition T) (u : Update T) :
    Except (WriteError T) (Item T) × Items T :=
  let old := items.get pk
  if cond.holds (old.getD Item.absent) then
    match u.apply pk old with
    | none => (.error .Validation, items)
    | some item => (.ok item, items.set pk item)
  else (.error (.ConditionalCheckFailed old), items)

/-- A `DeleteItem`, conditional or not. -/
def deleteItem (items : Items T) (pk : T) (cond : Option (Condition T)) :
    Except (WriteError T) Unit × Items T :=
  let old := items.get pk
  if cond.all fun c => c.holds (old.getD Item.absent) then (.ok (), items.delete pk)
  else (.error (.ConditionalCheckFailed old), items)

/-- A consistent `GetItem`. -/
def getItem (items : Items T) (pk : T) : Option (Item T) := items.get pk

end

end Anyonce
