import Fieldwork.Json.Number
import Fieldwork.Ordered

/-!
# JSON Values

The values that documents, parameters and audit lines are made of.

Members of an object keep the order in which they were first written. The
type lets a key occur twice, because a nested type cannot carry the proof that
none does; `DistinctKeys` says it, and the reader builds only values that have
it.

## Main definitions

* `Json`: A JSON value.
* `Json.DistinctKeys`: No object, at any depth, has a key twice.
* `Json.depth`: How deep arrays and objects nest.
* `Json.isFalsy`: The values that a read replaces by its default.
* `Json.isSame`: Whether two values are one.
-/

namespace Fieldwork

/-- A JSON value. -/
inductive Json where
  /-- The literal `null`. -/
  | null
  /-- One of the two truth values. -/
  | bool (value : Bool)
  /-- A number, kept as it was written: integer or binary64. -/
  | number (value : Number)
  /-- A text. -/
  | string (value : String)
  /-- A sequence of values. -/
  | array (items : List Json)
  /-- Values under keys, in the order in which the keys were written. -/
  | object (members : List (String × Json))
  deriving Inhabited

namespace Json

/-- An integer that fits a word. -/
def ofUInt64 (n : UInt64) : Json :=
  number (.integer (.ofUInt64 n))

/-- A signed integer that fits a word. -/
def ofInt64 (n : Int64) : Json :=
  number (.integer (.ofInt64 n))

/-- The text of a string. -/
def string? : Json → Option String
  | string value => some value
  | _ => none

/-- The members of an object. -/
def object? : Json → Option (List (String × Json))
  | object members => some members
  | _ => none

/-- A member of an object. -/
def member? (key : String) : Json → Option Json
  | object members => members.lookup key
  | _ => none

/-- The value as an unsigned word. -/
def uint64? : Json → Option UInt64
  | number value => value.uint64?
  | _ => none

/-- A value counts as absent when it is `null`, false, zero, or empty. -/
def isFalsy : Json → Bool
  | null => true
  | bool value => !value
  | number value => value.isZero
  | string value => value.isEmpty
  | array items => items.isEmpty
  | object members => members.isEmpty

mutual

/-- How deep arrays and objects nest: none for a scalar, one for an array of
    scalars. -/
def depth : Json → Nat
  | array items => depthOfItems items + 1
  | object members => depthOfMembers members + 1
  | _ => 0

/-- The greatest depth of a list of values. -/
def depthOfItems : List Json → Nat
  | [] => 0
  | item :: rest => max item.depth (depthOfItems rest)

/-- The greatest depth of the values of a list of members. -/
def depthOfMembers : List (String × Json) → Nat
  | [] => 0
  | (_, value) :: rest => max value.depth (depthOfMembers rest)

end

mutual

/-- No object, at any depth, has a key twice. -/
def DistinctKeys : Json → Prop
  | array items => DistinctKeysInItems items
  | object members => Ordered.Distinct members ∧ DistinctKeysInMembers members
  | _ => True

/-- Every value of a list has distinct keys. -/
def DistinctKeysInItems : List Json → Prop
  | [] => True
  | item :: rest => item.DistinctKeys ∧ DistinctKeysInItems rest

/-- Every value of a list of members has distinct keys. -/
def DistinctKeysInMembers : List (String × Json) → Prop
  | [] => True
  | (_, value) :: rest => value.DistinctKeys ∧ DistinctKeysInMembers rest

end

mutual

/-- Whether two values are one. -/
def isSame : Json → Json → Bool
  | null, null => true
  | bool a, bool b => a == b
  | number a, number b => a == b
  | string a, string b => a == b
  | array as, array bs => isSameItems as bs
  | object as, object bs => isSameMembers as bs
  | _, _ => false

/-- Whether two lists of values are one. -/
def isSameItems : List Json → List Json → Bool
  | [], [] => true
  | a :: as, b :: bs => a.isSame b && isSameItems as bs
  | _, _ => false

/-- Whether two lists of members are one. -/
def isSameMembers : List (String × Json) → List (String × Json) → Bool
  | [], [] => true
  | (key, a) :: as, (other, b) :: bs => key == other && a.isSame b && isSameMembers as bs
  | _, _ => false

end

mutual

theorem isSame_iff (a b : Json) : a.isSame b = true ↔ a = b := by
  match a with
  | null | bool _ | number _ | string _ => cases b <;> simp [isSame]
  | array items => cases b <;> simp [isSame, isSameItems_iff items]
  | object members => cases b <;> simp [isSame, isSameMembers_iff members]

theorem isSameItems_iff (as bs : List Json) : isSameItems as bs = true ↔ as = bs := by
  match as with
  | [] => cases bs <;> simp [isSameItems]
  | a :: rest => cases bs <;> simp [isSameItems, isSame_iff a, isSameItems_iff rest]

theorem isSameMembers_iff (as bs : List (String × Json)) :
    isSameMembers as bs = true ↔ as = bs := by
  match as with
  | [] => cases bs <;> simp [isSameMembers]
  | (key, a) :: rest =>
    cases bs <;> simp [isSameMembers, isSame_iff a, isSameMembers_iff rest, Prod.ext_iff]

end

instance : DecidableEq Json := fun a b => decidable_of_iff _ (isSame_iff a b)

end Json

end Fieldwork
