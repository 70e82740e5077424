import Fieldwork.Proofs.Extended.RoundTrip
import Fieldwork.Proofs.Extended.WellWrapped

/-!
# Plain JSON

Values without wrappers pass through decoding untouched.

A filter is mostly plain JSON: comparisons, operators whose names begin like
reserved keys, objects in which a reserved key is one among others. None of it
is a wrapper, so none of it may be refused, dropped, moved or changed. A plain
value has a form among the extended values in which nothing but the type is
different; it is decoded to that form, and that form is written as the value.

## Main definitions

* `Json.Plain`: No object, at any depth, has the keys of a wrapper.
* `Json.lifted`: The same value among the extended values.

## Theorems

* `ofJson_of_plain`: A plain value is decoded to the same value.
* `toJson_lifted`: The same value is written as it was.
* `decode_of_plain`: Plain JSON passes through untouched.
-/

namespace Fieldwork

namespace Json

mutual

/-- No object, at any depth, has the keys of a wrapper. -/
def Plain : Json → Prop
  | array items => PlainItems items
  | object members => ¬ WrapperShape.Shaped (Ordered.keys members) ∧ PlainMembers members
  | _ => True

/-- Every value of a list is plain. -/
def PlainItems : List Json → Prop
  | [] => True
  | item :: rest => item.Plain ∧ PlainItems rest

/-- Every value of a list of members is plain. -/
def PlainMembers : List (String × Json) → Prop
  | [] => True
  | (_, value) :: rest => value.Plain ∧ PlainMembers rest

end

mutual

/-- The same value among the extended values. -/
def lifted : Json → Extended
  | null => .null
  | bool value => .bool value
  | number value => .number value
  | string value => .string value
  | array items => .array (liftedItems items)
  | object members => .object (liftedMembers members)

/-- The same values among the extended values. -/
def liftedItems : List Json → List Extended
  | [] => []
  | item :: rest => item.lifted :: liftedItems rest

/-- The same members among the extended values. -/
def liftedMembers : List (String × Json) → List (String × Extended)
  | [] => []
  | (key, value) :: rest => (key, value.lifted) :: liftedMembers rest

end

end Json

namespace Extended

mutual

/-- A plain value is decoded to the same value. -/
theorem ofJson_of_plain {j : Json} (h : j.Plain) : ofJson j = .ok j.lifted := by
  cases j with
  | array items =>
    rw [ofJson, ofItems_of_plain h]
    rfl
  | object members =>
    rcases h with ⟨hplain, hmembers⟩
    rw [ofJson, (WrapperShape.ofMembers?_eq_none_iff members).2 hplain,
      ofMembers_of_plain hmembers]
    rfl
  | null => rfl
  | bool value => rfl
  | number value => rfl
  | string value => rfl

theorem ofItems_of_plain {items : List Json} (h : Json.PlainItems items) :
    ofItems items = .ok (Json.liftedItems items) := by
  cases items with
  | nil => rfl
  | cons item rest => rw [ofItems, ofJson_of_plain h.1, ofItems_of_plain h.2, Json.liftedItems]

theorem ofMembers_of_plain {members : List (String × Json)} (h : Json.PlainMembers members) :
    ofMembers members = .ok (Json.liftedMembers members) := by
  cases members with
  | nil => rfl
  | cons member rest =>
    rcases member with ⟨key, value⟩
    rw [ofMembers, ofJson_of_plain h.1, ofMembers_of_plain h.2, Json.liftedMembers]

end

mutual

/-- A value is written as it was, plain or not. -/
theorem toJson_lifted (j : Json) : j.lifted.toJson = j := by
  cases j with
  | array items => rw [Json.lifted, toJson, itemsToJson_liftedItems items]
  | object members => rw [Json.lifted, toJson, membersToJson_liftedMembers members]
  | null => rfl
  | bool value => rfl
  | number value => rfl
  | string value => rfl

theorem itemsToJson_liftedItems (items : List Json) :
    itemsToJson (Json.liftedItems items) = items := by
  cases items with
  | nil => rfl
  | cons item rest =>
    rw [Json.liftedItems, itemsToJson, toJson_lifted item, itemsToJson_liftedItems rest]

theorem membersToJson_liftedMembers (members : List (String × Json)) :
    membersToJson (Json.liftedMembers members) = members := by
  cases members with
  | nil => rfl
  | cons member rest =>
    rcases member with ⟨key, value⟩
    rw [Json.liftedMembers, membersToJson, toJson_lifted value, membersToJson_liftedMembers rest]

end

/-- Plain JSON passes through untouched: a value in which no object has the
    keys of a wrapper is decoded, to a value in which nothing is different, and
    that is written as the value that it was. -/
theorem decode_of_plain (j : Json) (h : j.Plain) :
    ∃ v, decode j = .ok v ∧ v = j.lifted ∧ v.toJson = j :=
  ⟨j.lifted, decode_eq_ok_iff.2 (ofJson_of_plain h), rfl, toJson_lifted j⟩

/-- Reserved keys among others, operators, and containers that are empty. -/
theorem decode_of_plain_nearMisses :
    let j : Json := .object [("at", .object [("$date", .ofInt64 1), ("x", .null)]),
      ("kind", .object [("$type", .string "string")]),
      ("bytes", .object [("$binary", .string "AQI="), ("x", .array [])]),
      ("$and", .array [.object [], .object [("$gt", .ofInt64 5)]])]
    j.Plain ∧ ∃ v, decode j = .ok v ∧ v = j.lifted ∧ v.toJson = j := by
  intro j
  have hplain : j.Plain := by
    simp only [j, Json.ofInt64, Json.Plain, Json.PlainMembers, Json.PlainItems, Ordered.keys,
      List.map_cons, List.map_nil, and_true]
    decide
  exact ⟨hplain, decode_of_plain j hplain⟩

end Extended

end Fieldwork
