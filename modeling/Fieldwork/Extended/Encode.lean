import Fieldwork.Extended.Decode

/-!
# Encoding Extended JSON

From extended values to JSON values.

Each value has one canonical form. Binary data is always written in the newer
form, a moment as text where its year has four digits, and as milliseconds
where it has not; a universally unique identifier is binary data like any
other.

## Main definitions

* `Extended.toJson`: The canonical form of a value.

## Theorems

* `toJson_array`, `toJson_object`: Containers are written item by item.
-/

namespace Fieldwork

/-- An object with one reserved key. -/
def Wrapper.wrap (wrapper : Wrapper) (payload : Json) : Json :=
  .object [(wrapper.key, payload)]

namespace Extended

/-- The numeral of an integer, as a wrapper of a 64-bit integer. -/
def longJson (n : Int) : Json :=
  Wrapper.long.wrap (.string (String.ofList (Numeral.ofInt n)))

/-- The payload of a moment. -/
def dateJson (m : Moment) : Json :=
  match m.text? with
  | some text => .string (String.ofList text)
  | none => longJson m.unixMillis

/-- The payload of binary data. -/
def binaryJson (data : Binary) : Json :=
  .object [("base64", .string (String.ofList (Base64.encode data.bytes))),
    ("subType", .string (String.ofList (Hex.pair data.subtype)))]

mutual

/-- The canonical form of a value. -/
def toJson : Extended → Json
  | null => .null
  | bool value => .bool value
  | number value => .number value
  | string value => .string value
  | array items => .array (itemsToJson items)
  | object members => .object (membersToJson members)
  | date m => Wrapper.date.wrap (dateJson m)
  | objectId oid => Wrapper.objectId.wrap (.string oid.text)
  | binary data => Wrapper.binary.wrap (binaryJson data)
  | long n => longJson n.toInt

/-- The canonical forms of a list of values. -/
def itemsToJson : List Extended → List Json
  | [] => []
  | item :: rest => item.toJson :: itemsToJson rest

/-- The canonical forms of a list of members. -/
def membersToJson : List (String × Extended) → List (String × Json)
  | [] => []
  | (key, value) :: rest => (key, value.toJson) :: membersToJson rest

end

/-- An array is written item by item. -/
theorem toJson_array (items : List Extended) :
    (array items).toJson = .array (itemsToJson items) := by
  rw [toJson]

/-- An object is written member by member. -/
theorem toJson_object (members : List (String × Extended)) :
    (object members).toJson = .object (membersToJson members) := by
  rw [toJson]

end Extended

end Fieldwork
