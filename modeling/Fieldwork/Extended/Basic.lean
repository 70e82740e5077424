import Fieldwork.Json.Basic
import Fieldwork.Moment.Basic
import Fieldwork.Text.Hex

/-!
# Extended JSON Values

JSON with four more kinds of scalar: moments, object identifiers, binary data
and 64-bit integers.

A filter over stored submissions has to say "this instant" and "these bytes",
for which plain JSON has no literal. Extended JSON writes each of them as a
small object with a reserved key, a wrapper. Once such a text is decoded no
wrapper is left: what it stood for is a value of its own kind, and an object
is only ever an object.

## Main definitions

* `ObjectId`: Twelve bytes, written as hexadecimal digits.
* `Binary`: Bytes with a subtype.
* `Extended`: A value of extended JSON.
-/

namespace Fieldwork

/-- An identifier of twelve bytes. -/
@[ext]
structure ObjectId where
  /-- The bytes. -/
  bytes : List UInt8
  /-- There are twelve. -/
  length_eq : bytes.length = 12
  deriving DecidableEq

namespace ObjectId

/-- The identifier of these bytes, if there are twelve. -/
def ofBytes? (bytes : List UInt8) : Option ObjectId :=
  if h : bytes.length = 12 then some ⟨bytes, h⟩ else none

/-- The lower-case hexadecimal digits of an identifier. -/
def text (oid : ObjectId) : String :=
  String.ofList (Hex.encode oid.bytes)

/-- The identifier of a hexadecimal text of twelve bytes. -/
def ofText? (text : String) : Option ObjectId :=
  (Hex.decode? text.toList).bind ofBytes?

end ObjectId

/-- Bytes with a subtype that says what they hold. -/
@[ext]
structure Binary where
  /-- What the bytes hold. -/
  subtype : UInt8
  /-- The bytes. -/
  bytes : List UInt8
  deriving DecidableEq

/-- The subtype of a universally unique identifier. -/
def Binary.uuidSubtype : UInt8 := 4

/-- A value of extended JSON. -/
inductive Extended where
  /-- The literal `null`. -/
  | null
  /-- One of the two truth values. -/
  | bool (value : Bool)
  /-- A plain number. -/
  | number (value : Number)
  /-- A text. -/
  | string (value : String)
  /-- A sequence of values. -/
  | array (items : List Extended)
  /-- Values under keys, in the order in which the keys were written. -/
  | object (members : List (String × Extended))
  /-- A moment. -/
  | date (moment : Moment)
  /-- An object identifier. -/
  | objectId (oid : ObjectId)
  /-- Binary data. -/
  | binary (data : Binary)
  /-- An integer that has to keep its 64 bits. -/
  | long (value : Int64)

namespace Extended

/-- The filter that lets everything through. -/
def empty : Extended :=
  object []

instance : Inhabited Extended := ⟨empty⟩

/-- The members of an object. -/
def object? : Extended → Option (List (String × Extended))
  | object members => some members
  | _ => none

/-- The items of an array. -/
def array? : Extended → Option (List Extended)
  | array items => some items
  | _ => none

/-- The text of a string. -/
def string? : Extended → Option String
  | string value => some value
  | _ => none

/-- The signed word of an integer, plain or wrapped. -/
def int64? : Extended → Option Int64
  | number value => value.int64?
  | long value => some value
  | _ => none

end Extended

end Fieldwork
