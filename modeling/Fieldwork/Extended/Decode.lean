import Fieldwork.Extended.Basic
import Fieldwork.Extended.Error
import Fieldwork.Json.Text
import Fieldwork.Moment.Text
import Fieldwork.Text.Base64

/-!
# Decoding Extended JSON

From JSON values to extended values.

An object is a wrapper by its keys alone: one reserved key and no other, or
the two keys of the older form of binary data. A wrapper has to have a payload
of its kind; it is never taken for a plain object instead. What a wrapper
holds is not looked into for further wrappers.

Decoding goes through a value in document order and stops at the first wrapper
with an invalid payload.

## Main definitions

* `WrapperShape`: A wrapper, recognized by its keys.
* `WrapperShape.ofMembers?`: The wrapper that an object is, if it is one.
* `WrapperShape.literal`: What a wrapper stands for.
* `Extended.ofJson`, `Extended.parse`: Decoding of a value and of a text.

## Theorems

* `ofMembers?_wrapper`: An object with one reserved key is a wrapper.
-/

namespace Fieldwork

/-- A wrapper, recognized by its keys. -/
inductive WrapperShape where
  /-- One reserved key. -/
  | single (wrapper : Wrapper) (payload : Json)
  /-- The older form of binary data, with the subtype beside the text. -/
  | typedBinary (payload subtype : Json)

namespace WrapperShape

/-- The key of the subtype in the older form of binary data. -/
def typeKey : String := "$type"

/-- The wrapper that the members of an object make, if they make one. -/
def ofMembers? : List (String × Json) → Option WrapperShape
  | [(key, payload)] => (Wrapper.ofKey? key).map fun wrapper => single wrapper payload
  -- The order of the two keys does not matter.
  | [(key, value), (key', value')] =>
    if key = Wrapper.binary.key ∧ key' = typeKey then some (typedBinary value value')
    else if key = typeKey ∧ key' = Wrapper.binary.key then some (typedBinary value' value)
    else none
  | _ => none

/-- An object with one reserved key is a wrapper. -/
theorem ofMembers?_wrapper (wrapper : Wrapper) (payload : Json) :
    ofMembers? [(wrapper.key, payload)] = some (single wrapper payload) := by
  simp [ofMembers?, Wrapper.ofKey?_key]

end WrapperShape

namespace Extended

/-- The signed word of a numeral in a string. -/
def longOf (within : Wrapper) (payload : Json) : Except LiteralError Int64 :=
  match payload.string?.bind fun text => Numeral.int64? text.toList with
  | some n => .ok n
  | none => .error (.long within)

/-- The moment of a count of milliseconds. -/
def dateOfMillis (millis : Int64) : Except LiteralError Moment :=
  match Moment.ofUnixMillis? millis.toInt with
  | some m => .ok m
  | none => .error .dateRange

/-- The moment of a text, of milliseconds, or of wrapped milliseconds. -/
def dateOf : Json → Except LiteralError Moment
  | .string text =>
    match Moment.ofText? text.toList with
    | some m => .ok m
    | none => .error .dateText
  | .number n =>
    match n.int64? with
    | some millis => dateOfMillis millis
    | none => .error .dateMillis
  | .object [(key, payload)] =>
    if key = Wrapper.long.key then longOf .date payload >>= dateOfMillis
    else .error .datePayload
  | _ => .error .datePayload

/-- The identifier of a text of twelve bytes in hexadecimal. -/
def objectIdOfText (text : String) : Except LiteralError ObjectId :=
  match Hex.decode? text.toList with
  | none => .error .objectIdDigits
  | some bytes =>
    match ObjectId.ofBytes? bytes with
    | some oid => .ok oid
    | none => .error .objectIdLength

/-- The identifier of a payload. -/
def objectIdOf (payload : Json) : Except LiteralError ObjectId :=
  match payload.string? with
  | some text => objectIdOfText text
  | none => .error .objectIdPayload

/-- The byte offsets of the hyphens of a universally unique identifier. -/
def uuidHyphens : List Nat :=
  [8, 13, 18, 23]

/-- Whether hyphens stand at these byte offsets and nowhere else. -/
def hyphensAt (hyphens : List Nat) (offset : Nat) : List Char → Bool
  | [] => true
  | c :: rest =>
    (hyphens.contains offset == (c == '-')) && hyphensAt hyphens (offset + c.utf8Size) rest

/-- The bytes of a universally unique identifier: thirty-six bytes of text,
    hyphens in their places, and hexadecimal pairs once those are gone. -/
def uuidOf (payload : Json) : Except LiteralError Binary :=
  match payload.string? with
  | none => .error .uuidPayload
  | some text =>
    if text.utf8ByteSize = 36 ∧ hyphensAt uuidHyphens 0 text.toList then
      match Hex.decode? (text.toList.filter (· ≠ '-')) with
      | some bytes =>
        if bytes.length = 16 then .ok ⟨Binary.uuidSubtype, bytes⟩ else .error .uuidDigits
      | none => .error .uuidDigits
    else .error .uuidShape

/-- Binary data from its text and its subtype, which is looked at first. -/
def binaryOfParts (text : String) (subtype : Json) : Except LiteralError Binary :=
  match subtype.string?.bind fun digits => Hex.byte? digits.toList with
  | none => .error .binarySubtype
  | some subtype =>
    match Base64.decode? text.toList with
    | some bytes => .ok ⟨subtype, bytes⟩
    | none => .error .base64

/-- Binary data from an object with a text and a subtype. Other members are
    passed over. -/
def binaryOf (payload : Json) : Except LiteralError Binary :=
  match payload with
  | .object members =>
    match (members.lookup "base64").bind Json.string? with
    | none => .error .binaryTextMissing
    | some text =>
      match members.lookup "subType" with
      | none => .error .binarySubtypeMissing
      | some subtype => binaryOfParts text subtype
  | _ => .error .binaryPayload

/-- Binary data in the older form. -/
def typedBinaryOf (payload subtype : Json) : Except LiteralError Binary :=
  match payload.string? with
  | some text => binaryOfParts text subtype
  | none => .error .binaryText

end Extended

/-- What a wrapper stands for. -/
def WrapperShape.literal : WrapperShape → Except LiteralError Extended
  | single .date payload => Extended.date <$> Extended.dateOf payload
  | single .objectId payload => Extended.objectId <$> Extended.objectIdOf payload
  | single .uuid payload => Extended.binary <$> Extended.uuidOf payload
  | single .long payload => Extended.long <$> Extended.longOf .long payload
  | single .binary payload => Extended.binary <$> Extended.binaryOf payload
  | typedBinary payload subtype => Extended.binary <$> Extended.typedBinaryOf payload subtype

namespace Extended

mutual

/-- Decodes a value. -/
def ofJson : Json → Except LiteralError Extended
  | .null => .ok null
  | .bool value => .ok (bool value)
  | .number value => .ok (number value)
  | .string value => .ok (string value)
  | .array items => array <$> ofItems items
  | .object members =>
    match WrapperShape.ofMembers? members with
    -- A wrapper is decided by its payload alone, so an error here is final.
    | some shape => shape.literal
    | none => object <$> ofMembers members

/-- Decodes the items of an array in order. -/
def ofItems : List Json → Except LiteralError (List Extended)
  | [] => .ok []
  | item :: rest =>
    match ofJson item with
    | .error e => .error e
    | .ok value =>
      match ofItems rest with
      | .error e => .error e
      | .ok values => .ok (value :: values)

/-- Decodes the members of an object in order. -/
def ofMembers : List (String × Json) → Except LiteralError (List (String × Extended))
  | [] => .ok []
  | (key, item) :: rest =>
    match ofJson item with
    | .error e => .error e
    | .ok value =>
      match ofMembers rest with
      | .error e => .error e
      | .ok values => .ok ((key, value) :: values)

end

/-- Decodes a value, with the error of a text. -/
def decode (value : Json) : Except ExtendedError Extended :=
  (ofJson value).mapError .literal

/-- Decodes a text. -/
def parse (text : String) : Except ExtendedError Extended :=
  match Json.parse? text with
  | some value => decode value
  | none => .error .malformed

end Extended

end Fieldwork
