import Fieldwork.Message

/-!
# Errors of Extended JSON

Why a wrapper cannot be decoded.

## Main definitions

* `Wrapper`: The reserved keys.
* `LiteralError`: What is wrong with the payload of a wrapper.
* `ExtendedError`: What is wrong with a text.
-/

namespace Fieldwork

/-- The kinds of wrapper. -/
inductive Wrapper where
  /-- A moment. -/
  | date
  /-- An object identifier. -/
  | objectId
  /-- A universally unique identifier. -/
  | uuid
  /-- A 64-bit integer. -/
  | long
  /-- Binary data. -/
  | binary
  deriving DecidableEq

namespace Wrapper

/-- The key that is reserved for a wrapper. -/
def key : Wrapper → String
  | date => "$date"
  | objectId => "$oid"
  | uuid => "$uuid"
  | long => "$numberLong"
  | binary => "$binary"

/-- The wrapper of a reserved key. -/
def ofKey? (key : String) : Option Wrapper :=
  [date, objectId, uuid, long, binary].find? fun wrapper => wrapper.key = key

/-- A reserved key gives its wrapper. -/
theorem ofKey?_key (wrapper : Wrapper) : ofKey? wrapper.key = some wrapper := by
  cases wrapper <;> rfl

end Wrapper

/-- What is wrong with the payload of a wrapper. -/
inductive LiteralError where
  /-- A date text that is not in the format, or names no moment. -/
  | dateText
  /-- A number of milliseconds that is no integer. -/
  | dateMillis
  /-- Milliseconds of a year that is out of range. -/
  | dateRange
  /-- A date that is neither text nor milliseconds. -/
  | datePayload
  /-- An object identifier that is no text. -/
  | objectIdPayload
  /-- An object identifier that is not written in hexadecimal. -/
  | objectIdDigits
  /-- An object identifier of another length. -/
  | objectIdLength
  /-- A universally unique identifier that is no text. -/
  | uuidPayload
  /-- A universally unique identifier whose hyphens stand elsewhere. -/
  | uuidShape
  /-- A universally unique identifier that is not written in hexadecimal. -/
  | uuidDigits
  /-- A 64-bit integer that is no such numeral, by itself or as the
      milliseconds of a date. -/
  | long (within : Wrapper)
  /-- Binary data that is no object. -/
  | binaryPayload
  /-- Binary data without its text. -/
  | binaryTextMissing
  /-- Binary data without its subtype. -/
  | binarySubtypeMissing
  /-- Binary data in the older form whose payload is no text. -/
  | binaryText
  /-- A subtype that is not one hexadecimal byte. -/
  | binarySubtype
  /-- A text that is not in base64. -/
  | base64
  deriving DecidableEq

namespace LiteralError

/-- The wrapper that the error is blamed on. -/
def wrapper : LiteralError → Wrapper
  | dateText | dateMillis | dateRange | datePayload => .date
  | objectIdPayload | objectIdDigits | objectIdLength => .objectId
  | uuidPayload | uuidShape | uuidDigits => .uuid
  | long within => within
  | binaryPayload | binaryTextMissing | binarySubtypeMissing | binaryText | binarySubtype |
    base64 => .binary

/-- What the payload should have been. -/
def detail : LiteralError → String
  | dateText | dateRange | base64 => elided
  | dateMillis => "expected integer millis"
  | datePayload => "unsupported date payload"
  | objectIdPayload | uuidPayload => "expected a string"
  | objectIdDigits => "expected hexadecimal text"
  | objectIdLength => "expected 24 hex characters"
  | uuidShape => "expected canonical uuid text"
  | uuidDigits => "expected hexadecimal digits"
  | long _ => "expected a 64-bit integer string"
  | binaryPayload => "expected an object payload"
  | binaryTextMissing => "missing base64 payload"
  | binarySubtypeMissing => "missing subType"
  | binaryText => "expected base64 text"
  | binarySubtype => "subtype must be one hex byte"

end LiteralError

/-- What is wrong with a text of extended JSON. -/
inductive ExtendedError where
  /-- The text is not JSON. -/
  | malformed
  /-- A wrapper has an invalid payload. -/
  | literal (error : LiteralError)
  deriving DecidableEq

/-- The wording of an error. -/
def ExtendedError.message : ExtendedError → String
  | malformed => "invalid json: " ++ elided
  | literal error => "invalid " ++ error.wrapper.key ++ " literal: " ++ error.detail

end Fieldwork
