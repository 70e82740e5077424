/-!
# Bytes Shown as Text

The bytes of a text, and the text that is shown for bytes.

Bytes need not be a text. Where they are, they are read character by character.
Where they are not, a character that breaks off is shown as one replacement,
however many of its bytes were there, and so is each byte that begins no
character. In this way every sequence of bytes is shown as some text, but
different ones may be shown as the same.

The first byte of a character says how many are to come and between what the
next of them has to be. This leaves out what is longer than it need be, the
numbers that are no characters, and those that are too large.

## Main definitions

* `bytesOf`: The bytes of a text.
* `Utf8Phase`: Where a reader of bytes is.
* `Utf8Phase.step`: A byte more.
* `shownText`: The text that is shown for bytes.
-/

namespace Fieldwork

/-- The bytes of a text. -/
def bytesOf (text : String) : List UInt8 :=
  text.toUTF8.data.toList

/-- Where a reader of bytes is. -/
inductive Utf8Phase where
  /-- Between two characters. -/
  | between
  /-- In a character, with its number so far. The next byte has to be one from
      `low` to `high`, and after it come some `more`. -/
  | inside (number more low high : Nat)

namespace Utf8Phase

/-- What is shown for bytes that are no text. -/
def replacement : Char := Char.ofNat 0xFFFD

/-- A byte between two characters: what it shows, and where it leads. -/
def first (byte : UInt8) : List Char × Utf8Phase :=
  let n := byte.toNat
  if n < 0x80 then ([Char.ofNat n], between)
  else if n < 0xC2 then ([replacement], between)
  else if n < 0xE0 then ([], inside (n - 0xC0) 0 0x80 0xBF)
  else if n < 0xF0 then
    -- Numbers that need one byte less are left out, and those of surrogates.
    ([], inside (n - 0xE0) 1 (if n = 0xE0 then 0xA0 else 0x80) (if n = 0xED then 0x9F else 0xBF))
  else if n < 0xF5 then
    ([], inside (n - 0xF0) 2 (if n = 0xF0 then 0x90 else 0x80) (if n = 0xF4 then 0x8F else 0xBF))
  else ([replacement], between)

/-- A byte more: what it shows, and where it leads. -/
def step (phase : Utf8Phase) (byte : UInt8) : List Char × Utf8Phase :=
  match phase with
  | between => first byte
  | inside number more low high =>
    if low ≤ byte.toNat ∧ byte.toNat ≤ high then
      let number := 64 * number + (byte.toNat - 0x80)
      match more with
      | 0 => ([Char.ofNat number], between)
      | more + 1 => ([], inside number more 0x80 0xBF)
    else
      -- The character breaks off, and the byte is looked at again.
      (replacement :: (first byte).1, (first byte).2)

/-- What is shown for the bytes that are left. -/
def shown (phase : Utf8Phase) : List UInt8 → List Char
  | [] =>
    match phase with
    | between => []
    | inside .. => [replacement]
  | byte :: rest => (phase.step byte).1 ++ shown (phase.step byte).2 rest

end Utf8Phase

/-- The text that is shown for bytes. -/
def shownText (bytes : List UInt8) : String :=
  String.ofList (Utf8Phase.between.shown bytes)

end Fieldwork
