import Fieldwork.Ordered
import Fieldwork.Text.Hex

/-!
# TOML Values

What a TOML file holds.

A file may hold values that nobody asks for, so no more is demanded of a value
than that it is written like one. Numbers, dates and times keep their
spelling. Which number a whole number is, and whether it is one at all, is
found out by whoever wants it; numbers with a fraction, dates and times only
have to be told from what is wanted.

## Main definitions

* `Toml.Whole`: A whole number as it is spelled.
* `Toml.Whole.value?`: The number that it is.
* `Toml`: A value.
* `Toml.string?`, `Toml.integer?`, `Toml.boolean?`: The value as one of a kind.
-/

namespace Fieldwork

namespace Toml

/-- Whether a character is a digit in a base of at most sixteen. -/
def isDigitOf (base : Nat) (c : Char) : Bool :=
  (Hex.digit? c).any (· < base)

/-- The number that digits write in a base. -/
def inBase (base : Nat) (digits : List Char) : Nat :=
  digits.foldl (fun n c => base * n + (Hex.digit? c).getD 0) 0

/-- A whole number as it is spelled, without the mark of its base and without
    underscores. -/
structure Whole where
  /-- The base. -/
  base : Nat
  /-- The digits, behind a sign if there is one. -/
  spelling : List Char

namespace Whole

/-- The number that digits write, if there are some and all belong to the
    base. -/
def magnitude? (base : Nat) (digits : List Char) : Option Nat :=
  if !digits.isEmpty && digits.all (isDigitOf base) then some (inBase base digits) else none

/-- The number that is spelled. -/
def value? (number : Whole) : Option Int :=
  match number.spelling with
  | '-' :: digits => (magnitude? number.base digits).map fun n => -(n : Int)
  | '+' :: digits => (magnitude? number.base digits).map Int.ofNat
  | digits => (magnitude? number.base digits).map Int.ofNat

end Whole

end Toml

/-- A value of a TOML file. -/
inductive Toml where
  /-- One of the two truth values. -/
  | boolean (value : Bool)
  /-- A whole number, as it is spelled. -/
  | integer (number : Toml.Whole)
  /-- A number with a fraction, as it is spelled. -/
  | float (spelling : String)
  /-- A date, a time or both, as it is spelled. -/
  | moment (spelling : String)
  /-- A text. -/
  | string (value : String)
  /-- A sequence of values. -/
  | array (items : List Toml)
  /-- Values under different keys. -/
  | table (entries : List (String × Toml))
  deriving Inhabited

namespace Toml

/-- The value as a truth value. -/
def boolean? : Toml → Option Bool
  | boolean value => some value
  | _ => none

/-- The value as an integer. -/
def integer? : Toml → Option Int
  | integer number => number.value?
  | _ => none

/-- The value as a text. -/
def string? : Toml → Option String
  | string value => some value
  | _ => none

end Toml

end Fieldwork
