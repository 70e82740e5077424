import Fieldwork.Binary64.Scaled
import Fieldwork.Text.Numeral

/-!
# JSON Numbers

What a number of a JSON text stands for, and how it is written.

A number without fraction and exponent is kept as an integer when a 64-bit
word, signed or unsigned, can hold it. Every other number, and the negative
zero, is a binary64 number. The two kinds stay apart: `100` and `1e2` are
different numbers here, because each is written again as what it was.

Binary64 numbers are written with the fewest digits that read back,
positionally for moderate exponents and in scientific notation beyond them,
always with a fraction or an exponent, so that they are read as binary64
again.

## Main definitions

* `Word`: An integer of a signed or an unsigned 64-bit word.
* `Number`: An integer or a binary64 number.
* `NumberToken`: The parts of a number as written.
* `NumberToken.ofChars?`: The grammar of JSON numbers.
* `Number.ofToken?`: What a token stands for.
* `Number.text`: How a number is written.

## Theorems

* `ofToken?_integer`: A token of a word stands for that word.
-/

namespace Fieldwork

/-- An integer that fits a signed or an unsigned 64-bit word. -/
structure Word where
  /-- The integer. -/
  val : Int
  /-- No less than the least signed word. -/
  lower : -0x8000000000000000 ≤ val
  /-- Less than the count of unsigned words. -/
  upper : val < 0x10000000000000000
  deriving DecidableEq

namespace Word

/-- The word of an integer that fits one. -/
def ofInt? (n : Int) : Option Word :=
  if h : -0x8000000000000000 ≤ n ∧ n < 0x10000000000000000 then some ⟨n, h.1, h.2⟩ else none

/-- An unsigned word. -/
def ofUInt64 (n : UInt64) : Word :=
  ⟨n.toNat, by omega, by have := n.toNat_lt; omega⟩

/-- A signed word. -/
def ofInt64 (n : Int64) : Word :=
  ⟨n.toInt, by have := n.le_toInt; omega, by have := n.toInt_lt; omega⟩

end Word

/-- A number of a JSON text. -/
inductive Number where
  /-- An integer that fits a word. -/
  | integer (n : Word)
  /-- Any other number, and the negative zero. -/
  | float (x : Binary64)
  deriving DecidableEq

namespace Number

/-- The number as a signed word, if it is an integer that fits one. -/
def int64? : Number → Option Int64
  | integer n => if n.val < 0x8000000000000000 then some (Int64.ofInt n.val) else none
  | float _ => none

/-- The number as an unsigned word, if it is an integer that fits one. -/
def uint64? : Number → Option UInt64
  | integer n => if 0 ≤ n.val then some (UInt64.ofNat n.val.toNat) else none
  | float _ => none

/-- Whether the number is zero, of either kind and sign. -/
def isZero : Number → Bool
  | integer n => n.val == 0
  | float x => x.isZero

end Number

/-- The parts of a number as written. -/
structure NumberToken where
  /-- A minus sign stands in front. -/
  negative : Bool
  /-- The digits before the point. -/
  whole : List Char
  /-- The digits after the point, none if there is no point. -/
  fraction : List Char
  /-- The exponent, if one is written. -/
  exponent : Option Int
  deriving DecidableEq

namespace NumberToken

/-- The digits before the point: at least one, and no zero in front of
    another. -/
def whole? (cs : List Char) : Option (List Char × List Char) :=
  match cs.takeWhile Char.isDigit with
  | [] => none
  | '0' :: _ :: _ => none
  | digits => some (digits, cs.dropWhile Char.isDigit)

/-- A point has at least one digit after it. -/
def fraction? : List Char → Option (List Char × List Char)
  | '.' :: cs =>
    match cs.takeWhile Char.isDigit with
    | [] => none
    | digits => some (digits, cs.dropWhile Char.isDigit)
  | cs => some ([], cs)

/-- An exponent takes the rest of the token. -/
def exponent? : List Char → Option (Option Int)
  | [] => some none
  | 'e' :: cs => (Numeral.signed? cs).map some
  | 'E' :: cs => (Numeral.signed? cs).map some
  | _ => none

/-- The grammar of JSON numbers. -/
def ofChars? (cs : List Char) : Option NumberToken := do
  let (negative, cs) := match cs with
    | '-' :: rest => (true, rest)
    | rest => (false, rest)
  let (whole, cs) ← whole? cs
  let (fraction, cs) ← fraction? cs
  let exponent ← exponent? cs
  some ⟨negative, whole, fraction, exponent⟩

/-- The integer that a token without fraction and exponent names. The
    negative zero is none. -/
def integer? (token : NumberToken) : Option Int :=
  if token.fraction.isEmpty && token.exponent.isNone then
    let n := Nat.ofDigitChars 10 token.whole 0
    -- An integer has no negative zero, so that token is left to binary64.
    if token.negative then if n = 0 then none else some (-n) else some n
  else none

/-- The decimal that a token names, its sign apart. -/
def decimal (token : NumberToken) : Decimal :=
  ⟨Nat.ofDigitChars 10 (token.whole ++ token.fraction) 0,
    token.exponent.getD 0 - token.fraction.length⟩

/-- Puts digits behind a number as long as an unsigned word holds the result:
    the number then, and the digits that are left. -/
def gather (n : Nat) : List Char → Nat × List Char
  | [] => (n, [])
  | c :: rest =>
    let next := n * 10 + (c.toNat - '0'.toNat)
    if next < 0x10000000000000000 then gather next rest else (n, c :: rest)

/-- The decimal of the digits that a word holds. A digit before the point that
    is left out still counts as a place, one behind the point does not. -/
def gathered (token : NumberToken) : Decimal :=
  let (whole, beyond) := gather 0 token.whole
  let (digits, rest) := gather whole token.fraction
  ⟨digits, beyond.length - (token.fraction.length - rest.length : Nat)⟩

/-- The greatest exponent that is added up. -/
def exponentLimit : Nat := 0x7fffffff

/-- The binary64 number that a token is read as. An exponent beyond the limit
    is not looked at further: it makes a zero, or is refused. -/
def binary64? (token : NumberToken) : Option Binary64 :=
  let d := token.gathered
  let exponent := token.exponent.getD 0
  if exponent.natAbs ≤ exponentLimit then
    Binary64.ofScaled? token.negative ⟨d.digits, d.exponent + exponent⟩
  else if d.digits = 0 ∨ exponent < 0 then some (.zero token.negative)
  else none

end NumberToken

namespace Number

/-- What a token stands for, unless it is beyond binary64. -/
def ofToken? (token : NumberToken) : Option Number :=
  match token.integer?.bind Word.ofInt? with
  | some n => some (integer n)
  | none => token.binary64?.map float

/-- A decimal in positional notation, with a digit on either side of the
    point. -/
def positional (digits : List Char) (exponent : Int) : List Char :=
  let point := digits.length + exponent
  if 0 ≤ exponent then digits ++ List.replicate exponent.toNat '0' ++ ['.', '0']
  else if 0 < point then digits.take point.toNat ++ '.' :: digits.drop point.toNat
  else '0' :: '.' :: List.replicate (-point).toNat '0' ++ digits

/-- A decimal in scientific notation, `d.ddd` times ten to the `e`. The
    exponent always has a sign and no zeros in front. -/
def scientific (digits : List Char) (e : Int) : List Char :=
  digits.take 1 ++ (if digits.length ≤ 1 then [] else '.' :: digits.drop 1) ++
    'e' :: (if e < 0 then '-' else '+') :: Nat.toDigits 10 e.natAbs

/-- The least and the greatest decimal exponent that is written positionally. -/
def positionalExponents : Int × Int :=
  (-5, 15)

/-- The magnitude of a binary64 number with the fewest digits. -/
def magnitudeText (x : Binary64) : List Char :=
  if x.isZero then ['0', '.', '0']
  else
    let d := x.shortest
    let digits := Nat.toDigits 10 d.digits
    let e : Int := digits.length - 1 + d.exponent
    if positionalExponents.1 ≤ e ∧ e ≤ positionalExponents.2 then positional digits d.exponent
    else scientific digits e

/-- How a number is written. -/
def text : Number → List Char
  | integer n => Numeral.ofInt n.val
  | float x => if x.negative then '-' :: magnitudeText x else magnitudeText x

/-- A token of a word stands for that word. -/
theorem ofToken?_integer {token : NumberToken} {n : Int} {w : Word} (h : token.integer? = some n)
    (hw : Word.ofInt? n = some w) : ofToken? token = some (integer w) := by
  simp [ofToken?, h, hw]

end Number

end Fieldwork
