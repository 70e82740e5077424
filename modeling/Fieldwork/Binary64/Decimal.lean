import Fieldwork.Binary64.Basic

/-!
# Decimal Numbers

Numbers as decimal digits and a power of ten, and their passage to binary64
and back.

A decimal names a number exactly, so reading is one rounding of an exact
ratio. The passage back is defined through reading: of all roundings of the
exact decimal expansion to one digit, two digits and so on, down or up, it
takes the first that reads back as the number. The last candidate is the
expansion itself, so the search always ends with a decimal of the number.
That the result reads back is what the search tests; that no shorter decimal
does is why it starts at one digit.

## Main definitions

* `Decimal`: A whole number scaled by a power of ten.
* `Decimal.normalize`: Without zeros at the end of the digits.
* `Binary64.ofDecimal?`: The nearest number, unless it overflows.
* `Binary64.expansion`: The exact decimal expansion of a number.
* `Binary64.roundings`: The two neighbours with fewer digits.
* `Binary64.shortest`: The shortest decimal that reads back.

## Theorems

* `ofDecimal?_rounding?`: A rounding is given only when it reads back.
-/

namespace Fieldwork

/-- The number `digits · 10 ^ exponent`. -/
structure Decimal where
  /-- The digits, as a whole number. -/
  digits : Nat
  /-- The power of ten. -/
  exponent : Int
  deriving DecidableEq, Inhabited

namespace Decimal

/-- Moves zeros from the end of the digits to the exponent, at most `fuel` of
    them. -/
def stripZeros : (fuel : Nat) → Decimal → Decimal
  | 0, d => d
  | fuel + 1, d =>
    if d.digits % 10 = 0 then stripZeros fuel ⟨d.digits / 10, d.exponent + 1⟩ else d

/-- The same number without zeros at the end of its digits. A number below
    `2 ^ (n + 1)` has no more than `n` of them. -/
def normalize (d : Decimal) : Decimal :=
  if d.digits = 0 then ⟨0, 0⟩ else stripZeros d.digits.log2 d

end Decimal

namespace Binary64

/-- The number nearest to a decimal. Far outside of the format the answer is
    known from the exponents alone, so a power of ten is computed only when
    its size is bounded by that of the text it came from. -/
def ofDecimal? (negative : Bool) (d : Decimal) : Option Binary64 :=
  let ⟨digits, exponent⟩ := d.normalize
  if digits = 0 then some (zero negative)
  -- The greatest number is below 10 ^ 309 and half the least above 10 ^ (-325).
  else if 400 ≤ exponent then none
  else if (digits.log2 : Int) + 1 + exponent ≤ -400 then some (zero negative)
  else ofRatio? negative (digits * Nat.pow 10 exponent.toNat) (Nat.pow 10 (-exponent).toNat)

/-- The magnitude of a number in decimal, exactly: a negative power of two is
    a power of five over a power of ten. -/
def expansion (x : Binary64) : Decimal :=
  if 0 ≤ x.exponent then ⟨x.significand * Nat.pow 2 x.exponent.toNat, 0⟩
  else ⟨x.significand * Nat.pow 5 (-x.exponent).toNat, x.exponent⟩

/-- Whether a decimal reads as the number, signs apart. -/
def reads (x : Binary64) (d : Decimal) : Bool :=
  ofDecimal? x.negative d == some x

/-- The two roundings of a decimal that leave off `places` digits, the nearer
    one first. If both are equally near, the one whose last digit is even goes
    first. -/
def roundings (d : Decimal) (places : Nat) : List Decimal :=
  let unit := Nat.pow 10 places
  let below : Decimal := ⟨d.digits / unit, d.exponent + places⟩
  let above : Decimal := ⟨d.digits / unit + 1, d.exponent + places⟩
  let twice := 2 * (d.digits % unit)
  if twice < unit ∨ (twice = unit ∧ below.digits % 2 = 0) then [below, above]
  else [above, below]

/-- The nearest rounding with `places` digits left off that reads as the
    number, if one does. -/
def rounding? (x : Binary64) (d : Decimal) (places : Nat) : Option Decimal :=
  (roundings d places).find? x.reads

/-- Tries to leave off `places` digits, then one fewer, down to none. -/
def shortestFrom (x : Binary64) (d : Decimal) : (places : Nat) → Decimal
  | 0 => d
  | places + 1 => (rounding? x d (places + 1)).getD (shortestFrom x d places)

/-- The decimal with the fewest digits that reads back as the number, and of
    these the nearest to it. -/
def shortest (x : Binary64) : Decimal :=
  let exact := x.expansion
  (shortestFrom x exact ((Nat.toDigits 10 exact.digits).length - 1)).normalize

/-- A rounding is given only when it reads back. -/
theorem ofDecimal?_rounding? {x : Binary64} {d e : Decimal} {places : Nat}
    (h : rounding? x d places = some e) : ofDecimal? x.negative e = some x := by
  simpa [reads] using List.find?_some h

end Binary64

end Fieldwork
