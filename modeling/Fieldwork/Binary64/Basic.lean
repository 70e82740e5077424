/-!
# Binary64 Numbers

The finite numbers of the IEEE 754 format binary64, as pairs of integers.

A number is a sign and `significand · 2 ^ exponent`. The pair is canonical: the
significand fills its fifty-three bits unless the exponent is the least one.
So every finite number, either zero included, has one representation, and
equality of values of the type is equality of bit patterns. There is no
infinity and no NaN, because no text of a number stands for either.

Rounding is to nearest, ties to even. It is done once, on an exact ratio of
natural numbers, so no intermediate step can lose a digit.

## Main definitions

* `Canonical`: The pairs of integers that stand for a number.
* `Binary64`: A finite number.
* `nearest`: A quotient rounded to the nearest integer, ties to even.
* `magnitude`: The binary exponent of a positive ratio.
* `ofRatio?`: The number nearest to a ratio, unless it overflows.

## Theorems

* `nearest_mul_right`: A quotient that is whole is not rounded.
-/

namespace Fieldwork

/-- The significand fills fifty-three bits, or the exponent is the least. -/
def Binary64.Canonical (significand : Nat) (exponent : Int) : Prop :=
  significand < 0x20000000000000 ∧ -1074 ≤ exponent ∧ exponent ≤ 971 ∧
    (0x10000000000000 ≤ significand ∨ exponent = -1074)

instance (significand : Nat) (exponent : Int) :
    Decidable (Binary64.Canonical significand exponent) :=
  inferInstanceAs (Decidable (_ ∧ _ ∧ _ ∧ (_ ∨ _)))

/-- A finite number `± significand · 2 ^ exponent`. -/
structure Binary64 where
  /-- The sign, which a zero has too. -/
  negative : Bool
  /-- The whole number that the power of two scales. -/
  significand : Nat
  /-- The power of two. -/
  exponent : Int
  /-- One representation for each number. -/
  canonical : Binary64.Canonical significand exponent
  deriving DecidableEq

namespace Binary64

/-- The zero of either sign. -/
def zero (negative : Bool) : Binary64 :=
  ⟨negative, 0, -1074, by decide⟩

instance : Inhabited Binary64 := ⟨zero false⟩

/-- Whether the number is one of the two zeros. -/
def isZero (x : Binary64) : Bool :=
  x.significand == 0

/-- The number with these parts. A canonical significand whose exponent is
    too large is beyond the format. -/
def ofParts? (negative : Bool) (significand : Nat) (exponent : Int) : Option Binary64 :=
  if h : Canonical significand exponent then some ⟨negative, significand, exponent, h⟩ else none

/-- The integer nearest to a quotient; a half goes to the even neighbour. -/
def nearest (num den : Nat) : Nat :=
  let quotient := num / den
  let twice := 2 * (num % den)
  if twice < den ∨ (twice = den ∧ quotient % 2 = 0) then quotient else quotient + 1

/-- The greatest `k` with `2 ^ k ≤ num / den`, for positive operands. The
    difference of the logarithms is that number or one more. -/
def magnitude (num den : Nat) : Int :=
  let k : Int := (Nat.log2 num : Int) - Nat.log2 den
  if den * Nat.pow 2 k.toNat ≤ num * Nat.pow 2 (-k).toNat then k else k - 1

/-- The number nearest to `num / den`. The unit in the last place is fixed
    first, by the magnitude or by the least exponent; rounding up may then
    carry into a fifty-fourth bit, which moves the exponent. -/
def ofRatio? (negative : Bool) (num den : Nat) : Option Binary64 :=
  if num = 0 then some (zero negative)
  else
    let exponent := max (magnitude num den - 52) (-1074)
    let significand := nearest (num * Nat.pow 2 (-exponent).toNat) (den * Nat.pow 2 exponent.toNat)
    -- The carry leaves a power of two, whose half is exact.
    if significand = 0x20000000000000 then ofParts? negative 0x10000000000000 (exponent + 1)
    else ofParts? negative significand exponent

/-- A quotient that is whole is not rounded. -/
theorem nearest_mul_right (n : Nat) {den : Nat} (h : 0 < den) : nearest (n * den) den = n := by
  have quotient : n * den / den = n := Nat.mul_div_cancel n h
  simp only [nearest, quotient, Nat.mul_mod_left, Nat.mul_zero]
  rw [if_pos (Or.inl h)]

end Binary64

end Fieldwork
