import Fieldwork.Binary64.Decimal

/-!
# Reading by Scaling

How a number is read by multiplying or dividing it by a power of ten.

The digits of a decimal become a binary64 number, which is then multiplied or
divided by a power of ten. Each of the two operations rounds, and the power is
a rounded number itself unless it is small. So the result may be off by a unit
from the nearest number, which `Binary64.ofDecimal?` gives: `1e-24` is read as
the number after the nearest one.

Powers of ten end at 308, because the next one is beyond the format. A decimal
with a smaller exponent is divided by the last power until what is left of the
exponent has one; a zero is not divided any further.

## Main definitions

* `Binary64.withSign`: A number with the given sign.
* `Binary64.ofNat?`, `Binary64.mul?`, `Binary64.div?`: Operations that round
  once.
* `Binary64.scale?`: A number times a power of ten.
* `Binary64.ofScaled?`: The number that a decimal is read as.
-/

namespace Fieldwork

namespace Binary64

/-- The number of this magnitude with the given sign. -/
def withSign (negative : Bool) (x : Binary64) : Binary64 :=
  { x with negative }

/-- The number nearest to a natural number. -/
def ofNat? (n : Nat) : Option Binary64 :=
  ofRatio? false n 1

/-- The number nearest to a product. -/
def mul? (x y : Binary64) : Option Binary64 :=
  let exponent := x.exponent + y.exponent
  ofRatio? (x.negative != y.negative)
    (x.significand * y.significand * Nat.pow 2 exponent.toNat) (Nat.pow 2 (-exponent).toNat)

/-- The number nearest to a quotient; the divisor is no zero. -/
def div? (x y : Binary64) : Option Binary64 :=
  let exponent := x.exponent - y.exponent
  ofRatio? (x.negative != y.negative)
    (x.significand * Nat.pow 2 exponent.toNat) (y.significand * Nat.pow 2 (-exponent).toNat)

/-- The greatest power of ten that a number is multiplied or divided by. -/
def greatestPower : Nat := 308

/-- A number divided by a power of ten. -/
def divPower? (x : Binary64) (power : Nat) : Option Binary64 :=
  (ofNat? (Nat.pow 10 power)).bind x.div?

/-- A number divided by the greatest power so many times, as long as it is not
    zero. -/
def lower? (x : Binary64) : Nat → Option Binary64
  | 0 => some x
  | times + 1 =>
    if x.isZero then some x else (x.divPower? greatestPower).bind fun y => lower? y times

/-- A number times a power of ten. -/
def scale? (x : Binary64) (exponent : Int) : Option Binary64 :=
  if 0 ≤ exponent then
    if exponent ≤ greatestPower then (ofNat? (Nat.pow 10 exponent.toNat)).bind x.mul?
    else if x.isZero then some x else none
  else
    -- The last division is by a power between one and the greatest.
    let places := (-exponent).toNat - 1
    (x.lower? (places / greatestPower)).bind fun y => y.divPower? (places % greatestPower + 1)

/-- The number that a decimal is read as: its digits, scaled by its power of
    ten. -/
def ofScaled? (negative : Bool) (d : Decimal) : Option Binary64 :=
  ((ofNat? d.digits).bind fun x => x.scale? d.exponent).map (withSign negative)

end Binary64

end Fieldwork
