/-!
# Checked Arithmetic

Signed words whose arithmetic refuses what it cannot hold.

A word is a vector of bits that is read in two's complement, and its own sums
and products wrap around. Whoever reads a numeral must not be given a wrapped
number for one that is too long. So each operation here looks for the overflow
first: what comes out is the exact result, and an exact result that no word
holds does not come out at all.

## Main definitions

* `add?`, `sub?`, `mul?`: Arithmetic without overflow.
* `toUInt64?`: The unsigned word of the same value.

## Theorems

* `add?_eq_some_iff`, `sub?_eq_some_iff`, `mul?_eq_some_iff`: A result is the
  exact one.
* `toUInt64?_eq_some_iff`: A narrowed word has the same value.
-/

namespace Fieldwork

namespace Checked

variable {w : Nat}

/-- A result, unless it has overflowed. -/
def unlessOverflow (overflow : Bool) (result : BitVec w) : Option (BitVec w) :=
  if overflow then none else some result

/-- The sum of two words. -/
def add? (x y : BitVec w) : Option (BitVec w) :=
  unlessOverflow (x.saddOverflow y) (x + y)

/-- The difference of two words. -/
def sub? (x y : BitVec w) : Option (BitVec w) :=
  unlessOverflow (x.ssubOverflow y) (x - y)

/-- The product of two words. -/
def mul? (x y : BitVec w) : Option (BitVec w) :=
  unlessOverflow (x.smulOverflow y) (x * y)

/-- The unsigned word of 64 bits that has the value of a word. -/
def toUInt64? (x : BitVec w) : Option UInt64 :=
  if 0 ≤ x.toInt ∧ x.toInt < 0x10000000000000000 then some (UInt64.ofNat x.toInt.toNat) else none

/-- A result that is watched for overflow is the exact one. -/
theorem unlessOverflow_eq_some_iff {overflow : Bool} {result z : BitVec w} {exact bound : Int}
    (hbound : -bound ≤ z.toInt ∧ z.toInt < bound)
    (hoverflow : overflow = (decide (exact ≥ bound) || decide (exact < -bound)))
    (hresult : ¬ overflow = true → result.toInt = exact) :
    unlessOverflow overflow result = some z ↔ z.toInt = exact := by
  rw [unlessOverflow, Option.ite_none_left_eq_some, Option.some.injEq]
  constructor
  · rintro ⟨hfits, rfl⟩
    exact hresult hfits
  · intro hz
    -- The exact result is the value of a word, so it is within the bounds.
    have hfits : ¬ overflow = true := by
      rw [hoverflow, Bool.or_eq_true, decide_eq_true_iff, decide_eq_true_iff]
      omega
    exact ⟨hfits, BitVec.toInt_inj.1 ((hresult hfits).trans hz.symm)⟩

variable {x y z : BitVec w}

theorem add?_eq_some_iff : add? x y = some z ↔ z.toInt = x.toInt + y.toInt :=
  unlessOverflow_eq_some_iff ⟨z.le_toInt, z.toInt_lt⟩ rfl BitVec.toInt_add_of_not_saddOverflow

theorem sub?_eq_some_iff : sub? x y = some z ↔ z.toInt = x.toInt - y.toInt :=
  unlessOverflow_eq_some_iff ⟨z.le_toInt, z.toInt_lt⟩ rfl BitVec.toInt_sub_of_not_ssubOverflow

theorem mul?_eq_some_iff : mul? x y = some z ↔ z.toInt = x.toInt * y.toInt :=
  unlessOverflow_eq_some_iff ⟨z.le_toInt, z.toInt_lt⟩ rfl BitVec.toInt_mul_of_not_smulOverflow

/-- A narrowed word has the value of the wide one. -/
theorem toUInt64?_eq_some_iff {n : UInt64} : toUInt64? x = some n ↔ x.toInt = n.toNat := by
  have hlt := n.toNat_lt
  rw [toUInt64?, Option.ite_none_right_eq_some, Option.some.injEq]
  constructor
  · rintro ⟨⟨hlower, hupper⟩, rfl⟩
    rw [UInt64.toNat_ofNat_of_lt' (by rw [UInt64.size]; omega)]
    omega
  · intro h
    exact ⟨by omega, by rw [h, Int.toNat_natCast, UInt64.ofNat_toNat]⟩

end Checked

end Fieldwork
