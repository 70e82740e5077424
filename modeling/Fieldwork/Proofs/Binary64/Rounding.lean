import Mathlib.Algebra.Order.Field.Power
import Mathlib.Data.Rat.Cast.Order
import Mathlib.Tactic.FieldSimp
import Mathlib.Tactic.Linarith
import Mathlib.Tactic.NormNum
import Mathlib.Tactic.Ring
import Fieldwork.Binary64.Basic

/-!
# Rounding

How near a number is to the ratio that was rounded to it.

Values are rationals here, because the definitions move powers between
numerator and denominator by sign, and only the quotient stays the same. A
ratio lies between two powers of two (`magnitude_bounds`), which fixes the unit
in the last place; the number is then within half a unit (`value_bounds_of_ratio`).
A ratio below the greatest number and half its unit does not overflow
(`exists_ofRatio?`), and a ratio that is a number is that number
(`ofRatio?_eq_some`). Nothing but the quotient counts (`ofRatio?_congr`).

## Main definitions

* `Binary64.value`: The magnitude of a number, as a rational.
* `Binary64.lastPlace`, `Binary64.rounded`: The unit in the last place and the
  significand that rounding finds.
* `Binary64.overflow`: The least ratio that rounds beyond the format.

## Theorems

* `magnitude_bounds`, `magnitude_eq`: The power of two below a ratio.
* `nearest_bounds`: A quotient is rounded by no more than a half.
* `value_of_ofRatio?`, `value_bounds_of_ratio`: What a ratio is rounded to.
* `exists_ofRatio?`: A ratio that is small enough is rounded to some number.
* `ofRatio?_eq_some`: A ratio that is a number is rounded to that number.
* `ofRatio?_congr`: Rounding depends on the quotient alone.
* `le_value_of_le`, `value_le_of_one_le`: A ratio above one and its number.
-/

namespace Fieldwork

namespace Binary64

/-- The magnitude of a number, as a rational. -/
def value (x : Binary64) : ℚ :=
  x.significand * (2 : ℚ) ^ x.exponent

/-- An integer power is a quotient of two natural ones, of which one is
    trivial. -/
theorem zpow_eq_div (b : ℚ) (hb : b ≠ 0) (k : Int) : b ^ k = b ^ k.toNat / b ^ (-k).toNat := by
  rw [eq_div_iff (pow_ne_zero _ hb), ← zpow_natCast, ← zpow_natCast, ← zpow_add₀ hb]
  congr 1
  omega

/-- The test of `magnitude` compares a power of two with the ratio. -/
theorem pow_le_ratio_iff {num den : Nat} (hd : 0 < den) (k : Int) :
    den * Nat.pow 2 k.toNat ≤ num * Nat.pow 2 (-k).toNat ↔ (2 : ℚ) ^ k ≤ num / den := by
  have hden : (0 : ℚ) < den := by exact_mod_cast hd
  have hpow : (0 : ℚ) < 2 ^ (-k).toNat := by positivity
  rw [zpow_eq_div 2 (by norm_num), div_le_div_iff₀ hpow hden]
  simp only [Nat.pow_eq]
  rw [mul_comm den]
  exact_mod_cast Iff.rfl

/-- The two powers of two around a number. -/
theorem log2_bounds {n : Nat} (h : 0 < n) :
    (2 : ℚ) ^ (n.log2 : Int) ≤ n ∧ (n : ℚ) < 2 ^ ((n.log2 : Int) + 1) := by
  have hsucc : (n.log2 : Int) + 1 = ((n.log2 + 1 : Nat) : Int) := by
    push_cast
    rfl
  rw [hsucc, zpow_natCast, zpow_natCast]
  constructor
  · exact_mod_cast Nat.log2_self_le h.ne'
  · exact_mod_cast Nat.lt_log2_self

/-- The binary logarithms of a ratio's parts leave two powers of two for the
    ratio to lie between. -/
theorem log2_ratio_bounds {num den : Nat} (hn : 0 < num) (hd : 0 < den) :
    (2 : ℚ) ^ ((num.log2 : Int) - den.log2 - 1) < num / den ∧
      (num / den : ℚ) < 2 ^ ((num.log2 : Int) - den.log2 + 1) := by
  have hden : (0 : ℚ) < den := by exact_mod_cast hd
  rcases log2_bounds hn with ⟨numLower, numUpper⟩
  rcases log2_bounds hd with ⟨denLower, denUpper⟩
  -- Each bound takes one of the numerator and the opposite one of the denominator.
  constructor
  · rw [lt_div_iff₀ hden]
    calc (2 : ℚ) ^ ((num.log2 : Int) - den.log2 - 1) * den
        < 2 ^ ((num.log2 : Int) - den.log2 - 1) * 2 ^ ((den.log2 : Int) + 1) := by gcongr
      _ = 2 ^ (num.log2 : Int) := by
        rw [← zpow_add₀ (by norm_num)]
        congr 1
        omega
      _ ≤ num := numLower
  · rw [div_lt_iff₀ hden]
    calc (num : ℚ) < 2 ^ ((num.log2 : Int) + 1) := numUpper
      _ = 2 ^ ((num.log2 : Int) - den.log2 + 1) * 2 ^ (den.log2 : Int) := by
        rw [← zpow_add₀ (by norm_num)]
        congr 1
        omega
      _ ≤ 2 ^ ((num.log2 : Int) - den.log2 + 1) * den := by gcongr

/-- The two powers of two around a ratio. -/
theorem magnitude_bounds {num den : Nat} (hn : 0 < num) (hd : 0 < den) :
    (2 : ℚ) ^ magnitude num den ≤ num / den ∧
      (num / den : ℚ) < 2 ^ (magnitude num den + 1) := by
  rcases log2_ratio_bounds hn hd with ⟨above, below⟩
  -- The logarithms give the power or the one after it. The test tells which.
  simp only [magnitude, pow_le_ratio_iff hd]
  split
  · rename_i h
    exact ⟨h, below⟩
  · rename_i h
    rw [sub_add_cancel]
    exact ⟨above.le, not_le.1 h⟩

/-- The power of two below a ratio. -/
theorem magnitude_eq {num den : Nat} (hn : 0 < num) (hd : 0 < den) {k : Int}
    (lower : (2 : ℚ) ^ k ≤ num / den) (upper : (num / den : ℚ) < 2 ^ (k + 1)) :
    magnitude num den = k := by
  rcases magnitude_bounds hn hd with ⟨above, below⟩
  have hk : k < magnitude num den + 1 :=
    (zpow_lt_zpow_iff_right₀ (by norm_num : (1 : ℚ) < 2)).1 (lower.trans_lt below)
  have hk' : magnitude num den < k + 1 :=
    (zpow_lt_zpow_iff_right₀ (by norm_num : (1 : ℚ) < 2)).1 (above.trans_lt upper)
  omega

/-- A quotient is rounded by no more than a half. -/
theorem nearest_bounds (num : Nat) {den : Nat} (hd : 0 < den) :
    (nearest num den : ℚ) - 1 / 2 ≤ num / den ∧ (num / den : ℚ) ≤ nearest num den + 1 / 2 := by
  have hden : (0 : ℚ) < den := by exact_mod_cast hd
  have hlt := Nat.mod_lt num hd
  have hsplit := Nat.div_add_mod num den
  -- Cleared of the denominator, both bounds compare the remainder with its half.
  have hwhole : 2 * (nearest num den * den) ≤ 2 * num + den ∧
      2 * num ≤ 2 * (nearest num den * den) + den := by
    rw [nearest]
    rw [mul_comm den] at hsplit
    split
    · omega
    · rw [Nat.add_mul]
      omega
  rw [le_div_iff₀ hden, div_le_iff₀ hden]
  have hlower : (2 * (nearest num den * den) : ℚ) ≤ 2 * num + den := by exact_mod_cast hwhole.1
  have hupper : (2 * num : ℚ) ≤ 2 * (nearest num den * den) + den := by exact_mod_cast hwhole.2
  constructor <;> linarith

/-- The unit in the last place for a ratio, as a power of two. -/
def lastPlace (num den : Nat) : Int :=
  max (magnitude num den - 52) (-1074)

/-- How many units in the last place a ratio is rounded to. -/
def rounded (num den : Nat) : Nat :=
  nearest (num * Nat.pow 2 (-lastPlace num den).toNat) (den * Nat.pow 2 (lastPlace num den).toNat)

theorem ofRatio?_eq {num : Nat} (hn : 0 < num) (den : Nat) (negative : Bool) :
    ofRatio? negative num den =
      if rounded num den = 0x20000000000000 then
        ofParts? negative 0x10000000000000 (lastPlace num den + 1)
      else ofParts? negative (rounded num den) (lastPlace num den) := by
  rw [ofRatio?, if_neg hn.ne']
  rfl

section Ratio

variable {num den : Nat} {negative : Bool} {x : Binary64}

/-- A ratio counted in units of its last place. -/
theorem ratio_scaled (num : Nat) {den : Nat} (k : Int) :
    ((num * Nat.pow 2 (-k).toNat : Nat) : ℚ) / (den * Nat.pow 2 k.toNat : Nat) =
      num / den / 2 ^ k := by
  simp only [Nat.pow_eq]
  rw [zpow_eq_div 2 (by norm_num)]
  push_cast
  field_simp

/-- A ratio is within half a unit in the last place of what it is rounded to. -/
theorem rounded_bounds (num : Nat) {den : Nat} (hd : 0 < den) :
    ((rounded num den : ℚ) - 1 / 2) * 2 ^ lastPlace num den ≤ num / den ∧
      (num / den : ℚ) ≤ (rounded num den + 1 / 2) * 2 ^ lastPlace num den := by
  have two : (0 : ℚ) < 2 ^ lastPlace num den := by positivity
  have hunit : 0 < den * Nat.pow 2 (lastPlace num den).toNat := by
    simp only [Nat.pow_eq]
    positivity
  have hnearest := nearest_bounds (num * Nat.pow 2 (-lastPlace num den).toNat) hunit
  rw [ratio_scaled num (lastPlace num den), le_div_iff₀ two, div_le_iff₀ two] at hnearest
  exact hnearest

/-- Rounding fills fifty-three bits, or one more; fewer only at the least unit. -/
theorem rounded_range (hn : 0 < num) (hd : 0 < den) :
    rounded num den ≤ 0x20000000000000 ∧
      (0x10000000000000 ≤ rounded num den ∨ lastPlace num den = -1074) := by
  rcases magnitude_bounds hn hd with ⟨hlower, hupper⟩
  rcases rounded_bounds num hd with ⟨hbelow, habove⟩
  have two : (0 : ℚ) < 2 ^ lastPlace num den := by positivity
  constructor
  · -- The ratio is below 2 to the 53 units, and half a unit more makes no whole one.
    have hle : (2 : ℚ) ^ (magnitude num den + 1) ≤ 2 ^ (53 : Int) * 2 ^ lastPlace num den := by
      rw [← zpow_add₀ (by norm_num)]
      refine zpow_le_zpow_right₀ (by norm_num) ?_
      rw [lastPlace]
      omega
    have hlt := lt_of_mul_lt_mul_right (hbelow.trans_lt (hupper.trans_le hle)) two.le
    have hpow : (2 : ℚ) ^ (53 : Int) = 0x20000000000000 := by norm_num
    rw [hpow] at hlt
    have hcast : (rounded num den : ℚ) < (0x20000000000000 + 1 : Nat) := by
      push_cast
      linarith
    have hnat : rounded num den < 0x20000000000000 + 1 := by exact_mod_cast hcast
    omega
  · refine or_iff_not_imp_right.2 fun hplace => ?_
    have hle : (2 : ℚ) ^ (52 : Int) * 2 ^ lastPlace num den ≤ 2 ^ magnitude num den := by
      rw [← zpow_add₀ (by norm_num)]
      refine zpow_le_zpow_right₀ (by norm_num) ?_
      rw [lastPlace] at hplace ⊢
      omega
    have hge := le_of_mul_le_mul_right ((hle.trans hlower).trans habove) two
    have hpow : (2 : ℚ) ^ (52 : Int) = 0x10000000000000 := by norm_num
    rw [hpow] at hge
    have hcast : ((0x10000000000000 : Nat) : ℚ) < (rounded num den + 1 : Nat) := by
      push_cast
      linarith
    have hnat : 0x10000000000000 < rounded num den + 1 := by exact_mod_cast hcast
    omega

theorem eq_of_ofParts? {significand : Nat} {exponent : Int}
    (h : ofParts? negative significand exponent = some x) :
    x.negative = negative ∧ x.significand = significand ∧ x.exponent = exponent := by
  unfold ofParts? at h
  split at h
  · cases h
    exact ⟨rfl, rfl, rfl⟩
  · cases h

/-- What a ratio is rounded to: the units that were counted, also if the carry
    made one of two of them. -/
theorem value_of_ofRatio? (hn : 0 < num) (h : ofRatio? negative num den = some x) :
    x.value = rounded num den * 2 ^ lastPlace num den ∧ lastPlace num den ≤ x.exponent := by
  rw [ofRatio?_eq hn] at h
  split at h
  · rename_i hcarry
    rcases eq_of_ofParts? h with ⟨-, hsignificand, hexponent⟩
    rw [value, hsignificand, hexponent, hcarry, zpow_add₀ (by norm_num)]
    refine ⟨?_, by omega⟩
    push_cast
    ring
  · rcases eq_of_ofParts? h with ⟨-, hsignificand, hexponent⟩
    rw [value, hsignificand, hexponent]
    exact ⟨rfl, le_rfl⟩

/-- A number is within half a unit in the last place of the ratio. -/
theorem value_bounds_of_ratio (hn : 0 < num) (hd : 0 < den)
    (h : ofRatio? negative num den = some x) :
    x.value ≤ num / den + 2 ^ lastPlace num den / 2 ∧
      (num / den : ℚ) ≤ x.value + 2 ^ lastPlace num den / 2 := by
  rw [(value_of_ofRatio? hn h).1]
  rcases rounded_bounds num hd with ⟨hbelow, habove⟩
  constructor <;> linarith

/-- The least ratio that is rounded to a number beyond the format. -/
def overflow : ℚ :=
  (0x20000000000000 - 1 / 2) * 2 ^ (971 : Int)

theorem overflow_le : overflow ≤ 2 ^ (1024 : Int) := by
  have hsplit : (2 : ℚ) ^ (1024 : Int) = 2 ^ (53 : Int) * 2 ^ (971 : Int) := by
    rw [← zpow_add₀ (by norm_num)]
    norm_num
  rw [overflow, hsplit]
  gcongr
  norm_num

theorem exists_ofParts? {significand : Nat} {exponent : Int}
    (h : Canonical significand exponent) :
    ∃ x, ofParts? negative significand exponent = some x :=
  ⟨_, dif_pos h⟩

/-- A ratio that is small enough is rounded to some number. -/
theorem exists_ofRatio? (negative : Bool) (hd : 0 < den) (h : (num / den : ℚ) < overflow) :
    ∃ x, ofRatio? negative num den = some x := by
  rcases Nat.eq_zero_or_pos num with rfl | hn
  · exact ⟨zero negative, if_pos rfl⟩
  rcases rounded_range hn hd with ⟨hcarry, hfull⟩
  have hleast : -1074 ≤ lastPlace num den := le_max_right _ _
  have hbelow := (rounded_bounds num hd).1
  -- The greatest exponent is that of the greatest number.
  have hplace : lastPlace num den ≤ 971 := by
    have hlt : (2 : ℚ) ^ magnitude num den < 2 ^ (1024 : Int) :=
      ((magnitude_bounds hn hd).1.trans_lt h).trans_le overflow_le
    have hmagnitude := (zpow_lt_zpow_iff_right₀ (by norm_num : (1 : ℚ) < 2)).1 hlt
    rw [lastPlace]
    omega
  rw [ofRatio?_eq hn]
  split
  · rename_i hrounded
    -- With the greatest unit the carry would make a number beyond the format.
    refine exists_ofParts? ⟨by norm_num, by omega, ?_, Or.inl le_rfl⟩
    by_contra hgreat
    have hgreatest : lastPlace num den = 971 := by omega
    rw [hrounded, hgreatest] at hbelow
    exact absurd (hbelow.trans_lt h) (lt_irrefl _)
  · exact exists_ofParts? ⟨by omega, hleast, hplace, hfull⟩

theorem significand_pos (h : x.isZero = false) : 0 < x.significand := by
  unfold isZero at h
  rw [beq_eq_false_iff_ne] at h
  omega

/-- The unit in the last place of a number is what rounding its value finds.
    Either the significand fills its bits, and the magnitude gives the
    exponent, or the exponent is the least one. -/
theorem exponent_eq_max (h : x.isZero = false) :
    max ((x.significand.log2 : Int) + x.exponent - 52) (-1074) = x.exponent := by
  rcases x.canonical with ⟨upper, least, -, full⟩
  have hpos := significand_pos h
  have hlog : x.significand.log2 < 53 := (Nat.log2_lt hpos.ne').2 upper
  rcases full with full | full
  · have : 52 ≤ x.significand.log2 := (Nat.le_log2 hpos.ne').2 full
    omega
  · omega

theorem magnitude_of_value (h : x.isZero = false) (hn : 0 < num) (hd : 0 < den)
    (hv : (num / den : ℚ) = x.value) : magnitude num den = x.significand.log2 + x.exponent := by
  have hpos := significand_pos h
  have two : (0 : ℚ) < 2 ^ x.exponent := by positivity
  rcases log2_bounds hpos with ⟨lower, upper⟩
  -- The ratio is a significand and a power of two, and the power moves both bounds
  -- alike.
  refine magnitude_eq hn hd ?_ ?_
  · rw [hv, value, zpow_add₀ (by norm_num)]
    gcongr
  · rw [hv, value, show (x.significand.log2 : Int) + x.exponent + 1 =
      (x.significand.log2 + 1) + x.exponent by omega, zpow_add₀ (by norm_num)]
    gcongr

theorem value_pos (h : x.isZero = false) : 0 < x.value := by
  have hpos : (0 : ℚ) < x.significand := by exact_mod_cast significand_pos h
  unfold value
  positivity

/-- A ratio that is a number is rounded to that number. -/
theorem ofRatio?_eq_some (h : x.isZero = false) (hd : 0 < den)
    (hv : (num / den : ℚ) = x.value) : ofRatio? x.negative num den = some x := by
  have hden : (0 : ℚ) < den := by exact_mod_cast hd
  have hn : 0 < num := by
    rcases Nat.eq_zero_or_pos num with rfl | hn
    · rw [Nat.cast_zero, zero_div] at hv
      exact absurd hv (value_pos h).ne
    · exact hn
  -- Scaled to the unit in the last place, the ratio is a whole number.
  have hscaled : num * Nat.pow 2 (-x.exponent).toNat =
      x.significand * (den * Nat.pow 2 x.exponent.toNat) := by
    rw [value, zpow_eq_div 2 (by norm_num), ← mul_div_assoc,
      div_eq_div_iff hden.ne' (by positivity)] at hv
    simp only [Nat.pow_eq]
    have : num * 2 ^ (-x.exponent).toNat = x.significand * 2 ^ x.exponent.toNat * den := by
      exact_mod_cast hv
    rw [this]
    ring
  have hplace : lastPlace num den = x.exponent := by
    rw [lastPlace, magnitude_of_value h hn hd hv, exponent_eq_max h]
  have hunit : 0 < den * Nat.pow 2 x.exponent.toNat := by
    simp only [Nat.pow_eq]
    positivity
  have hrounded : rounded num den = x.significand := by
    rw [rounded, hplace, hscaled, nearest_mul_right _ hunit]
  rw [ofRatio?_eq hn, hrounded, hplace, if_neg x.canonical.1.ne, ofParts?, dif_pos x.canonical]

/-- Rounding a quotient does not depend on how it is written. -/
theorem nearest_mul_mul (num den : Nat) {c : Nat} (hc : 0 < c) :
    nearest (num * c) (den * c) = nearest num den := by
  rw [nearest, nearest, Nat.mul_div_mul_right _ _ hc, Nat.mul_mod_mul_right, ← mul_assoc]
  simp only [Nat.mul_lt_mul_right hc, Nat.mul_left_inj hc.ne']

theorem nearest_congr {num' den' : Nat} (hd : 0 < den) (hd' : 0 < den')
    (h : num * den' = num' * den) : nearest num den = nearest num' den' := by
  rw [← nearest_mul_mul num den hd', h, mul_comm den, nearest_mul_mul num' den' hd]

/-- Rounding depends on the quotient alone. -/
theorem ofRatio?_congr (negative : Bool) {num' den' : Nat} (hd : 0 < den) (hd' : 0 < den')
    (h : (num / den : ℚ) = num' / den') :
    ofRatio? negative num den = ofRatio? negative num' den' := by
  have hden : (den : ℚ) ≠ 0 := by exact_mod_cast hd.ne'
  have hden' : (den' : ℚ) ≠ 0 := by exact_mod_cast hd'.ne'
  have hcross : num * den' = num' * den := by
    rw [div_eq_div_iff hden hden'] at h
    exact_mod_cast h
  rcases Nat.eq_zero_or_pos num with hzero | hn
  · -- A ratio is zero in any way of writing it, or in none.
    have hzero' : num' = 0 := by
      rw [hzero, zero_mul] at hcross
      exact (mul_eq_zero.1 hcross.symm).resolve_right hd.ne'
    rw [ofRatio?, ofRatio?, if_pos hzero, if_pos hzero']
  · have hn' : 0 < num' := by
      refine Nat.pos_of_ne_zero fun hzero' => ?_
      rw [hzero', zero_mul] at hcross
      exact absurd hcross (Nat.mul_pos hn hd').ne'
    have hmagnitude : magnitude num den = magnitude num' den' := by
      rcases magnitude_bounds hn' hd' with ⟨hlower, hupper⟩
      exact magnitude_eq hn hd (h ▸ hlower) (h ▸ hupper)
    have hplace : lastPlace num den = lastPlace num' den' := by
      rw [lastPlace, lastPlace, hmagnitude]
    have hrounded : rounded num den = rounded num' den' := by
      rw [rounded, rounded, hplace]
      simp only [Nat.pow_eq]
      refine nearest_congr (by positivity) (by positivity) ?_
      calc num * 2 ^ (-lastPlace num' den').toNat * (den' * 2 ^ (lastPlace num' den').toNat)
          = num * den' * (2 ^ (-lastPlace num' den').toNat * 2 ^ (lastPlace num' den').toNat) := by
            ring
        _ = num' * 2 ^ (-lastPlace num' den').toNat * (den * 2 ^ (lastPlace num' den').toNat) := by
            rw [hcross]
            ring
    rw [ofRatio?_eq hn, ofRatio?_eq hn', hrounded, hplace]

/-- Rounding does not go below a power of two that the ratio reaches. -/
theorem le_value_of_le (hn : 0 < num) (hd : 0 < den) {k : Int} (hk : -1022 ≤ k)
    (hle : (2 : ℚ) ^ k ≤ num / den) (h : ofRatio? negative num den = some x) :
    (2 : ℚ) ^ k ≤ x.value := by
  have hmagnitude : k ≤ magnitude num den := by
    have hlt := (zpow_lt_zpow_iff_right₀ (by norm_num : (1 : ℚ) < 2)).1
      (hle.trans_lt (magnitude_bounds hn hd).2)
    omega
  have hplace : lastPlace num den = magnitude num den - 52 := by
    rw [lastPlace]
    omega
  have hpow : (2 : ℚ) ^ (52 : Int) = 0x10000000000000 := by norm_num
  -- The significand is full, because the unit is not the least one or the ratio
  -- fills it all the same.
  have hfull : (2 : ℚ) ^ (52 : Int) ≤ rounded num den := by
    have hge := (magnitude_bounds hn hd).1.trans (rounded_bounds num hd).2
    have hsplit : magnitude num den = 52 + lastPlace num den := by omega
    rw [hsplit, zpow_add₀ (by norm_num)] at hge
    have hhalf := le_of_mul_le_mul_right hge (by positivity)
    rw [hpow] at hhalf ⊢
    have hcast : ((0x10000000000000 : Nat) : ℚ) < (rounded num den + 1 : Nat) := by
      push_cast
      linarith
    have hnat : 0x10000000000000 < rounded num den + 1 := by exact_mod_cast hcast
    exact_mod_cast Nat.lt_succ_iff.1 hnat
  rw [(value_of_ofRatio? hn h).1]
  calc (2 : ℚ) ^ k ≤ 2 ^ (52 + lastPlace num den) :=
        zpow_le_zpow_right₀ (by norm_num) (by omega)
    _ = 2 ^ (52 : Int) * 2 ^ lastPlace num den := zpow_add₀ (by norm_num) _ _
    _ ≤ rounded num den * 2 ^ lastPlace num den := by gcongr

/-- How much of a ratio rounding may add to it. -/
def roundoff : ℚ :=
  1 / 0x20000000000000

theorem roundoff_pos : 0 < roundoff := by
  rw [roundoff]
  norm_num

/-- A ratio above one is rounded up by no more than that part. -/
theorem value_le_of_one_le (hn : 0 < num) (hd : 0 < den) (hone : (1 : ℚ) ≤ num / den)
    (h : ofRatio? negative num den = some x) : x.value ≤ num / den * (1 + roundoff) := by
  rcases magnitude_bounds hn hd with ⟨hlower, hupper⟩
  have hmagnitude : 0 ≤ magnitude num den := by
    have hlt := (zpow_lt_zpow_iff_right₀ (by norm_num : (1 : ℚ) < 2)).1
      ((zpow_zero (2 : ℚ)).le.trans_lt (hone.trans_lt hupper))
    omega
  have hplace : lastPlace num den = magnitude num den - 52 := by
    rw [lastPlace]
    omega
  have hunit : (2 : ℚ) ^ lastPlace num den / 2 = 2 ^ magnitude num den * roundoff := by
    rw [hplace, zpow_sub₀ (by norm_num), roundoff]
    norm_num
    ring
  have hnear := (value_bounds_of_ratio hn hd h).1
  rw [hunit] at hnear
  have hpart := mul_le_mul_of_nonneg_right hlower roundoff_pos.le
  linarith

end Ratio

end Binary64

end Fieldwork
