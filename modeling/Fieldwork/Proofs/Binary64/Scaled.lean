import Mathlib.Algebra.Order.Field.Basic
import Fieldwork.Binary64.Scaled
import Fieldwork.Proofs.Binary64.Shortest

/-!
# What Reading by Scaling Gives

Every decimal within the format is read as some number, and a short one as the
nearest.

Reading by scaling rounds three times, so it may miss the nearest number, and a
decimal close to the greatest number may even be taken for one beyond it. What
each rounding adds is bounded, and so `exists_ofScaled?` says how far from the
end of the format a decimal has to stay. Only a product can overflow: a
quotient by a power of ten is no more than what was divided.

Where the digits and the power of ten are themselves numbers of the format,
only the last rounding is left, and it is that of the exact value. That is so
for digits of fifty-three bits and the powers up to the twenty-second
(`ofScaled?_eq_ofDecimal?`).

## Theorems

* `exists_mul?`, `exists_div?`: Operations that do not overflow.
* `exists_power`: The powers of ten that numbers are scaled by.
* `exists_scale?_of_neg`: Dividing by powers of ten never fails.
* `exists_ofScaled?`: A decimal within the format is read.
* `exists_ofNat?_eq`: Natural numbers that are not rounded.
* `scale?_eq_ofRatio?`: Scaling by a small power of ten rounds once.
* `ofScaled?_eq_ofDecimal?`: A short decimal is read as the nearest number.
-/

namespace Fieldwork

namespace Binary64

variable {x y : Binary64}

theorem value_lt_overflow (x : Binary64) : x.value < overflow := by
  rcases x.canonical with ⟨hsignificand, -, hexponent, -⟩
  have hle : (x.significand : ℚ) ≤ 0x20000000000000 - 1 := by
    have hnat : x.significand + 1 ≤ 0x20000000000000 := hsignificand
    have hcast : (x.significand : ℚ) + 1 ≤ 0x20000000000000 := by exact_mod_cast hnat
    linarith
  calc x.value ≤ (0x20000000000000 - 1) * 2 ^ x.exponent :=
        mul_le_mul_of_nonneg_right hle (by positivity)
    _ ≤ (0x20000000000000 - 1) * 2 ^ (971 : Int) :=
        mul_le_mul_of_nonneg_left (zpow_le_zpow_right₀ (by norm_num) hexponent) (by norm_num)
    _ < overflow := by
        rw [overflow]
        gcongr
        norm_num

theorem map_withSign_ofRatio? (negative sign : Bool) (num den : Nat) :
    (ofRatio? sign num den).map (withSign negative) = ofRatio? negative num den := by
  have hparts : ∀ significand exponent,
      (ofParts? sign significand exponent).map (withSign negative) =
        ofParts? negative significand exponent := by
    intro significand exponent
    unfold ofParts?
    split <;> rfl
  unfold ofRatio?
  split
  · rfl
  · dsimp only
    split
    · exact hparts _ _
    · exact hparts _ _

section Operations

/-- A product as a ratio. -/
theorem ratio_of_mul (x y : Binary64) :
    ((x.significand * y.significand * Nat.pow 2 (x.exponent + y.exponent).toNat : Nat) : ℚ) /
        (Nat.pow 2 (-(x.exponent + y.exponent)).toNat : Nat) = x.value * y.value := by
  simp only [Nat.pow_eq]
  push_cast
  rw [mul_div_assoc, ← zpow_eq_div 2 (by norm_num), zpow_add₀ (by norm_num), value, value]
  ring

/-- A quotient as a ratio. -/
theorem ratio_of_div (x y : Binary64) :
    ((x.significand * Nat.pow 2 (x.exponent - y.exponent).toNat : Nat) : ℚ) /
        (y.significand * Nat.pow 2 (-(x.exponent - y.exponent)).toNat : Nat) =
      x.value / y.value := by
  simp only [Nat.pow_eq]
  push_cast
  rw [mul_div_mul_comm, ← zpow_eq_div 2 (by norm_num), zpow_sub₀ (by norm_num), value, value,
    mul_div_mul_comm]

theorem exists_mul? (h : x.value * y.value < overflow) : ∃ z, x.mul? y = some z := by
  rw [← ratio_of_mul] at h
  refine exists_ofRatio? _ ?_ h
  simp only [Nat.pow_eq]
  positivity

theorem significand_pos_of_value (h : 0 < x.value) : 0 < x.significand := by
  refine Nat.pos_of_ne_zero fun hzero => ?_
  rw [value, hzero, Nat.cast_zero, zero_mul] at h
  exact lt_irrefl _ h

/-- A quotient by a number from one on does not overflow. -/
theorem exists_div? (x : Binary64) (h : 1 ≤ y.value) : ∃ z, x.div? y = some z := by
  have hpos := significand_pos_of_value (zero_lt_one.trans_le h)
  have hvalue : 0 ≤ x.value := by
    unfold value
    positivity
  have hlt := (div_le_self hvalue h).trans_lt x.value_lt_overflow
  rw [← ratio_of_div] at hlt
  refine exists_ofRatio? _ ?_ hlt
  simp only [Nat.pow_eq]
  positivity

end Operations

section Powers

theorem ten_pow_lt_overflow {power : Nat} (h : power ≤ greatestPower) :
    (10 : ℚ) ^ power < overflow := by
  have hnat : 10 ^ 308 < 3 * 2 ^ 51 * 2 ^ 971 := by decide +kernel
  have hcast : (10 : ℚ) ^ 308 < 3 * 2 ^ 51 * 2 ^ 971 := by exact_mod_cast hnat
  calc (10 : ℚ) ^ power ≤ 10 ^ 308 := pow_le_pow_right₀ (by norm_num) h
    _ < 3 * 2 ^ 51 * 2 ^ 971 := hcast
    _ = 3 * 2 ^ 51 * 2 ^ (971 : Int) := by rfl
    _ ≤ overflow := by
      rw [overflow]
      gcongr
      norm_num

/-- No power of ten beyond the greatest is within the format. -/
theorem exponent_le_of_lt_overflow {digits : ℚ} (hone : 1 ≤ digits) {exponent : Int}
    (h : digits * 10 ^ exponent < overflow) : exponent ≤ greatestPower := by
  have hnat : 2 ^ 1024 < 10 ^ 309 := by decide +kernel
  have hcast : (2 : ℚ) ^ (1024 : Int) < 10 ^ (309 : Int) := by exact_mod_cast hnat
  have hlt : (10 : ℚ) ^ exponent < 10 ^ (309 : Int) := by
    calc (10 : ℚ) ^ exponent ≤ digits * 10 ^ exponent :=
          le_mul_of_one_le_left (by positivity) hone
      _ < overflow := h
      _ ≤ 2 ^ (1024 : Int) := overflow_le
      _ < 10 ^ (309 : Int) := hcast
  exact Int.lt_add_one_iff.1 ((zpow_lt_zpow_iff_right₀ (by norm_num : (1 : ℚ) < 10)).1 hlt)

/-- The powers of ten that numbers are scaled by. Each is a number, perhaps a
    little greater than the power, and none is less than one. -/
theorem exists_power {power : Nat} (h : power ≤ greatestPower) :
    ∃ p, ofNat? (Nat.pow 10 power) = some p ∧ 1 ≤ p.value ∧
      p.value ≤ 10 ^ power * (1 + roundoff) := by
  have hpos : 0 < Nat.pow 10 power := by
    simp only [Nat.pow_eq]
    positivity
  have hratio : ((Nat.pow 10 power : Nat) : ℚ) / (1 : Nat) = 10 ^ power := by
    simp
  have hone : (1 : ℚ) ≤ 10 ^ power := one_le_pow₀ (by norm_num)
  have hlt := ten_pow_lt_overflow h
  rw [← hratio] at hlt hone
  rcases exists_ofRatio? false Nat.one_pos hlt with ⟨p, hp⟩
  refine ⟨p, hp, ?_, ?_⟩
  · rw [← zpow_zero (2 : ℚ)] at hone ⊢
    exact le_value_of_le hpos Nat.one_pos (by norm_num) hone hp
  · rw [← hratio]
    exact value_le_of_one_le hpos Nat.one_pos hone hp

theorem exists_divPower? (x : Binary64) {power : Nat} (h : power ≤ greatestPower) :
    ∃ y, x.divPower? power = some y := by
  rcases exists_power h with ⟨p, hp, hone, -⟩
  rw [divPower?, hp]
  exact exists_div? x hone

theorem exists_lower? (x : Binary64) (times : Nat) : ∃ y, x.lower? times = some y := by
  induction times generalizing x with
  | zero => exact ⟨x, rfl⟩
  | succ times ih =>
    rw [lower?]
    split
    · exact ⟨x, rfl⟩
    · rcases exists_divPower? x le_rfl with ⟨y, hy⟩
      rw [hy]
      exact ih y

/-- Dividing by powers of ten never fails. -/
theorem exists_scale?_of_neg (x : Binary64) {exponent : Int} (h : exponent < 0) :
    ∃ y, x.scale? exponent = some y := by
  rw [scale?, if_neg (not_le.2 h)]
  rcases exists_lower? x (((-exponent).toNat - 1) / greatestPower) with ⟨y, hy⟩
  dsimp only
  rw [hy]
  exact exists_divPower? y (Nat.mod_lt _ (by decide))

/-- Multiplying does not if the product stays within the format. -/
theorem exists_scale?_of_nonneg {exponent : Int} (h : 0 ≤ exponent)
    (hle : exponent ≤ greatestPower)
    (hv : x.value * (10 ^ exponent * (1 + roundoff)) < overflow) :
    ∃ y, x.scale? exponent = some y := by
  rw [scale?, if_pos h, if_pos hle]
  rcases exists_power (show exponent.toNat ≤ greatestPower by omega) with ⟨p, hp, -, hupper⟩
  have hpow : (10 : ℚ) ^ exponent = 10 ^ exponent.toNat := by
    rw [← zpow_natCast]
    congr 1
    omega
  have hvalue : 0 ≤ x.value := by
    unfold value
    positivity
  rw [hp]
  rw [hpow] at hv
  exact exists_mul? ((mul_le_mul_of_nonneg_left hupper hvalue).trans_lt hv)

/-- A decimal is read if, each rounding allowed for, it stays within the
    format. -/
theorem exists_ofScaled? (negative : Bool) {d : Decimal} (hdigits : d.digits < 2 ^ 64)
    (h : d.value * (1 + roundoff) ^ 2 < overflow) : ∃ x, ofScaled? negative d = some x := by
  have hten : (0 : ℚ) < 10 ^ d.exponent := by positivity
  have hratio : (d.digits : ℚ) / (1 : Nat) = d.digits := by
    rw [Nat.cast_one, div_one]
  -- The digits make a number, because a word holds them.
  have hword : (d.digits : ℚ) / (1 : Nat) < overflow := by
    rw [hratio]
    have hcast : (d.digits : ℚ) < 2 ^ 64 := by exact_mod_cast hdigits
    have hten := ten_pow_lt_overflow (show 20 ≤ greatestPower by decide)
    refine (hcast.trans ?_).trans hten
    norm_num
  rcases exists_ofRatio? false Nat.one_pos hword with ⟨x, hx⟩
  have hscale : ∃ y, x.scale? d.exponent = some y := by
    rcases lt_or_ge d.exponent 0 with hneg | hpos
    · exact exists_scale?_of_neg x hneg
    rcases Nat.eq_zero_or_pos d.digits with hzero | hsome
    · -- A zero stays one, whatever it is multiplied by.
      rw [hzero] at hx
      cases hx
      rcases le_or_gt d.exponent greatestPower with hle | hgt
      · refine exists_scale?_of_nonneg hpos hle ?_
        have hvalue : value (zero false) = 0 := by simp [value, zero]
        rw [hvalue, zero_mul, ← hvalue]
        exact value_lt_overflow _
      · exact ⟨_, by rw [scale?, if_pos hpos, if_neg (not_le.2 hgt)]; rfl⟩
    · have hone : (1 : ℚ) ≤ d.digits := by exact_mod_cast hsome
      have hvalue := value_le_of_one_le hsome Nat.one_pos (hratio.symm ▸ hone) hx
      rw [hratio] at hvalue
      have hround := roundoff_pos
      refine exists_scale?_of_nonneg hpos (exponent_le_of_lt_overflow hone ?_) (lt_of_le_of_lt ?_ h)
      · refine lt_of_le_of_lt (le_mul_of_one_le_right ?_ (one_le_pow₀ ?_)) h
        · positivity
        · linarith
      · calc x.value * (10 ^ d.exponent * (1 + roundoff))
            ≤ d.digits * (1 + roundoff) * (10 ^ d.exponent * (1 + roundoff)) := by gcongr
          _ = d.value * (1 + roundoff) ^ 2 := by
            rw [Decimal.value]
            ring
  rcases hscale with ⟨y, hy⟩
  rw [ofScaled?, ofNat?, hx, Option.bind_some, hy]
  exact ⟨_, rfl⟩

end Powers

section Exact

/-- Natural numbers that are not rounded: fifty-three bits, with a few zeros
    behind them. -/
theorem exists_ofNat?_eq {m : Nat} (hm : m < 2 ^ 53) {zeros : Nat} (hzeros : zeros ≤ 22) :
    ∃ x, ofNat? (m * 2 ^ zeros) = some x ∧ x.value = m * 2 ^ zeros := by
  rcases Nat.eq_zero_or_pos m with rfl | hpos
  · rw [zero_mul]
    exact ⟨zero false, rfl, by simp [value, zero]⟩
  have hlog : m.log2 ≤ 52 := Nat.le_of_lt_succ ((Nat.log2_lt hpos.ne').2 hm)
  -- The number has the bits in front, so that they fill the significand.
  have hlower : 2 ^ 52 ≤ m * 2 ^ (52 - m.log2) := by
    calc 2 ^ 52 = 2 ^ m.log2 * 2 ^ (52 - m.log2) := by
          rw [← pow_add]
          congr 1
          omega
      _ ≤ m * 2 ^ (52 - m.log2) := Nat.mul_le_mul_right _ (Nat.log2_self_le hpos.ne')
  have hupper : m * 2 ^ (52 - m.log2) < 2 ^ 53 := by
    calc m * 2 ^ (52 - m.log2) < 2 ^ (m.log2 + 1) * 2 ^ (52 - m.log2) :=
          Nat.mul_lt_mul_of_pos_right Nat.lt_log2_self (by positivity)
      _ = 2 ^ 53 := by
          rw [← pow_add]
          congr 1
          omega
  have hcanonical : Canonical (m * 2 ^ (52 - m.log2)) (zeros - (52 - m.log2 : Nat)) :=
    ⟨hupper, by omega, by omega, Or.inl hlower⟩
  have hvalue : value ⟨false, _, _, hcanonical⟩ = m * 2 ^ zeros := by
    rw [value]
    push_cast
    rw [zpow_sub₀ (by norm_num), zpow_natCast, zpow_natCast]
    field_simp
  refine ⟨⟨false, _, _, hcanonical⟩, ?_, hvalue⟩
  refine ofRatio?_eq_some (x := ⟨false, _, _, hcanonical⟩) ?_ Nat.one_pos ?_
  · rw [isZero, beq_eq_false_iff_ne]
    exact (Nat.pos_of_ne_zero (by positivity)).ne'
  · rw [hvalue]
    push_cast
    rw [div_one]

theorem exists_power_eq {power : Nat} (h : power ≤ 22) :
    ∃ p, ofNat? (Nat.pow 10 power) = some p ∧ p.value = 10 ^ power := by
  have hfive : 5 ^ power < 2 ^ 53 := by
    calc 5 ^ power ≤ 5 ^ 22 := Nat.pow_le_pow_right (by norm_num) h
      _ < 2 ^ 53 := by norm_num
  have hten : Nat.pow 10 power = 5 ^ power * 2 ^ power := (Nat.mul_pow 5 2 power).symm ▸ rfl
  rcases exists_ofNat?_eq hfive h with ⟨p, hp, hvalue⟩
  refine ⟨p, hten ▸ hp, hvalue.trans ?_⟩
  push_cast
  rw [← mul_pow]
  norm_num

/-- Multiplying or dividing by a small power of ten is one operation on the power
    itself. -/
theorem scale?_eq_ofRatio? (x : Binary64) {exponent : Int} (h : exponent.natAbs ≤ 22) :
    ∃ (num den : Nat) (sign : Bool), 0 < den ∧ (num / den : ℚ) = x.value * 10 ^ exponent ∧
      x.scale? exponent = ofRatio? sign num den := by
  rcases exists_power_eq h with ⟨p, hp, hpower⟩
  rcases lt_or_ge exponent 0 with hneg | hnonneg
  · have hone : 0 < p.value := by
      rw [hpower]
      positivity
    refine ⟨_, _, x.negative != p.negative, ?_, (ratio_of_div x p).trans ?_, ?_⟩
    · have hpos := significand_pos_of_value hone
      simp only [Nat.pow_eq]
      positivity
    · rw [hpower, div_eq_mul_inv, ← zpow_natCast, ← zpow_neg]
      congr 2
      omega
    · -- The exponent is too small for the greatest power to be used.
      have hplaces : ((-exponent).toNat - 1) / greatestPower = 0 :=
        Nat.div_eq_of_lt (by rw [greatestPower]; omega)
      have hlast : ((-exponent).toNat - 1) % greatestPower + 1 = exponent.natAbs := by
        rw [Nat.mod_eq_of_lt (by rw [greatestPower]; omega)]
        omega
      rw [scale?, if_neg (not_le.2 hneg)]
      dsimp only
      rw [hplaces, hlast, lower?, Option.bind_some, divPower?, hp]
      rfl
  · have hnat : exponent.toNat = exponent.natAbs := by omega
    refine ⟨_, _, x.negative != p.negative, ?_, (ratio_of_mul x p).trans ?_, ?_⟩
    · simp only [Nat.pow_eq]
      positivity
    · rw [hpower, ← zpow_natCast]
      congr 2
      omega
    · rw [scale?, if_pos hnonneg, if_pos (by rw [greatestPower]; omega), hnat, hp]
      rfl

/-- A short decimal is read as the nearest number. -/
theorem ofScaled?_eq_ofDecimal? (negative : Bool) {d : Decimal} (hdigits : d.digits < 2 ^ 53)
    (hexponent : d.exponent.natAbs ≤ 22) : ofScaled? negative d = ofDecimal? negative d := by
  -- Neither the digits nor the power is rounded, so the one rounding left is that of
  -- the value.
  rcases exists_ofNat?_eq hdigits (Nat.zero_le 22) with ⟨x, hx, hvalue⟩
  rw [pow_zero, mul_one] at hx hvalue
  rcases scale?_eq_ofRatio? x hexponent with ⟨num, den, sign, hden, hratio, hscale⟩
  rw [hvalue] at hratio
  rw [ofScaled?, hx, Option.bind_some, hscale, map_withSign_ofRatio?]
  rcases Nat.eq_zero_or_pos d.digits with hzero | hpos
  · have hnum : num = 0 := by
      have hne : (den : ℚ) ≠ 0 := by exact_mod_cast hden.ne'
      rw [hzero, Nat.cast_zero, zero_mul, div_eq_zero_iff] at hratio
      exact_mod_cast hratio.resolve_right hne
    rw [ofDecimal?_of_digits_eq_zero negative hzero, ofRatio?, if_pos hnum]
  · have hone : (1 : ℚ) ≤ d.digits := by exact_mod_cast hpos
    have hlt : (d.digits : ℚ) < 2 ^ 53 := by exact_mod_cast hdigits
    refine (ofDecimal?_eq_ofRatio? negative hden hratio ?_ ?_).symm
    · calc (10 : ℚ) ^ (-400 : Int) ≤ 10 ^ d.exponent :=
            zpow_le_zpow_right₀ (by norm_num) (by omega)
        _ = 1 * 10 ^ d.exponent := (one_mul _).symm
        _ ≤ d.digits * 10 ^ d.exponent := by gcongr
    · calc d.value < 2 ^ 53 * 10 ^ d.exponent := mul_lt_mul_of_pos_right hlt (by positivity)
        _ ≤ 10 ^ (53 : Int) * 10 ^ d.exponent := by
          gcongr
          norm_num
        _ = 10 ^ (53 + d.exponent) := (zpow_add₀ (by norm_num) _ _).symm
        _ ≤ 10 ^ (400 : Int) := zpow_le_zpow_right₀ (by norm_num) (by omega)

end Exact

end Binary64

end Fieldwork
