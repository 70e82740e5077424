import Fieldwork.Binary64.Decimal
import Fieldwork.Proofs.Binary64.Rounding

/-!
# The Shortest Decimal Reads Back

Every binary64 number is the one nearest to the decimal that it is written with.

The search for the shortest decimal tests each rounding that it offers, so a
rounding that comes out of it is near enough for that reason alone. What has to
be proved is that the search cannot come out empty. Its last candidate is the
exact expansion, and that is the one case where nothing may be rounded: the
ratio has to be recognized as the very significand and exponent that the number
has. Recognizing depends on the value alone (`ofDecimal?_congr`): zeros at the
end of the digits are taken off first, and what is left is the same for all
decimals of one value.

## Main definitions

* `Decimal.value`: The rational that a decimal names.

## Theorems

* `normalize_congr`: Decimals of one value have one normal form.
* `ofDecimal?_congr`: The nearest number depends on the value alone.
* `exponent_lt_of_lt`, `lt_exponent_of_le`: No number is taken for one out of
  range.
* `ofDecimal?_eq_ofRatio?`, `exists_ratio_of_ofDecimal?`: The nearest number is
  one rounding of the value.
* `ofDecimal?_eq_some`: A decimal that is a number is nearest to that number.
* `ofDecimal?_shortest`: The shortest decimal of a number is nearest to it.
* `value_shortest_bounds`, `value_shortest_range`: How far from its number the
  shortest decimal is, and where both are.
-/

namespace Fieldwork

/-- The rational that a decimal names. -/
def Decimal.value (d : Decimal) : ℚ :=
  d.digits * (10 : ℚ) ^ d.exponent

namespace Decimal

theorem value_stripZeros (fuel : Nat) (d : Decimal) : (stripZeros fuel d).value = d.value := by
  induction fuel generalizing d with
  | zero => rfl
  | succ fuel ih =>
    rw [stripZeros]
    split
    · rename_i h
      rw [ih]
      have hd : d.digits = d.digits / 10 * 10 := by omega
      have hcast : (d.digits : ℚ) = (d.digits / 10 : Nat) * 10 := by
        exact_mod_cast hd
      simp only [value]
      rw [hcast, zpow_add₀ (by norm_num), zpow_one]
      ring
    · rfl

/-- The fuel suffices to take off every zero. -/
theorem stripZeros_mod (fuel : Nat) (d : Decimal) (hpos : 0 < d.digits)
    (hlt : d.digits < 2 ^ (fuel + 1)) : (stripZeros fuel d).digits % 10 ≠ 0 := by
  induction fuel generalizing d with
  | zero =>
    simp only [stripZeros]
    omega
  | succ fuel ih =>
    rw [stripZeros]
    -- Each zero that is taken off halves what the fuel has to cover, and more.
    split
    · rename_i h
      refine ih _ ?_ ?_
      · simp only
        omega
      · simp only
        rw [pow_succ] at hlt
        omega
    · rename_i h
      exact h

theorem value_normalize (d : Decimal) : d.normalize.value = d.value := by
  unfold normalize
  split
  · rename_i h
    simp [value, h]
  · exact value_stripZeros _ _

/-- The normal form of a decimal that is not zero ends in another digit. -/
theorem normalize_mod {d : Decimal} (h : d.digits ≠ 0) : d.normalize.digits % 10 ≠ 0 := by
  unfold normalize
  rw [if_neg h]
  exact stripZeros_mod _ _ (Nat.pos_of_ne_zero h) Nat.lt_log2_self

theorem value_eq_zero_iff (d : Decimal) : d.value = 0 ↔ d.digits = 0 := by
  have ten : (10 : ℚ) ^ d.exponent ≠ 0 := by positivity
  simp [value, ten]

/-- Two decimals of one value, neither of which ends in a zero, are one. -/
theorem eq_of_value_eq {d e : Decimal} (hd : d.digits % 10 ≠ 0) (he : e.digits % 10 ≠ 0)
    (h : d.value = e.value) : d = e := by
  -- Which of the two has the greater exponent does not matter.
  wlog hle : d.exponent ≤ e.exponent generalizing d e
  · exact (this he hd h.symm (by omega)).symm
  have hsplit : e.exponent = (e.exponent - d.exponent).toNat + d.exponent := by omega
  have ten : (10 : ℚ) ^ d.exponent ≠ 0 := by positivity
  have hdigits : d.digits = e.digits * 10 ^ (e.exponent - d.exponent).toNat := by
    unfold value at h
    rw [hsplit, zpow_add₀ (by norm_num), ← mul_assoc, zpow_natCast] at h
    exact_mod_cast mul_right_cancel₀ ten h
  -- A greater exponent would leave a zero at the end of the other digits.
  have hzero : (e.exponent - d.exponent).toNat = 0 := by
    by_contra hne
    rcases Nat.exists_eq_succ_of_ne_zero hne with ⟨n, hn⟩
    rw [hn, pow_succ, ← mul_assoc] at hdigits
    omega
  rw [hzero, pow_zero, mul_one] at hdigits
  rcases d with ⟨digits, exponent⟩
  rcases e with ⟨digits', exponent'⟩
  simp only at hdigits hzero hle
  rw [hdigits, show exponent = exponent' by omega]

/-- Decimals of one value have one normal form. -/
theorem normalize_congr {d e : Decimal} (h : d.value = e.value) : d.normalize = e.normalize := by
  -- Zero has a normal form of its own; of the others each value has one without a
  -- zero at the end.
  by_cases hd : d.digits = 0
  · have he : e.digits = 0 := by
      rw [← value_eq_zero_iff, ← h, value_eq_zero_iff]
      exact hd
    rw [normalize, normalize, if_pos hd, if_pos he]
  · have he : e.digits ≠ 0 := by
      rw [Ne, ← value_eq_zero_iff, ← h, value_eq_zero_iff]
      exact hd
    exact eq_of_value_eq (normalize_mod hd) (normalize_mod he)
      (by rw [value_normalize, value_normalize, h])

end Decimal

namespace Binary64

/-- Reading depends on the value of a decimal alone. -/
theorem ofDecimal?_congr (negative : Bool) {d e : Decimal} (h : d.value = e.value) :
    ofDecimal? negative d = ofDecimal? negative e := by
  rw [ofDecimal?, ofDecimal?, Decimal.normalize_congr h]

theorem ofDecimal?_of_digits_eq_zero (negative : Bool) {d : Decimal} (h : d.digits = 0) :
    ofDecimal? negative d = some (zero negative) := by
  rw [ofDecimal?, Decimal.normalize, if_pos h]
  rfl

theorem value_bounds {x : Binary64} (h : x.isZero = false) :
    (2 : ℚ) ^ (-1074 : Int) ≤ x.value ∧ x.value < 2 ^ (1024 : Int) := by
  rcases x.canonical with ⟨upper, least, greatest, -⟩
  have hone : (1 : ℚ) ≤ x.significand := by
    exact_mod_cast significand_pos h
  have hlt : (x.significand : ℚ) < 2 ^ (53 : Int) := by
    rw [show (53 : Int) = ((53 : Nat) : Int) by rfl, zpow_natCast]
    exact_mod_cast upper
  -- The least significand is one and the greatest is below 2 to the 53.
  constructor
  · calc (2 : ℚ) ^ (-1074 : Int) ≤ 2 ^ x.exponent := zpow_le_zpow_right₀ (by norm_num) least
      _ = 1 * 2 ^ x.exponent := (one_mul _).symm
      _ ≤ x.value := mul_le_mul_of_nonneg_right hone (by positivity)
  · calc x.value < 2 ^ (53 : Int) * 2 ^ x.exponent :=
        mul_lt_mul_of_pos_right hlt (by positivity)
      _ = 2 ^ (53 + x.exponent) := (zpow_add₀ (by norm_num) _ _).symm
      _ ≤ 2 ^ (1024 : Int) := zpow_le_zpow_right₀ (by norm_num) (by omega)

/-- The powers of ten that are taken for out of range are beyond every power of
    two of the format. -/
theorem two_zpow_le {k : Int} (h : k ≤ 1088) : (2 : ℚ) ^ k ≤ 10 ^ (400 : Int) := by
  calc (2 : ℚ) ^ k ≤ 2 ^ (1088 : Int) := zpow_le_zpow_right₀ (by norm_num) h
    _ = (2 ^ 68) ^ 16 := by rw [← pow_mul]; rfl
    _ ≤ (10 ^ 25) ^ 16 := by gcongr; norm_num
    _ = 10 ^ (400 : Int) := by rw [← pow_mul]; rfl

theorem le_two_zpow {k : Int} (h : -1088 ≤ k) : (10 : ℚ) ^ (-400 : Int) ≤ 2 ^ k := by
  have hinv := inv_anti₀ (by positivity) (two_zpow_le (show -k ≤ 1088 by omega))
  rwa [← zpow_neg, ← zpow_neg, neg_neg] at hinv

section Range

variable {digits : Nat} {exponent : Int}

/-- A decimal in range does not have an exponent that is taken for too large. -/
theorem exponent_lt_of_lt (hdigits : digits ≠ 0)
    (hupper : (digits : ℚ) * 10 ^ exponent < 10 ^ (400 : Int)) : exponent < 400 := by
  have hone : (1 : ℚ) ≤ digits := by exact_mod_cast Nat.pos_of_ne_zero hdigits
  have hpow : (10 : ℚ) ^ exponent < 10 ^ (400 : Int) := by
    calc (10 : ℚ) ^ exponent = 1 * 10 ^ exponent := (one_mul _).symm
      _ ≤ digits * 10 ^ exponent := mul_le_mul_of_nonneg_right hone (by positivity)
      _ < 10 ^ (400 : Int) := hupper
  exact (zpow_lt_zpow_iff_right₀ (by norm_num : (1 : ℚ) < 10)).1 hpow

/-- Nor one that is taken for too small. -/
theorem lt_exponent_of_le (hdigits : digits ≠ 0)
    (hlower : (10 : ℚ) ^ (-400 : Int) ≤ digits * 10 ^ exponent) :
    -400 < (digits.log2 : Int) + 1 + exponent := by
  -- The test bounds the digits by a power of two, and ten is more than two.
  have hpow : (digits : ℚ) < 10 ^ ((digits.log2 : Int) + 1) := by
    calc (digits : ℚ) < 2 ^ ((digits.log2 : Int) + 1) :=
          (log2_bounds (Nat.pos_of_ne_zero hdigits)).2
      _ ≤ 10 ^ ((digits.log2 : Int) + 1) :=
        zpow_le_zpow_left₀ (by omega) (by norm_num) (by norm_num)
  have hlt : (10 : ℚ) ^ (-400 : Int) < 10 ^ ((digits.log2 : Int) + 1 + exponent) := by
    calc (10 : ℚ) ^ (-400 : Int) ≤ digits * 10 ^ exponent := hlower
      _ < 10 ^ ((digits.log2 : Int) + 1) * 10 ^ exponent :=
        mul_lt_mul_of_pos_right hpow (by positivity)
      _ = 10 ^ ((digits.log2 : Int) + 1 + exponent) := (zpow_add₀ (by norm_num) _ _).symm
  exact (zpow_lt_zpow_iff_right₀ (by norm_num : (1 : ℚ) < 10)).1 hlt

end Range

/-- A decimal as a ratio: its power of ten is in the numerator or in the
    denominator. -/
theorem ratio_of_decimal (d : Decimal) :
    0 < Nat.pow 10 (-d.exponent).toNat ∧
      ((d.digits * Nat.pow 10 d.exponent.toNat : Nat) : ℚ) /
        (Nat.pow 10 (-d.exponent).toNat : Nat) = d.value := by
  simp only [Nat.pow_eq]
  refine ⟨by positivity, ?_⟩
  rw [Decimal.value, zpow_eq_div 10 (by norm_num), mul_div_assoc']
  push_cast
  rfl

/-- The number nearest to a decimal in range is one rounding of its value. The
    two tests on the exponent alone do not answer, because they do so only
    outside of the range. -/
theorem ofDecimal?_eq_ofRatio? (negative : Bool) {d : Decimal} {num den : Nat} (hd : 0 < den)
    (hv : (num / den : ℚ) = d.value) (hlower : (10 : ℚ) ^ (-400 : Int) ≤ d.value)
    (hupper : d.value < 10 ^ (400 : Int)) :
    ofDecimal? negative d = ofRatio? negative num den := by
  have hten : (0 : ℚ) < 10 ^ (-400 : Int) := by positivity
  have hdigits : d.normalize.digits ≠ 0 := by
    intro hzero
    rw [← Decimal.value_normalize, (Decimal.value_eq_zero_iff _).2 hzero] at hlower
    exact absurd hlower (not_le.2 hten)
  rw [← Decimal.value_normalize] at hv hlower hupper
  rcases ratio_of_decimal d.normalize with ⟨hpos, hratio⟩
  rw [ofDecimal?]
  simp only
  rw [if_neg hdigits, if_neg (not_le.2 (exponent_lt_of_lt hdigits hupper)),
    if_neg (not_le.2 (lt_exponent_of_le hdigits hlower))]
  exact ofRatio?_congr negative hpos hd (hratio.trans hv.symm)

/-- Whatever is nearest to a decimal is so by rounding, or it is zero. -/
theorem exists_ratio_of_ofDecimal? {negative : Bool} {d : Decimal} {x : Binary64}
    (hx : x.isZero = false) (h : ofDecimal? negative d = some x) :
    ∃ num den : Nat, 0 < num ∧ 0 < den ∧ (num / den : ℚ) = d.value ∧
      ofRatio? negative num den = some x := by
  have hnone : some x ≠ some (zero negative) := by
    rintro heq
    cases heq
    cases hx
  rw [ofDecimal?] at h
  simp only at h
  split at h
  · exact absurd h.symm hnone
  · rename_i hdigits
    split at h
    · cases h
    · split at h
      · exact absurd h.symm hnone
      · rcases ratio_of_decimal d.normalize with ⟨hpos, hratio⟩
        refine ⟨_, _, ?_, hpos, hratio.trans (Decimal.value_normalize d), h⟩
        simp only [Nat.pow_eq]
        positivity

/-- A decimal that is a number is nearest to that number. -/
theorem ofDecimal?_eq_some {x : Binary64} (h : x.isZero = false) {d : Decimal}
    (hv : d.value = x.value) : ofDecimal? x.negative d = some x := by
  rcases value_bounds h with ⟨hleast, hgreatest⟩
  rcases ratio_of_decimal d with ⟨hpos, hratio⟩
  rw [ofDecimal?_eq_ofRatio? x.negative hpos hratio
    (hv ▸ (le_two_zpow (by norm_num)).trans hleast)
    (hv ▸ hgreatest.trans_le (two_zpow_le (by norm_num)))]
  exact ofRatio?_eq_some h hpos (hratio.trans hv)

theorem value_expansion (x : Binary64) : x.expansion.value = x.value := by
  unfold expansion
  split
  · rename_i h
    simp only [Decimal.value, value, Nat.pow_eq, zpow_zero, mul_one]
    rw [show (2 : ℚ) ^ x.exponent = 2 ^ x.exponent.toNat by
      rw [← zpow_natCast]
      congr 1
      omega]
    push_cast
    rfl
  · -- A half is five tenths, so each power of two below is one of five and ten.
    rename_i h
    have hneg : x.exponent = -((-x.exponent).toNat : Int) := by omega
    simp only [Decimal.value, value, Nat.pow_eq]
    generalize (-x.exponent).toNat = k at hneg ⊢
    rw [hneg, zpow_neg, zpow_neg, zpow_natCast, zpow_natCast, show (10 : ℚ) = 5 * 2 by norm_num,
      mul_pow]
    push_cast
    field_simp

/-- The search gives a decimal that is near enough if it starts from one. -/
theorem ofDecimal?_shortestFrom {x : Binary64} {d : Decimal}
    (h : ofDecimal? x.negative d = some x) (places : Nat) :
    ofDecimal? x.negative (shortestFrom x d places) = some x := by
  induction places with
  | zero => exact h
  | succ places ih =>
    rw [shortestFrom]
    -- A rounding is taken only after it was tested.
    cases hr : rounding? x d (places + 1) with
    | none => exact ih
    | some e => exact ofDecimal?_rounding? hr

/-- The shortest decimal of a number is nearest to it. -/
theorem ofDecimal?_shortest {x : Binary64} (h : x.isZero = false) :
    ofDecimal? x.negative x.shortest = some x := by
  unfold shortest
  rw [ofDecimal?_congr _ (Decimal.value_normalize _)]
  exact ofDecimal?_shortestFrom (ofDecimal?_eq_some h (value_expansion x)) _

/-- The shortest decimal of a number that is not zero is not zero either. -/
theorem shortest_digits_pos {x : Binary64} (h : x.isZero = false) : 0 < x.shortest.digits := by
  by_contra hz
  -- It would be nearest to a zero, and it is nearest to the number.
  have hread := ofDecimal?_shortest h
  rw [ofDecimal?_of_digits_eq_zero _ (by omega)] at hread
  rw [← Option.some.inj hread] at h
  cases h

/-- One unit is the least that a number which is not zero has. -/
theorem two_zpow_exponent_le {x : Binary64} (h : x.isZero = false) :
    (2 : ℚ) ^ x.exponent ≤ x.value :=
  le_mul_of_one_le_left (by positivity) (by exact_mod_cast significand_pos h)

/-- The shortest decimal is within half a unit in the last place of its number. -/
theorem value_shortest_bounds {x : Binary64} (h : x.isZero = false) :
    x.shortest.value ≤ x.value + 2 ^ x.exponent / 2 ∧ x.value / 2 ≤ x.shortest.value := by
  rcases exists_ratio_of_ofDecimal? h (ofDecimal?_shortest h) with ⟨num, den, hn, hd, hratio, hx⟩
  rcases value_bounds_of_ratio hn hd hx with ⟨hlower, hupper⟩
  rw [hratio] at hlower hupper
  have hplace : (2 : ℚ) ^ lastPlace num den ≤ 2 ^ x.exponent :=
    zpow_le_zpow_right₀ (by norm_num) (value_of_ofRatio? hn hx).2
  have hexponent := two_zpow_exponent_le h
  constructor <;> linarith

/-- The shortest decimal is in range. -/
theorem value_shortest_range {x : Binary64} (h : x.isZero = false) :
    (10 : ℚ) ^ (-400 : Int) ≤ x.shortest.value ∧ x.shortest.value < 10 ^ (400 : Int) := by
  rcases value_shortest_bounds h with ⟨hupper, hlower⟩
  rcases value_bounds h with ⟨hleast, hgreatest⟩
  have hhalf : (2 : ℚ) ^ (-1074 : Int) * 2⁻¹ = 2 ^ (-1075 : Int) :=
    (zpow_sub_one₀ two_ne_zero _).symm
  have hexponent := two_zpow_exponent_le h
  have hdouble : (2 : ℚ) ^ (1024 : Int) * 2 = 2 ^ (1025 : Int) :=
    (zpow_add_one₀ two_ne_zero _).symm
  have hpos := value_pos h
  constructor
  · calc (10 : ℚ) ^ (-400 : Int) ≤ 2 ^ (-1075 : Int) := le_two_zpow (by norm_num)
      _ ≤ x.value / 2 := by
        rw [← hhalf]
        linarith
      _ ≤ x.shortest.value := hlower
  · calc x.shortest.value ≤ x.value + 2 ^ x.exponent / 2 := hupper
      _ < 2 ^ (1025 : Int) := by
        rw [← hdouble]
        generalize (2 : ℚ) ^ (1024 : Int) = bound at hgreatest ⊢
        linarith
      _ ≤ 10 ^ (400 : Int) := two_zpow_le (by norm_num)

theorem eq_zero_of_isZero {x : Binary64} (h : x.isZero = true) : x = zero x.negative := by
  rcases x with ⟨negative, significand, exponent, canonical⟩
  simp only [isZero, beq_iff_eq] at h
  subst h
  rcases canonical with ⟨-, -, -, full | rfl⟩
  · omega
  · rfl

/-- Zero is the value of the two zeros only. -/
theorem isZero_iff {x : Binary64} : x.isZero = true ↔ x.value = 0 := by
  have hpower : (2 : ℚ) ^ x.exponent ≠ 0 := zpow_ne_zero _ two_ne_zero
  rw [isZero, beq_iff_eq, value, mul_eq_zero, Nat.cast_eq_zero, or_iff_left hpower]

end Binary64

end Fieldwork
