import Fieldwork.Json.Number
import Fieldwork.Proofs.Binary64.Scaled
import Fieldwork.Proofs.Text.Digits

/-!
# Digits in a Word

What is left of a token when its digits are gathered in a word.

A word holds the first nineteen or twenty digits, and whatever does not fit is
cut off. So the decimal that is scaled is the one that the token names, or
somewhat less (`gathered_le`). That it is not more takes an argument, because a
digit behind the point may fit where one before it did not: the word then takes
the later digit in the place of the earlier one, but the later one is less.

Hence a token is read if what it names stays within the format
(`exists_binary64?`), and as the nearest number if it is short enough
(`binary64?_eq_ofDecimal?`).

## Theorems

* `exists_taken`: Gathering cuts the digits in two.
* `gather_eq_of_lt`: Digits that fit are all taken.
* `gathered_le`: What is gathered is no more than what the token names.
* `exists_binary64?`: A token within the format is read.
* `binary64?_eq_ofDecimal?`: A short token is read as the nearest number.
-/

namespace Fieldwork

namespace NumberToken

/-- Gathering cuts the digits in two: those in front make the number, and the
    first of the others would make it outgrow the word. -/
theorem exists_taken {n : Nat} (hn : n < 0x10000000000000000) (cs : List Char) :
    ∃ taken, cs = taken ++ (gather n cs).2 ∧ (gather n cs).1 = Nat.ofDigitChars 10 taken n ∧
      (gather n cs).1 < 0x10000000000000000 ∧
      ∀ c rest, (gather n cs).2 = c :: rest →
        0x10000000000000000 ≤ (gather n cs).1 * 10 + (c.toNat - '0'.toNat) := by
  induction cs generalizing n with
  | nil => exact ⟨[], rfl, rfl, hn, fun _ _ h => by cases h⟩
  | cons c rest ih =>
    rw [gather]
    split
    · rename_i hfits
      rcases ih hfits with ⟨taken, hsplit, hvalue, hlt, hnext⟩
      refine ⟨c :: taken, congrArg (c :: ·) hsplit, hvalue.trans ?_, hlt, hnext⟩
      rw [Nat.ofDigitChars_cons, mul_comm 10]
    · rename_i hfull
      refine ⟨[], rfl, rfl, hn, ?_⟩
      rintro _ _ ⟨⟩
      exact Nat.not_lt.1 hfull

theorem ofDigitChars_eq (cs : List Char) (n : Nat) :
    Nat.ofDigitChars 10 cs n = 10 ^ cs.length * n + Nat.ofDigitChars 10 cs 0 :=
  Nat.ofDigitChars_eq_ofDigitChars_zero

/-- More digits make no smaller number. -/
theorem le_ofDigitChars (cs : List Char) (n : Nat) : n ≤ Nat.ofDigitChars 10 cs n := by
  rw [ofDigitChars_eq]
  exact (Nat.le_mul_of_pos_left n (by positivity)).trans (Nat.le_add_right _ _)

/-- Digits that fit are all taken. -/
theorem gather_eq_of_lt {n : Nat} {cs : List Char}
    (h : Nat.ofDigitChars 10 cs n < 0x10000000000000000) :
    gather n cs = (Nat.ofDigitChars 10 cs n, []) := by
  induction cs generalizing n with
  | nil => rfl
  | cons c rest ih =>
    rw [Nat.ofDigitChars_cons, mul_comm 10] at h
    rw [gather, Nat.ofDigitChars_cons, mul_comm 10]
    rw [if_pos ((le_ofDigitChars rest _).trans_lt h), ih h]

/-- Of two runs of digits with the point in front the one with the smaller first
    digit is the smaller. -/
theorem ofDigitChars_mul_le {c d : Char} {cs ds : List Char}
    (hds : ∀ x ∈ ds, x.isDigit = true) (h : d.toNat - '0'.toNat < c.toNat - '0'.toNat) :
    Nat.ofDigitChars 10 (d :: ds) 0 * 10 ^ (c :: cs).length ≤
      Nat.ofDigitChars 10 (c :: cs) 0 * 10 ^ (d :: ds).length := by
  have hrest := Digits.ofDigitChars_lt hds
  rw [Nat.ofDigitChars_cons, ofDigitChars_eq ds, Nat.ofDigitChars_cons, ofDigitChars_eq cs,
    List.length_cons, List.length_cons]
  generalize d.toNat - '0'.toNat = first at h ⊢
  generalize c.toNat - '0'.toNat = other at h ⊢
  generalize Nat.ofDigitChars 10 ds 0 = value at hrest ⊢
  simp only [Nat.mul_zero, Nat.zero_add]
  calc (10 ^ ds.length * first + value) * 10 ^ (cs.length + 1)
      ≤ 10 ^ ds.length * other * 10 ^ (cs.length + 1) := by
        refine Nat.mul_le_mul_right _ ?_
        calc 10 ^ ds.length * first + value ≤ 10 ^ ds.length * (first + 1) := by
              rw [Nat.mul_add, Nat.mul_one]
              omega
          _ ≤ 10 ^ ds.length * other := Nat.mul_le_mul_left _ h
    _ = 10 ^ cs.length * other * 10 ^ (ds.length + 1) := by ring
    _ ≤ (10 ^ cs.length * other + Nat.ofDigitChars 10 cs 0) * 10 ^ (ds.length + 1) :=
        Nat.mul_le_mul_right _ (Nat.le_add_right _ _)

/-- The digits that are taken behind the point make up for no more than those
    that were left out in front of it. -/
theorem taken_le {n : Nat} {beyond taken : List Char} (htaken : ∀ c ∈ taken, c.isDigit = true)
    (hbeyond : ∀ c rest, beyond = c :: rest → 0x10000000000000000 ≤ n * 10 + (c.toNat - '0'.toNat))
    (hfits : Nat.ofDigitChars 10 taken n < 0x10000000000000000) :
    Nat.ofDigitChars 10 taken 0 * 10 ^ beyond.length ≤
      Nat.ofDigitChars 10 beyond 0 * 10 ^ taken.length + Nat.ofDigitChars 10 taken 0 := by
  rcases taken with _ | ⟨d, ds⟩
  · rw [Nat.ofDigitChars_nil, zero_mul]
    exact Nat.zero_le _
  rcases beyond with _ | ⟨c, cs⟩
  · rw [List.length_nil, pow_zero, mul_one]
    exact Nat.le_add_left _ _
  -- The digit in front did not fit and this one does, so it is less.
  have hless : d.toNat - '0'.toNat < c.toNat - '0'.toNat := by
    have hfirst := hbeyond c cs rfl
    have hsecond := (le_ofDigitChars ds _).trans_lt (Nat.ofDigitChars_cons ▸ hfits)
    omega
  exact (ofDigitChars_mul_le (List.forall_mem_cons.1 htaken).2 hless).trans (Nat.le_add_right _ _)

/-- What is gathered fits a word, and is no more than what the token names. -/
theorem gathered_le {token : NumberToken}
    (hdigits : ∀ c ∈ token.whole ++ token.fraction, c.isDigit = true) :
    token.gathered.digits < 0x10000000000000000 ∧
      Decimal.value ⟨token.gathered.digits, token.gathered.exponent + token.exponent.getD 0⟩ ≤
        token.decimal.value := by
  rcases token with ⟨negative, whole, fraction, exponent⟩
  rcases exists_taken (show 0 < 0x10000000000000000 by decide) whole with
    ⟨front, hwhole, hfront, hword, hbeyond⟩
  rcases exists_taken hword fraction with ⟨taken, hfraction, htaken, hfits, -⟩
  refine ⟨hfits, ?_⟩
  simp only [gathered, decimal, Decimal.value] at hdigits ⊢
  generalize (gather 0 whole).2 = beyond at *
  generalize (gather 0 whole).1 = n at *
  generalize (gather n fraction).2 = rest at *
  generalize (gather n fraction).1 = digits at *
  subst hwhole hfraction htaken
  have hless := taken_le (fun c hc => hdigits c (by simp [hc])) hbeyond hfits
  -- The whole numbers that the two decimals are at the place of the last digit.
  have hnat : Nat.ofDigitChars 10 taken n * 10 ^ (beyond.length + rest.length) ≤
      Nat.ofDigitChars 10 (front ++ beyond ++ (taken ++ rest)) 0 := by
    rw [Nat.ofDigitChars_append, Nat.ofDigitChars_append, Nat.ofDigitChars_append, ← hfront,
      ofDigitChars_eq rest, ofDigitChars_eq taken n,
      ofDigitChars_eq taken (Nat.ofDigitChars 10 beyond n), ofDigitChars_eq beyond, pow_add]
    nlinarith [Nat.mul_le_mul_right (10 ^ rest.length) hless]
  have hcast : (Nat.ofDigitChars 10 taken n : ℚ) * 10 ^ (beyond.length + rest.length) ≤
      Nat.ofDigitChars 10 (front ++ beyond ++ (taken ++ rest)) 0 := by
    exact_mod_cast hnat
  have hplace : ((beyond.length : Int) - ((taken ++ rest).length - rest.length : Nat)) +
      exponent.getD 0 = ((beyond.length + rest.length : Nat) : Int) +
        (exponent.getD 0 - (taken ++ rest).length) := by
    rw [List.length_append]
    push_cast
    omega
  rw [hplace, zpow_add₀ (by norm_num), zpow_natCast, ← mul_assoc]
  exact mul_le_mul_of_nonneg_right hcast (by positivity)

/-- A token is read if what it names stays within the format. -/
theorem exists_binary64? {token : NumberToken}
    (hdigits : ∀ c ∈ token.whole ++ token.fraction, c.isDigit = true)
    (hexponent : (token.exponent.getD 0).natAbs ≤ exponentLimit)
    (h : token.decimal.value * (1 + Binary64.roundoff) ^ 2 < Binary64.overflow) :
    ∃ x, token.binary64? = some x := by
  rcases gathered_le hdigits with ⟨hword, hle⟩
  rw [binary64?, if_pos hexponent]
  refine Binary64.exists_ofScaled? _ hword (lt_of_le_of_lt ?_ h)
  have hround := Binary64.roundoff_pos
  exact mul_le_mul_of_nonneg_right hle (by positivity)

/-- A short token is read as the number nearest to what it names. -/
theorem binary64?_eq_ofDecimal? {token : NumberToken}
    (hexponent : (token.exponent.getD 0).natAbs ≤ exponentLimit)
    (hshort : token.decimal.digits < 2 ^ 53) (hscale : token.decimal.exponent.natAbs ≤ 22) :
    token.binary64? = Binary64.ofDecimal? token.negative token.decimal := by
  rcases token with ⟨negative, whole, fraction, exponent⟩
  have hall : Nat.ofDigitChars 10 fraction (Nat.ofDigitChars 10 whole 0) < 0x10000000000000000 := by
    rw [decimal, Nat.ofDigitChars_append] at hshort
    exact hshort.trans (by norm_num)
  have hwhole := gather_eq_of_lt ((le_ofDigitChars fraction _).trans_lt hall)
  have hfraction := gather_eq_of_lt hall
  -- No digit is left out, so the word holds the digits of the decimal.
  have hgathered : gathered ⟨negative, whole, fraction, exponent⟩ =
      ⟨Nat.ofDigitChars 10 (whole ++ fraction) 0, -fraction.length⟩ := by
    simp only [gathered, hwhole, hfraction, Nat.ofDigitChars_append, List.length_nil,
      Nat.sub_zero, Nat.cast_zero, zero_sub]
  rw [binary64?, hgathered, if_pos hexponent, neg_add_eq_sub]
  exact Binary64.ofScaled?_eq_ofDecimal? negative hshort hscale

end NumberToken

end Fieldwork
