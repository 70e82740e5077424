import Mathlib.Algebra.Order.Ring.Nat
import Fieldwork.Text.Numeral

/-!
# Runs of Decimal Digits

What a reader takes off a text when it takes digits.

Every reader of a number, of a date or of a fraction begins the same way: it
takes the longest run of digits and goes on with what follows. Whoever wrote
the digits knows where the run ends only if the next character is none, so
that is the one condition here. The value of a run is below the power of ten
of its length, which is what a reader of a fixed width relies on.

## Theorems

* `takeWhile_isDigit_append`, `dropWhile_isDigit_append`: Written digits come
  off as they are.
* `ofDigitChars_lt`: The value of a run of digits is bounded by its length.
* `head?_toDigits_ne`: No zero stands in front of a written number.
-/

namespace Fieldwork

namespace Digits

/-- Digits come off whole where the rest starts with no digit. -/
theorem takeWhile_isDigit_append {digits rest : List Char} (hd : ∀ c ∈ digits, c.isDigit = true)
    (hr : ∀ c ∈ rest.head?, c.isDigit = false) :
    (digits ++ rest).takeWhile Char.isDigit = digits := by
  rw [List.takeWhile_append_of_pos hd]
  cases rest with
  | nil => simp
  | cons c cs => simp [hr c (by simp)]

theorem dropWhile_isDigit_append {digits rest : List Char} (hd : ∀ c ∈ digits, c.isDigit = true)
    (hr : ∀ c ∈ rest.head?, c.isDigit = false) :
    (digits ++ rest).dropWhile Char.isDigit = rest := by
  rw [List.dropWhile_append_of_pos hd]
  cases rest with
  | nil => rfl
  | cons c cs => simp [hr c (by simp)]

theorem toNat_sub_lt {c : Char} (h : c.isDigit = true) : c.toNat - '0'.toNat < 10 := by
  simp only [Char.isDigit, Bool.and_eq_true, decide_eq_true_eq, ge_iff_le] at h
  have upper : c.toNat ≤ 57 := h.2
  have zero : '0'.toNat = 48 := rfl
  omega

/-- The value of a run of digits is below the power of ten of its length. -/
theorem ofDigitChars_lt {cs : List Char} (h : ∀ c ∈ cs, c.isDigit = true) :
    Nat.ofDigitChars 10 cs 0 < 10 ^ cs.length := by
  induction cs with
  | nil => simp
  | cons c rest ih =>
    have hc := toNat_sub_lt (h c (by simp))
    have hrest := ih fun d hd => h d (by simp [hd])
    rw [Nat.ofDigitChars_cons, Nat.ofDigitChars_eq_ofDigitChars_zero, List.length_cons, pow_succ]
    -- The product is named for the sake of `omega`.
    have scaled := Nat.mul_le_mul_left (10 ^ rest.length) (show c.toNat - '0'.toNat ≤ 9 by omega)
    simp only [Nat.mul_zero, Nat.zero_add]
    omega

/-- The zeros that fill a number up are digits. -/
theorem isDigit_of_mem_zeros {count : Nat} {c : Char} (h : c ∈ List.replicate count '0') :
    c.isDigit = true := by
  rw [(List.mem_replicate.1 h).2]
  rfl

theorem isDigit_of_mem_toDigits {n : Nat} {c : Char} (h : c ∈ Nat.toDigits 10 n) :
    c.isDigit = true :=
  Nat.isDigit_of_mem_toDigits (by decide) (by decide) h

/-- No zero stands in front of the digits of a number that is not zero. -/
theorem head?_toDigits_ne {n : Nat} (h : n ≠ 0) : (Nat.toDigits 10 n).head? ≠ some '0' := by
  intro hhead
  have hvalue : Nat.ofDigitChars 10 (Nat.toDigits 10 n) 0 = n := Nat.ofDigitChars_ten_toDigits
  have hdigits : ∀ c ∈ Nat.toDigits 10 n, c.isDigit = true := fun c hc =>
    isDigit_of_mem_toDigits hc
  cases hc : Nat.toDigits 10 n with
  | nil => exact Nat.toDigits_ne_nil hc
  | cons c rest =>
    rw [hc] at hhead hvalue hdigits
    have hzero : c = '0' := Option.some.inj hhead
    subst hzero
    -- A zero in front adds nothing to the value.
    have hrest : Nat.ofDigitChars 10 rest 0 = n := by
      rwa [Nat.ofDigitChars_cons] at hvalue
    have hlt : Nat.ofDigitChars 10 rest 0 < 10 ^ rest.length :=
      ofDigitChars_lt fun d hd => hdigits d (List.mem_cons_of_mem _ hd)
    rw [hrest] at hlt
    have hpos : 0 < rest.length := by
      rcases Nat.eq_zero_or_pos rest.length with hzero | hpos
      · rw [hzero] at hlt
        exact absurd hlt (by omega)
      · exact hpos
    -- The other digits would be enough for the number.
    have hshort := (Nat.length_toDigits_le_iff (b := 10) (by decide) hpos).2 hlt
    rw [hc, List.length_cons] at hshort
    omega

end Digits

end Fieldwork
