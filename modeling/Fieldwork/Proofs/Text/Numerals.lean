import Fieldwork.Proofs.Text.Digits

/-!
# The Grammar of Numerals

Which texts are numerals, said without a reader.

A numeral is an optional sign and one or more digits. Zeros in front and the
sign of zero are allowed, and no length is too great: the value is a
mathematical integer. The reader takes exactly these texts, so whoever accepts
a numeral can say so by the grammar.

The reader into a word takes the same texts as far as their values fit. Its
total moves away from zero with every digit, so a step that overflows belongs
to a numeral whose value does not fit either, and the order in which the steps
are checked does not show.

## Main definitions

* `IsDigits`: One or more digits.
* `IsNumeral`: A numeral with its value.
* `withSign`: An integer of a sign and a magnitude.

## Theorems

* `natural?_eq_some_iff`, `signed?_eq_some_iff`: What the readers take.
* `accumulate?_eq_some_iff`: Digits add up to their exact value, or to none.
* `int128?_eq_some_iff`: The reader into a word takes the numerals that fit.
-/

namespace Fieldwork

namespace Numeral

/-- One or more decimal digits. -/
def IsDigits (cs : List Char) : Prop :=
  cs ≠ [] ∧ ∀ c ∈ cs, c.isDigit = true

/-- A text of an optional sign and digits, with its value. -/
inductive IsNumeral : List Char → Int → Prop where
  /-- There is no sign. -/
  | plain {digits : List Char} (h : IsDigits digits) :
    IsNumeral digits (Nat.ofDigitChars 10 digits 0 : Nat)
  /-- A plus sign says nothing. -/
  | plus {digits : List Char} (h : IsDigits digits) :
    IsNumeral ('+' :: digits) (Nat.ofDigitChars 10 digits 0 : Nat)
  /-- A minus sign negates. -/
  | minus {digits : List Char} (h : IsDigits digits) :
    IsNumeral ('-' :: digits) (-(Nat.ofDigitChars 10 digits 0 : Nat))

/-- The reader of digits takes digits and nothing else. -/
theorem natural?_eq_some_iff {cs : List Char} {n : Nat} :
    natural? cs = some n ↔ IsDigits cs ∧ n = Nat.ofDigitChars 10 cs 0 := by
  unfold natural? IsDigits
  rw [Option.ite_none_right_eq_some, Option.some.injEq, Bool.and_eq_true, List.all_eq_true,
    Bool.not_eq_true', List.isEmpty_eq_false_iff, eq_comm]

theorem natural?_of_isDigits {cs : List Char} (h : IsDigits cs) :
    natural? cs = some (Nat.ofDigitChars 10 cs 0) :=
  natural?_eq_some_iff.2 ⟨h, rfl⟩

/-- The reader of integers takes numerals and nothing else. -/
theorem signed?_eq_some_iff {cs : List Char} {n : Int} :
    signed? cs = some n ↔ IsNumeral cs n := by
  constructor
  · intro h
    unfold signed? at h
    split at h
    all_goals
      rcases Option.map_eq_some_iff.1 h with ⟨m, hm, rfl⟩
      rcases natural?_eq_some_iff.1 hm with ⟨hdigits, rfl⟩
    · exact .plus hdigits
    · exact .minus hdigits
    · exact .plain hdigits
  · intro h
    cases h with
    | plus hdigits =>
      rw [signed?, natural?_of_isDigits hdigits]
      rfl
    | minus hdigits =>
      rw [signed?, natural?_of_isDigits hdigits]
      rfl
    | plain hdigits =>
      -- The first character is a digit, so it is no sign.
      cases cs with
      | nil => exact absurd rfl hdigits.1
      | cons c rest =>
        rw [signed?_of_isDigit (hdigits.2 c List.mem_cons_self), natural?_of_isDigits hdigits]
        rfl

section Words

/-- The integer of a sign and a magnitude. -/
def withSign (negative : Bool) (n : Nat) : Int :=
  if negative then -(n : Int) else n

/-- A magnitude below one that fits a word fits it with the same sign. -/
theorem exists_toInt_withSign {negative : Bool} {small large : Nat} (hle : small ≤ large)
    {y : BitVec 128} (hy : y.toInt = withSign negative large) :
    ∃ x : BitVec 128, x.toInt = withSign negative small := by
  have hlower := y.le_toInt
  have hupper := y.toInt_lt
  have hbounds : -2 ^ 127 ≤ withSign negative small ∧ withSign negative small < 2 ^ 127 := by
    cases negative with
    | false =>
      simp only [withSign, Bool.false_eq_true, if_false] at hy ⊢
      omega
    | true =>
      simp only [withSign, if_true] at hy ⊢
      omega
  exact ⟨BitVec.ofInt 128 _, BitVec.toInt_ofInt_eq_self (by decide) hbounds.1 hbounds.2⟩

theorem digit128?_eq_some_iff {c : Char} {digit : BitVec 128} :
    digit128? c = some digit ↔
      c.isDigit = true ∧ digit.toInt = (c.toNat - '0'.toNat : Nat) := by
  rw [digit128?, Option.ite_none_right_eq_some, Option.some.injEq]
  refine and_congr_right fun hc => ?_
  have hlt := Digits.toNat_sub_lt hc
  have hvalue : (BitVec.ofNat 128 (c.toNat - '0'.toNat)).toInt = (c.toNat - '0'.toNat : Nat) := by
    rw [← BitVec.ofInt_natCast]
    exact BitVec.toInt_ofInt_eq_self (by decide) (by omega) (by omega)
  rw [← hvalue, BitVec.toInt_inj, eq_comm]

/-- Digits behind a total do not make it smaller. -/
theorem le_ofDigitChars (cs : List Char) (t : Nat) : t ≤ Nat.ofDigitChars 10 cs t := by
  have hone : 1 * t ≤ 10 ^ cs.length * t := Nat.mul_le_mul_right t (Nat.pow_pos (by decide))
  rw [Nat.ofDigitChars_eq_ofDigitChars_zero]
  omega

theorem withSign_append (negative : Bool) (t d : Nat) :
    withSign negative (10 * t + d) = withSign negative (10 * t) + withSign negative d := by
  cases negative with
  | false => exact Int.natCast_add (10 * t) d
  | true =>
    simp only [withSign, if_true]
    omega

theorem withSign_mul_ten (negative : Bool) (t : Nat) :
    withSign negative t * 10 = withSign negative (10 * t) := by
  cases negative with
  | false => exact Int.mul_comm t 10
  | true =>
    simp only [withSign, if_true]
    omega

/-- A digit moves a total away from zero. -/
theorem addDigit?_eq_some_iff {negative : Bool} {scaled digit next : BitVec 128} {d : Nat}
    (hd : digit.toInt = d) :
    (if negative then Checked.sub? scaled digit else Checked.add? scaled digit) = some next ↔
      next.toInt = scaled.toInt + withSign negative d := by
  cases negative with
  | false =>
    rw [if_neg Bool.false_ne_true, Checked.add?_eq_some_iff, hd]
    rfl
  | true =>
    rw [if_pos rfl, Checked.sub?_eq_some_iff, hd]
    rfl

/-- One more digit: the product and the sum are the exact ones. -/
theorem append?_eq_some_iff {negative : Bool} {total digit next : BitVec 128} {t d : Nat}
    (ht : total.toInt = withSign negative t) (hd : digit.toInt = d) :
    append? negative total digit = some next ↔
      next.toInt = withSign negative (10 * t + d) := by
  have hscale (scaled : BitVec 128) :
      Checked.mul? total 10 = some scaled ↔ scaled.toInt = withSign negative (10 * t) := by
    have hten : (10 : BitVec 128).toInt = 10 := rfl
    rw [Checked.mul?_eq_some_iff, ht, hten, withSign_mul_ten]
  rw [withSign_append]
  constructor
  · intro h
    rcases Option.bind_eq_some_iff.1 h with ⟨scaled, hscaled, hnext⟩
    rw [← (hscale scaled).1 hscaled]
    exact (addDigit?_eq_some_iff hd).1 hnext
  · intro h
    rw [← withSign_append] at h
    -- The product is nearer to zero than the sum, so it fits if the sum does.
    rcases exists_toInt_withSign (Nat.le_add_right (10 * t) d) h with ⟨scaled, hscaled⟩
    refine Option.bind_eq_some_iff.2 ⟨scaled, (hscale scaled).2 hscaled, ?_⟩
    rw [addDigit?_eq_some_iff hd, hscaled, h, withSign_append]

/-- Digits put behind a total add up to the exact value, if a word holds it,
    and to nothing otherwise. -/
theorem accumulate?_eq_some_iff {negative : Bool} {cs : List Char} {total y : BitVec 128} {t : Nat}
    (ht : total.toInt = withSign negative t) :
    accumulate? negative total cs = some y ↔
      (∀ c ∈ cs, c.isDigit = true) ∧ y.toInt = withSign negative (Nat.ofDigitChars 10 cs t) := by
  induction cs generalizing total t with
  | nil =>
    rw [accumulate?, Nat.ofDigitChars_nil, ← ht, BitVec.toInt_inj, Option.some.injEq, eq_comm]
    exact (and_iff_right fun c hc => absurd hc List.not_mem_nil).symm
  | cons c rest ih =>
    rw [Nat.ofDigitChars_cons, List.forall_mem_cons, accumulate?]
    constructor
    · intro h
      rcases Option.bind_eq_some_iff.1 h with ⟨digit, hdigit, h⟩
      rcases digit128?_eq_some_iff.1 hdigit with ⟨hc, hd⟩
      rcases Option.bind_eq_some_iff.1 h with ⟨next, hnext, hrest⟩
      rcases (ih ((append?_eq_some_iff ht hd).1 hnext)).1 hrest with ⟨hdigits, hy⟩
      exact ⟨⟨hc, hdigits⟩, hy⟩
    · rintro ⟨⟨hc, hdigits⟩, hy⟩
      -- What this digit makes of the total is no greater than the value, which fits.
      rcases exists_toInt_withSign (le_ofDigitChars rest _) hy with ⟨next, hnext⟩
      have hdigit : digit128? c = some _ := if_pos hc
      have hd := (digit128?_eq_some_iff.1 hdigit).2
      exact Option.bind_eq_some_iff.2 ⟨_, hdigit, Option.bind_eq_some_iff.2
        ⟨next, (append?_eq_some_iff ht hd).2 hnext, (ih hnext).2 ⟨hdigits, hy⟩⟩⟩

theorem digits128?_eq_some_iff {negative : Bool} {cs : List Char} {y : BitVec 128} :
    digits128? negative cs = some y ↔
      IsDigits cs ∧ y.toInt = withSign negative (Nat.ofDigitChars 10 cs 0) := by
  have hzero : (0 : BitVec 128).toInt = withSign negative 0 := by
    cases negative <;> rfl
  rw [digits128?, Option.ite_none_left_eq_some, accumulate?_eq_some_iff hzero, IsDigits,
    List.isEmpty_iff, and_assoc]

/-- The reader into a word takes the numerals whose values fit the word. -/
theorem int128?_eq_some_iff {cs : List Char} {y : BitVec 128} :
    int128? cs = some y ↔ IsNumeral cs y.toInt := by
  constructor
  · intro h
    unfold int128? at h
    split at h
    all_goals
      rcases digits128?_eq_some_iff.1 h with ⟨hdigits, hy⟩
      rw [hy]
    · exact .plus hdigits
    · exact .minus hdigits
    · exact .plain hdigits
  · intro h
    generalize hy : y.toInt = n at h
    cases h with
    | plus hdigits => exact digits128?_eq_some_iff.2 ⟨hdigits, hy⟩
    | minus hdigits => exact digits128?_eq_some_iff.2 ⟨hdigits, hy⟩
    | plain hdigits =>
      -- A digit is neither sign, so nothing is taken off in front.
      have hplain : int128? cs = digits128? false cs := by
        unfold int128?
        split
        · exact absurd (hdigits.2 '+' List.mem_cons_self) (by decide)
        · exact absurd (hdigits.2 '-' List.mem_cons_self) (by decide)
        · rfl
      exact hplain.trans (digits128?_eq_some_iff.2 ⟨hdigits, hy⟩)

end Words

end Numeral

end Fieldwork
