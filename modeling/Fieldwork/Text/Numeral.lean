import Fieldwork.Text.Checked

/-!
# Decimal Numerals

Whole numbers as decimal text.

A numeral may carry a sign and any number of leading zeros, so several texts
have one value. Writing picks the one without plus sign and leading zeros.
The value is a mathematical integer: whether it fits a range is decided after
it is known, so no numeral, however long, is taken for another number.

Where the width matters before that, a numeral is read into a word digit by
digit. Every step is checked then, and a numeral that outgrows the word has no
value.

## Main definitions

* `natural?`: The value of a text of digits.
* `signed?`, `unsigned?`: The same with a sign in front.
* `int128?`: A signed numeral read into a word of 128 bits.
* `ofInt`: The shortest numeral of an integer.

## Theorems

* `natural?_toDigits`: A written natural number reads back.
* `signed?_ofInt`: A written integer reads back.
-/

namespace Fieldwork

namespace Numeral

/-- The value of one or more decimal digits, and of nothing else. -/
def natural? (cs : List Char) : Option Nat :=
  if !cs.isEmpty && cs.all Char.isDigit then some (Nat.ofDigitChars 10 cs 0) else none

/-- Digits with an optional plus sign. -/
def unsigned? : List Char → Option Nat
  | '+' :: cs => natural? cs
  | cs => natural? cs

/-- Digits with an optional sign. -/
def signed? : List Char → Option Int
  | '+' :: cs => (natural? cs).map Int.ofNat
  | '-' :: cs => (natural? cs).map fun n => -Int.ofNat n
  | cs => (natural? cs).map Int.ofNat

/-- The value of a signed numeral when it fits a 64-bit word. -/
def int64? (cs : List Char) : Option Int64 := do
  let n ← signed? cs
  if Int64.minValue.toInt ≤ n ∧ n ≤ Int64.maxValue.toInt then some (Int64.ofInt n) else none

/-- The value of an unsigned numeral when it fits a 64-bit word. -/
def uint64? (cs : List Char) : Option UInt64 := do
  let n ← unsigned? cs
  if n < UInt64.size then some (UInt64.ofNat n) else none

/-- The value of a decimal digit as a word. -/
def digit128? (c : Char) : Option (BitVec 128) :=
  if c.isDigit then some (BitVec.ofNat 128 (c.toNat - '0'.toNat)) else none

/-- Puts one more digit behind a total. A negative total grows downwards, since
    the least word has no positive counterpart. -/
def append? (negative : Bool) (total digit : BitVec 128) : Option (BitVec 128) :=
  (Checked.mul? total 10).bind fun scaled =>
    if negative then Checked.sub? scaled digit else Checked.add? scaled digit

/-- Puts digits behind a total, one at a time. -/
def accumulate? (negative : Bool) : BitVec 128 → List Char → Option (BitVec 128)
  | total, [] => some total
  | total, c :: rest => do
    let digit ← digit128? c
    let total ← append? negative total digit
    accumulate? negative total rest

/-- The word that one or more digits add up to. -/
def digits128? (negative : Bool) (cs : List Char) : Option (BitVec 128) :=
  if cs.isEmpty then none else accumulate? negative 0 cs

/-- The value of a signed numeral, read into a word of 128 bits. -/
def int128? : List Char → Option (BitVec 128)
  | '+' :: cs => digits128? false cs
  | '-' :: cs => digits128? true cs
  | cs => digits128? false cs

/-- The numeral without plus sign and leading zeros. -/
def ofInt (n : Int) : List Char :=
  if n < 0 then '-' :: Nat.toDigits 10 n.natAbs else Nat.toDigits 10 n.natAbs

/-- A written natural number reads back. -/
theorem natural?_toDigits (n : Nat) : natural? (Nat.toDigits 10 n) = some n := by
  have nonempty : (Nat.toDigits 10 n).isEmpty = false := by
    simp [Nat.toDigits_ne_nil]
  have digits : (Nat.toDigits 10 n).all Char.isDigit = true := by
    rw [List.all_eq_true]
    intro c hc
    exact Nat.isDigit_of_mem_toDigits (by decide) (by decide) hc
  simp [natural?, nonempty, digits, Nat.ofDigitChars_ten_toDigits]

/-- A text that starts with a digit has no sign to take off. -/
theorem signed?_of_isDigit {c : Char} {cs : List Char} (h : c.isDigit = true) :
    signed? (c :: cs) = (natural? (c :: cs)).map Int.ofNat := by
  unfold signed?
  split
  · rename_i heq; cases heq; exact absurd h (by decide)
  · rename_i heq; cases heq; exact absurd h (by decide)
  · rfl

/-- A written integer reads back. -/
theorem signed?_ofInt (n : Int) : signed? (ofInt n) = some n := by
  unfold ofInt
  split
  · simp only [signed?, natural?_toDigits, Option.map_some, Int.ofNat_eq_natCast]
    congr 1
    omega
  · have hdigits := natural?_toDigits n.natAbs
    cases hc : Nat.toDigits 10 n.natAbs with
    | nil => exact absurd hc Nat.toDigits_ne_nil
    | cons c cs =>
      have isDigit : c.isDigit = true :=
        Nat.isDigit_of_mem_toDigits (b := 10) (n := n.natAbs) (by decide) (by decide)
          (by simp [hc])
      rw [signed?_of_isDigit isDigit, ← hc, hdigits]
      simp only [Option.map_some, Int.ofNat_eq_natCast]
      congr 1
      omega

end Numeral

end Fieldwork
