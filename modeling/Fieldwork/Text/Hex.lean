/-!
# Hexadecimal Bytes

Bytes as pairs of hexadecimal digits.

Writing is canonical: two lower-case digits for each byte. Reading is wider
than writing in two ways. Letters may have either case, and the first digit of
a pair may be a plus sign, because a pair is read as a signed numeral of base
sixteen whose value has to be a byte: `+f` is the byte fifteen.

## Main definitions

* `digit?`: The value of one hexadecimal digit.
* `byte?`: One numeral of one or two characters.
* `encode`, `decode?`: Bytes to digits and back.

## Theorems

* `digit?_digitOf`: A written digit reads back.
* `byte?_pair`: A written pair reads back.
* `decode?_encode`: Written bytes read back.
-/

namespace Fieldwork

namespace Hex

/-- The value of one hexadecimal digit, in either case. -/
def digit? (c : Char) : Option Nat :=
  if '0' ≤ c ∧ c ≤ '9' then some (c.toNat - '0'.toNat)
  else if 'a' ≤ c ∧ c ≤ 'f' then some (c.toNat - 'a'.toNat + 10)
  else if 'A' ≤ c ∧ c ≤ 'F' then some (c.toNat - 'A'.toNat + 10)
  else none

/-- The lower-case digit of a value below sixteen. -/
def digitOf (n : Nat) : Char :=
  if n < 10 then Char.ofNat ('0'.toNat + n) else Char.ofNat ('a'.toNat + (n - 10))

/-- A numeral of one or two characters. The plus sign of a signed numeral
    takes the place of the first digit and does not stand alone. -/
def byte? : List Char → Option UInt8
  | [a] => (digit? a).map UInt8.ofNat
  | [a, b] =>
    -- A minus sign is no digit, so it is refused below.
    if a = '+' then (digit? b).map UInt8.ofNat
    else do
      let high ← digit? a
      let low ← digit? b
      some (UInt8.ofNat (16 * high + low))
  | _ => none

/-- Two lower-case digits, the high one first. -/
def pair (byte : UInt8) : List Char :=
  [digitOf (byte.toNat / 16), digitOf (byte.toNat % 16)]

/-- Each byte as two lower-case digits. -/
def encode (bytes : List UInt8) : List Char :=
  bytes.flatMap pair

/-- Reads pairs to the end of the text; a digit left over is refused. -/
def decode? : List Char → Option (List UInt8)
  | [] => some []
  | a :: b :: rest => do
    let byte ← byte? [a, b]
    let bytes ← decode? rest
    some (byte :: bytes)
  | _ => none

/-- The digits are among the characters from zero to the small `f`. -/
theorem bounds_of_digit? {c : Char} {n : Nat} (h : digit? c = some n) : '0' ≤ c ∧ c ≤ 'f' := by
  unfold digit? at h
  split at h
  · rename_i hc
    exact ⟨hc.1, Char.le_trans hc.2 (by decide)⟩
  · split at h
    · rename_i hc
      exact ⟨Char.le_trans (by decide) hc.1, hc.2⟩
    · split at h
      · rename_i hc
        exact ⟨Char.le_trans (by decide) hc.1, Char.le_trans hc.2 (by decide)⟩
      · cases h

/-- A written digit reads back. -/
theorem digit?_digitOf : ∀ {n : Nat}, n < 16 → digit? (digitOf n) = some n := by
  decide

/-- A written digit is never the plus sign that stands for one. -/
theorem digitOf_ne_plus : ∀ {n : Nat}, n < 16 → digitOf n ≠ '+' := by
  decide

/-- A written pair reads back. -/
theorem byte?_pair (byte : UInt8) : byte? (pair byte) = some byte := by
  have high : byte.toNat / 16 < 16 := by have := byte.toNat_lt; omega
  have low : byte.toNat % 16 < 16 := Nat.mod_lt _ (by decide)
  simp only [pair, byte?, digitOf_ne_plus high, digit?_digitOf high, digit?_digitOf low,
    if_false, Option.bind_eq_bind, Option.bind_some]
  rw [Nat.div_add_mod]
  simp

/-- Written bytes read back. -/
theorem decode?_encode (bytes : List UInt8) : decode? (encode bytes) = some bytes := by
  induction bytes with
  | nil => rfl
  | cons byte rest ih =>
    have h := byte?_pair byte
    simp only [pair] at h
    simp only [encode, List.flatMap_cons, pair, List.cons_append, List.nil_append, decode?, h,
      Option.bind_eq_bind, Option.bind_some]
    rw [show rest.flatMap pair = encode rest from rfl, ih]
    rfl

end Hex

end Fieldwork
