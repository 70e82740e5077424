/-!
# Base64

Bytes as text over the standard alphabet of sixty-four letters, three bytes to
four letters, the last group filled up with `=`.

Reading accepts exactly what writing produces: the filling has to be there,
the bits of the last letter that belong to no byte have to be zero, and no
blank or line break is passed over. Each text has then at most one value and
each value one text.

## Main definitions

* `letter`, `sextet?`: Six bits to a letter and back.
* `encode`, `decode?`: Bytes to text and back.

## Theorems

* `sextet?_letter`: A written letter reads back.
* `decode?_encode`: Written bytes read back.
-/

namespace Fieldwork

namespace Base64

/-- The letter of a value below sixty-four. -/
def letter (n : Nat) : Char :=
  if n < 26 then Char.ofNat ('A'.toNat + n)
  else if n < 52 then Char.ofNat ('a'.toNat + (n - 26))
  else if n < 62 then Char.ofNat ('0'.toNat + (n - 52))
  else if n = 62 then '+'
  else '/'

/-- The value of a letter of the alphabet. -/
def sextet? (c : Char) : Option Nat :=
  if 'A' ≤ c ∧ c ≤ 'Z' then some (c.toNat - 'A'.toNat)
  else if 'a' ≤ c ∧ c ≤ 'z' then some (c.toNat - 'a'.toNat + 26)
  else if '0' ≤ c ∧ c ≤ '9' then some (c.toNat - '0'.toNat + 52)
  else if c = '+' then some 62
  else if c = '/' then some 63
  else none

/-- Three bytes to four letters; one or two bytes at the end are filled up. -/
def encode : List UInt8 → List Char
  | [] => []
  | [a] => [letter (a.toNat / 4), letter (a.toNat % 4 * 16), '=', '=']
  | [a, b] =>
    [letter (a.toNat / 4), letter (a.toNat % 4 * 16 + b.toNat / 16),
      letter (b.toNat % 16 * 4), '=']
  | a :: b :: c :: rest =>
    letter (a.toNat / 4) :: letter (a.toNat % 4 * 16 + b.toNat / 16) ::
      letter (b.toNat % 16 * 4 + c.toNat / 64) :: letter (c.toNat % 64) :: encode rest

/-- Four letters to three bytes. A filled group has to be the last one, and
    the bits of its last letter beyond the last byte have to be zero. -/
def decode? : List Char → Option (List UInt8)
  | [] => some []
  | [a, b, '=', '='] => do
    let x ← sextet? a
    let y ← sextet? b
    if y % 16 = 0 then some [UInt8.ofNat (x * 4 + y / 16)] else none
  | [a, b, c, '='] => do
    let x ← sextet? a
    let y ← sextet? b
    let z ← sextet? c
    -- Bits that belong to no byte would give a value a second text.
    if z % 4 = 0 then
      some [UInt8.ofNat (x * 4 + y / 16), UInt8.ofNat (y % 16 * 16 + z / 4)]
    else none
  | a :: b :: c :: d :: rest => do
    let x ← sextet? a
    let y ← sextet? b
    let z ← sextet? c
    let w ← sextet? d
    let bytes ← decode? rest
    some (UInt8.ofNat (x * 4 + y / 16) :: UInt8.ofNat (y % 16 * 16 + z / 4) ::
      UInt8.ofNat (z % 4 * 64 + w) :: bytes)
  | _ => none

/-- A written letter reads back. -/
theorem sextet?_letter : ∀ {n : Nat}, n < 64 → sextet? (letter n) = some n := by
  decide

/-- A written letter is never the filling. -/
theorem letter_ne_fill : ∀ {n : Nat}, n < 64 → letter n ≠ '=' := by
  decide

/-- The first byte of a group is in its first two letters. -/
theorem ofNat_first (a : UInt8) {n : Nat} (h : n < 16) :
    UInt8.ofNat (a.toNat / 4 * 4 + (a.toNat % 4 * 16 + n) / 16) = a := by
  rw [show a.toNat / 4 * 4 + (a.toNat % 4 * 16 + n) / 16 = a.toNat by omega, UInt8.ofNat_toNat]

/-- The second byte of a group is in its second and third letter. -/
theorem ofNat_second (b : UInt8) (m : Nat) {n : Nat} (h : n < 4) :
    UInt8.ofNat ((m * 16 + b.toNat / 16) % 16 * 16 + (b.toNat % 16 * 4 + n) / 4) = b := by
  have hb := b.toNat_lt
  rw [show (m * 16 + b.toNat / 16) % 16 * 16 + (b.toNat % 16 * 4 + n) / 4 = b.toNat by omega,
    UInt8.ofNat_toNat]

/-- The third byte of a group is in its last two letters. -/
theorem ofNat_third (c : UInt8) (m : Nat) :
    UInt8.ofNat ((m * 4 + c.toNat / 64) % 4 * 64 + c.toNat % 64) = c := by
  have hc := c.toNat_lt
  rw [show (m * 4 + c.toNat / 64) % 4 * 64 + c.toNat % 64 = c.toNat by omega, UInt8.ofNat_toNat]

/-- Written bytes read back. -/
theorem decode?_encode (bytes : List UInt8) : decode? (encode bytes) = some bytes := by
  -- The letters are those of the recursion of `encode`; the last group may be
  -- filled up, and a written letter cannot be taken for the filling.
  fun_induction encode bytes with
  | case1 => rfl
  | case2 a =>
    have ha := a.toNat_lt
    rw [decode?, sextet?_letter (by omega), sextet?_letter (by omega)]
    simp only [Option.bind_eq_bind, Option.bind_some]
    rw [if_pos (by omega)]
    exact congrArg (fun x => some [x]) (ofNat_first a (n := 0) (by omega))
  | case3 a b =>
    have ha := a.toNat_lt
    have hb := b.toNat_lt
    have hc : letter (b.toNat % 16 * 4) ≠ '=' := letter_ne_fill (by omega)
    rw [decode?, sextet?_letter (by omega), sextet?_letter (by omega), sextet?_letter (by omega)]
    · simp only [Option.bind_eq_bind, Option.bind_some]
      rw [if_pos (by omega), ofNat_first a (by omega)]
      exact congrArg (fun y => some [a, y]) (ofNat_second b _ (n := 0) (by omega))
    · exact hc
  | case4 a b c rest ih =>
    have ha := a.toNat_lt
    have hb := b.toNat_lt
    have hc := c.toNat_lt
    have hd : letter (c.toNat % 64) ≠ '=' := letter_ne_fill (by omega)
    rw [decode?, sextet?_letter (by omega), sextet?_letter (by omega), sextet?_letter (by omega),
      sextet?_letter (by omega), ih]
    · simp only [Option.bind_eq_bind, Option.bind_some]
      rw [ofNat_first a (by omega), ofNat_second b _ (by omega), ofNat_third]
    · intro _ h
      exact absurd h hd
    · intro h
      exact absurd h hd

end Base64

end Fieldwork
