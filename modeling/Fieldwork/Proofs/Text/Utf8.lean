import Fieldwork.Proofs.Text.Bytes
import Fieldwork.Text.Utf8

/-!
# A Text Is Shown as Itself

What is shown for the bytes of a text is the text.

Where bytes are shown as a text, some of them may be replaced. Nothing is
replaced in the bytes of a text: a reader goes through the bytes of a character
and is between two characters again, with the character shown, whatever comes
next. So whoever measures what is shown measures the bytes themselves, as long
as they are a text.

A byte of the first 128 is never a part of another character. This is why bytes
of a text can be cut at such a byte, and every piece is the bytes of a text
again.

## Theorems

* `shown_one`, `shown_two`, `shown_three`, `shown_four`: A character by the
  number of its bytes.
* `shown_utf8EncodeChar`: The bytes of a character are shown as the character.
* `shownText_bytesOf`: The bytes of a text are shown as the text.
* `length_bytesOf`: A text has as many bytes as it is said to have.
-/

namespace Fieldwork

namespace Utf8Phase

section Shown

variable {number low high lead a b c : Nat} {rest : List UInt8}

/-- A byte in the middle of a character. -/
theorem shown_inside {more : Nat} (ha : a < 64) (h : low ≤ a + 128 ∧ a + 128 ≤ high) :
    (inside number (more + 1) low high).shown (UInt8.ofNat (a + 128) :: rest) =
      (inside (64 * number + a) more 0x80 0xBF).shown rest := by
  have hbyte : (UInt8.ofNat (a + 128)).toNat = a + 128 :=
    UInt8.toNat_ofNat_of_lt' (show a + 128 < 256 by omega)
  rw [shown, step, hbyte, if_pos h, Nat.add_sub_cancel]
  rfl

/-- The last byte of a character. -/
theorem shown_last (ha : a < 64) (h : low ≤ a + 128 ∧ a + 128 ≤ high) :
    (inside number 0 low high).shown (UInt8.ofNat (a + 128) :: rest) =
      Char.ofNat (64 * number + a) :: between.shown rest := by
  have hbyte : (UInt8.ofNat (a + 128)).toNat = a + 128 :=
    UInt8.toNat_ofNat_of_lt' (show a + 128 < 256 by omega)
  rw [shown, step, hbyte, if_pos h, Nat.add_sub_cancel]
  rfl

/-- A character of one byte. -/
theorem shown_one {n : Nat} (h : n < 0x80) :
    between.shown (UInt8.ofNat n :: rest) = Char.ofNat n :: between.shown rest := by
  rw [shown, step, first, UInt8.toNat_ofNat_of_lt' (show n < 256 by omega), if_pos h]
  rfl

/-- A character of two bytes. -/
theorem shown_two (hlead : 2 ≤ lead ∧ lead < 32) (ha : a < 64) :
    between.shown (UInt8.ofNat (lead + 192) :: UInt8.ofNat (a + 128) :: rest) =
      Char.ofNat (64 * lead + a) :: between.shown rest := by
  rw [shown, step, first, UInt8.toNat_ofNat_of_lt' (show lead + 192 < 256 by omega),
    if_neg (by omega), if_neg (by omega), if_pos (by omega), List.nil_append, Nat.add_sub_cancel,
    shown_last ha (by omega)]

/-- A character of three bytes. -/
theorem shown_three (hlead : lead < 16) (ha : a < 64) (hb : b < 64) (hlong : lead = 0 → 32 ≤ a)
    (hsurrogate : lead = 13 → a < 32) :
    between.shown (UInt8.ofNat (lead + 224) :: UInt8.ofNat (a + 128) :: UInt8.ofNat (b + 128) ::
        rest) =
      Char.ofNat (64 * (64 * lead + a) + b) :: between.shown rest := by
  rw [shown, step, first, UInt8.toNat_ofNat_of_lt' (show lead + 224 < 256 by omega),
    if_neg (by omega), if_neg (by omega), if_neg (by omega), if_pos (by omega), List.nil_append,
    Nat.add_sub_cancel, shown_inside ha, shown_last hb (by omega)]
  constructor <;> split <;> omega

/-- A character of four bytes. -/
theorem shown_four (hlead : lead < 5) (ha : a < 64) (hb : b < 64) (hc : c < 64)
    (hlong : lead = 0 → 16 ≤ a) (hlarge : lead = 4 → a < 16) :
    between.shown (UInt8.ofNat (lead + 240) :: UInt8.ofNat (a + 128) :: UInt8.ofNat (b + 128) ::
        UInt8.ofNat (c + 128) :: rest) =
      Char.ofNat (64 * (64 * (64 * lead + a) + b) + c) :: between.shown rest := by
  rw [shown, step, first, UInt8.toNat_ofNat_of_lt' (show lead + 240 < 256 by omega),
    if_neg (by omega), if_neg (by omega), if_neg (by omega), if_neg (by omega), if_pos (by omega),
    List.nil_append, Nat.add_sub_cancel, shown_inside ha, shown_inside hb (by omega),
    shown_last hc (by omega)]
  constructor <;> split <;> omega

end Shown

/-- The bytes of a character are shown as the character. -/
theorem shown_utf8EncodeChar (c : Char) (rest : List UInt8) :
    between.shown (String.utf8EncodeChar c ++ rest) = c :: between.shown rest := by
  have hchar : Char.ofNat c.val.toNat = c := Char.ofNat_toNat c
  have hvalid : c.val.toNat < 0xD800 ∨ 0xDFFF < c.val.toNat ∧ c.val.toNat < 0x110000 := c.valid
  unfold String.utf8EncodeChar
  generalize c.val.toNat = v at hchar hvalid ⊢
  rw [← hchar]
  dsimp only
  -- One case for each number of bytes; the number is put together again from them.
  split
  · exact shown_one (by omega)
  split
  · have hv : v = 64 * (v / 64 % 32) + v % 64 := by omega
    rw [List.cons_append, List.singleton_append, shown_two (by omega) (by omega), ← hv]
  split
  · have hv : v = 64 * (64 * (v / 4096 % 16) + v / 64 % 64) + v % 64 := by omega
    rw [List.cons_append, List.cons_append, List.singleton_append,
      shown_three (by omega) (by omega) (by omega) (by omega) (by omega), ← hv]
  · have hv : v = 64 * (64 * (64 * (v / 262144 % 8) + v / 4096 % 64) + v / 64 % 64) + v % 64 := by
      omega
    rw [List.cons_append, List.cons_append, List.cons_append, List.singleton_append,
      shown_four (by omega) (by omega) (by omega) (by omega) (by omega) (by omega), ← hv]

end Utf8Phase

theorem bytesOf_ofList (cs : List Char) :
    bytesOf (String.ofList cs) = cs.flatMap String.utf8EncodeChar := by
  rw [bytesOf, toList_toUTF8, String.toList_ofList]

/-- The bytes of a text are shown as the text. -/
theorem shownText_bytesOf (text : String) : shownText (bytesOf text) = text := by
  have hshown (cs : List Char) :
      Utf8Phase.between.shown (cs.flatMap String.utf8EncodeChar) = cs := by
    induction cs with
    | nil => rfl
    | cons c rest ih => rw [List.flatMap_cons, Utf8Phase.shown_utf8EncodeChar, ih]
  rw [shownText, bytesOf, toList_toUTF8, hshown, String.ofList_toList]

/-- A text has as many bytes as it is said to have. -/
theorem length_bytesOf (text : String) : (bytesOf text).length = text.utf8ByteSize :=
  rfl

end Fieldwork
