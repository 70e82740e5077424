import Mathlib.Data.List.Basic

/-!
# Bytes of Texts

How many bytes a text has, and which they are.

A text is kept as the bytes of its characters one after the other. A character
of the first 128 is one byte, and all other characters have only bytes beyond
those. So a byte of the first 128 is always a character by itself, never a part
of something else, and bytes can be split at line breaks or slashes without
looking at characters.

## Theorems

* `utf8ByteSize_ofList_cons`, `utf8ByteSize_ofList_append`: Bytes add up.
* `toList_toUTF8`: The bytes of a text, character by character.
* `toNat_eq_of_mem_utf8EncodeChar`: A byte of the first 128 is a character.
* `splitOn_ended`: Pieces that end with a byte split at it.
-/

namespace Fieldwork

theorem utf8ByteSize_ofList_cons (c : Char) (cs : List Char) :
    (String.ofList (c :: cs)).utf8ByteSize = c.utf8Size + (String.ofList cs).utf8ByteSize := by
  rw [String.ofList_cons, String.utf8ByteSize_append, String.utf8ByteSize_singleton]

theorem utf8ByteSize_ofList_append (xs ys : List Char) :
    (String.ofList (xs ++ ys)).utf8ByteSize =
      (String.ofList xs).utf8ByteSize + (String.ofList ys).utf8ByteSize := by
  rw [String.ofList_append, String.utf8ByteSize_append]

/-- Characters of one byte each. -/
theorem utf8ByteSize_ofList {cs : List Char} (h : ∀ c ∈ cs, c.utf8Size = 1) :
    (String.ofList cs).utf8ByteSize = cs.length := by
  induction cs with
  | nil => rfl
  | cons c cs ih =>
    rcases List.forall_mem_cons.1 h with ⟨hsize, hrest⟩
    rw [utf8ByteSize_ofList_cons, hsize, ih hrest, List.length_cons, Nat.add_comm]

/-- The bytes of a text, character by character. -/
theorem toList_toUTF8 (text : String) :
    text.toUTF8.data.toList = text.toList.flatMap String.utf8EncodeChar := by
  have hbytes : text.toByteArray = text.toList.utf8Encode := by
    rw [← String.toByteArray_ofList, String.ofList_toList]
  rw [String.toUTF8_eq_toByteArray, hbytes, List.utf8Encode, List.data_toByteArray,
    List.toList_toArray]

/-- A byte of the first 128 is a character by itself. -/
theorem toNat_eq_of_mem_utf8EncodeChar {c : Char} {byte : UInt8}
    (hbyte : byte ∈ String.utf8EncodeChar c) (h : byte.toNat < 0x80) : c.toNat = byte.toNat := by
  show c.val.toNat = byte.toNat
  -- One case for each number of bytes that a character can have.
  unfold String.utf8EncodeChar at hbyte
  dsimp only at hbyte
  split at hbyte
  · rw [List.mem_singleton.1 hbyte, UInt8.toNat_ofNat']
    omega
  · refine absurd h (Nat.not_lt.2 ?_)
    split at hbyte
    · simp only [List.mem_cons, List.not_mem_nil, or_false] at hbyte
      rcases hbyte with rfl | rfl <;> rw [UInt8.toNat_ofNat'] <;> omega
    · split at hbyte
      · simp only [List.mem_cons, List.not_mem_nil, or_false] at hbyte
        rcases hbyte with rfl | rfl | rfl <;> rw [UInt8.toNat_ofNat'] <;> omega
      · simp only [List.mem_cons, List.not_mem_nil, or_false] at hbyte
        rcases hbyte with rfl | rfl | rfl | rfl <;> rw [UInt8.toNat_ofNat'] <;> omega

/-- Pieces that end with a byte split at it, if it is in none of them; nothing
    is behind the last. -/
theorem splitOn_ended {α : Type} [DecidableEq α] {x : α} {pieces : List (List α)}
    (h : ∀ piece ∈ pieces, x ∉ piece) :
    (pieces.flatMap fun piece => piece ++ [x]).splitOn x = pieces ++ [[]] := by
  have hended : (pieces.flatMap fun piece => piece ++ [x]) = [x].intercalate (pieces ++ [[]]) := by
    induction pieces with
    | nil => rfl
    | cons piece rest ih =>
      rw [List.flatMap_cons, ih (List.forall_mem_cons.1 h).2]
      cases rest with
      | nil => simp [List.intercalate]
      | cons next rest => simp [List.intercalate]
  rw [hended]
  refine List.splitOn_intercalate x (fun piece hpiece => ?_) (by simp)
  rcases List.mem_append.1 hpiece with hpiece | hpiece
  · exact h piece hpiece
  · rw [List.mem_singleton.1 hpiece]
    exact List.not_mem_nil

end Fieldwork
