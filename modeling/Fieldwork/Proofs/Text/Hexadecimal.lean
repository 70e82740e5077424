import Fieldwork.Text.Hex

/-!
# The Grammar of Hexadecimal Texts

Which texts are bytes in base sixteen, said without a reader.

A byte is one digit or two, in either case. In front of the last digit a plus
sign may stand in the place of the first one, because a reader of numerals
takes a sign. That is all a reader takes: a pair that holds anything else is
refused, wherever in a text it stands.

What is read is written again in one way only. The letters are small then, and
a plus sign has become the zero that it stood for.

## Main definitions

* `digits`: The digits of base sixteen.
* `IsByte`, `IsPairs`: The texts of one byte and of several.
* `written`: How a character is written again.

## Theorems

* `decode?_map_toLower`: The case of digits does not count.
* `exists_byte?_iff`: The reader of a byte takes bytes and nothing else.
* `decode?_eq_some_iff`: The reader of bytes takes pairs and nothing else.
* `isPairs_iff`: Without a plus sign, pairs are an even number of digits.
-/

namespace Fieldwork

namespace Hex

/-- The digits of base sixteen, in either case. -/
def digits : List Char :=
  "0123456789abcdefABCDEF".toList

/-- A byte in base sixteen. -/
inductive IsByte : List Char → Prop where
  /-- One digit. -/
  | digit {c : Char} (h : c ∈ digits) : IsByte [c]
  /-- Two digits, the first of which a plus sign may stand for. -/
  | pair {a b : Char} (high : a = '+' ∨ a ∈ digits) (low : b ∈ digits) : IsByte [a, b]

/-- Bytes of two characters each. -/
inductive IsPairs : List Char → Prop where
  /-- There are none. -/
  | nil : IsPairs []
  /-- One is in front of the others. -/
  | cons {a b : Char} {rest : List Char} (byte : IsByte [a, b]) (h : IsPairs rest) :
    IsPairs (a :: b :: rest)

/-- How a character of a byte is written again. -/
def written (c : Char) : Char :=
  if c = '+' then '0' else c.toLower

section Digits

/-- Only capital letters are made small. -/
theorem toLower_eq_or (c : Char) : c.toLower = c ∨ ∃ n < 26, c = Char.ofNat (65 + n) := by
  by_cases h : c.val ≥ 'A'.val ∧ c.val ≤ 'Z'.val
  · right
    have hlower : 65 ≤ c.toNat := UInt32.le_iff_toNat_le.1 h.1
    have hupper : c.toNat ≤ 90 := UInt32.le_iff_toNat_le.1 h.2
    refine ⟨c.toNat - 65, by omega, ?_⟩
    rw [Nat.add_sub_cancel' hlower, Char.ofNat_toNat]
  · exact .inl (dif_neg h)

theorem digit?_toLower (c : Char) : digit? c.toLower = digit? c := by
  have hcapitals : ∀ n < 26,
      digit? (Char.ofNat (65 + n)).toLower = digit? (Char.ofNat (65 + n)) := by
    decide
  rcases toLower_eq_or c with h | ⟨n, hn, rfl⟩
  · rw [h]
  · exact hcapitals n hn

theorem toLower_eq_plus_iff (c : Char) : c.toLower = '+' ↔ c = '+' := by
  have hcapitals : ∀ n < 26, (Char.ofNat (65 + n)).toLower ≠ '+' ∧ Char.ofNat (65 + n) ≠ '+' := by
    decide
  rcases toLower_eq_or c with h | ⟨n, hn, rfl⟩
  · rw [h]
  · exact iff_of_false (hcapitals n hn).1 (hcapitals n hn).2

theorem byte?_toLower (a b : Char) : byte? [a.toLower, b.toLower] = byte? [a, b] := by
  simp only [byte?, digit?_toLower, toLower_eq_plus_iff]

/-- The case of digits does not count. -/
theorem decode?_map_toLower (cs : List Char) : decode? (cs.map Char.toLower) = decode? cs := by
  match cs with
  | [] => rfl
  | [_] => rfl
  | a :: b :: rest =>
    rw [List.map_cons, List.map_cons, decode?, decode?, byte?_toLower, decode?_map_toLower rest]

/-- A digit takes one byte and is no hyphen. -/
theorem utf8Size_of_digit? {c : Char} {n : Nat} (h : digit? c = some n) :
    c.utf8Size = 1 ∧ c ≠ '-' := by
  constructor
  · rw [Char.utf8Size_eq_one_iff]
    exact UInt32.le_trans (Char.le_def.1 (bounds_of_digit? h).2) (by decide)
  · rintro rfl
    cases h

theorem length_encode (bytes : List UInt8) : (encode bytes).length = 2 * bytes.length := by
  induction bytes with
  | nil => rfl
  | cons byte rest ih =>
    rw [encode, List.flatMap_cons, List.length_append, ← encode, ih, List.length_cons, pair,
      List.length_cons, List.length_singleton]
    omega

end Digits

section Bytes

/-- What is a digit. -/
theorem mem_digits_of_digit? {c : Char} {n : Nat} (h : digit? c = some n) : c ∈ digits := by
  -- A digit is one of the characters of one byte, and these are counted out.
  have hcodes : ∀ code < 128, (digit? (Char.ofNat code)).isSome = true →
      Char.ofNat code ∈ digits := by
    decide +kernel
  have hcode : c.toNat < 128 :=
    Nat.lt_succ_of_le
      (UInt32.le_iff_toNat_le.1 (Char.utf8Size_eq_one_iff.1 (utf8Size_of_digit? h).1))
  have hmem := hcodes c.toNat hcode
  rw [Char.ofNat_toNat] at hmem
  exact hmem (by rw [h, Option.isSome_some])

/-- The value of a digit, and how the digit is written again. -/
theorem exists_digit?_of_mem {c : Char} (h : c ∈ digits) :
    ∃ n < 16, digit? c = some n ∧ digitOf n = written c := by
  -- The digits are gone through as a list, and not as those of all characters that are digits.
  have hdigits : digits.all fun c =>
      (digit? c).any fun n => decide (n < 16 ∧ digitOf n = written c) := by
    decide +kernel
  rcases (Option.any_eq_true _ _).1 (List.all_eq_true.1 hdigits c h) with ⟨n, hn, hvalue⟩
  rcases of_decide_eq_true hvalue with ⟨hlt, hwritten⟩
  exact ⟨n, hlt, hn, hwritten⟩

theorem pair_ofNat {high low : Nat} (hhigh : high < 16) (hlow : low < 16) :
    pair (UInt8.ofNat (16 * high + low)) = [digitOf high, digitOf low] := by
  have hvalue : (UInt8.ofNat (16 * high + low)).toNat = 16 * high + low :=
    UInt8.toNat_ofNat_of_lt' (by rw [UInt8.size]; omega)
  have hdiv : (16 * high + low) / 16 = high := by omega
  have hmod : (16 * high + low) % 16 = low := by omega
  rw [pair, hvalue, hdiv, hmod]

/-- A byte of two characters is read, and it is written again as it should. -/
theorem exists_byte?_of_isByte {a b : Char} (h : IsByte [a, b]) :
    ∃ byte, byte? [a, b] = some byte ∧ pair byte = [written a, written b] := by
  cases h with
  | pair high low =>
    rcases exists_digit?_of_mem low with ⟨l, hl, hlow, hlast⟩
    by_cases hplus : a = '+'
    · -- The sign is read like the digit zero.
      refine ⟨UInt8.ofNat (16 * 0 + l), ?_, ?_⟩
      · rw [byte?, if_pos hplus, hlow, Option.map_some, Nat.mul_zero, Nat.zero_add]
      · rw [pair_ofNat (by decide) hl, hlast, hplus]
        rfl
    · -- Both are digits, so the pair is a numeral of base sixteen.
      rcases exists_digit?_of_mem (high.resolve_left hplus) with ⟨m, hm, hhigh, hfirst⟩
      refine ⟨UInt8.ofNat (16 * m + l), ?_, ?_⟩
      · rw [byte?, if_neg hplus, hhigh, hlow]
        rfl
      · rw [pair_ofNat hm hl, hfirst, hlast]

theorem isByte_of_byte? {cs : List Char} {byte : UInt8} (h : byte? cs = some byte) :
    IsByte cs := by
  unfold byte? at h
  split at h
  · rcases Option.map_eq_some_iff.1 h with ⟨n, hn, -⟩
    exact .digit (mem_digits_of_digit? hn)
  · split at h
    · rename_i hplus
      rcases Option.map_eq_some_iff.1 h with ⟨n, hn, -⟩
      exact .pair (.inl hplus) (mem_digits_of_digit? hn)
    · rcases Option.bind_eq_some_iff.1 h with ⟨high, hhigh, h⟩
      rcases Option.bind_eq_some_iff.1 h with ⟨low, hlow, -⟩
      exact .pair (.inr (mem_digits_of_digit? hhigh)) (mem_digits_of_digit? hlow)
  · cases h

/-- The reader of a byte takes bytes and nothing else. -/
theorem exists_byte?_iff {cs : List Char} : (∃ byte, byte? cs = some byte) ↔ IsByte cs := by
  constructor
  · rintro ⟨byte, h⟩
    exact isByte_of_byte? h
  · intro h
    cases h with
    | digit hc =>
      rcases exists_digit?_of_mem hc with ⟨n, -, hn, -⟩
      exact ⟨UInt8.ofNat n, by rw [byte?, hn, Option.map_some]⟩
    | pair high low =>
      rcases exists_byte?_of_isByte (.pair high low) with ⟨byte, hbyte, -⟩
      exact ⟨byte, hbyte⟩

end Bytes

section Pairs

theorem encode_cons (byte : UInt8) (bytes : List UInt8) :
    encode (byte :: bytes) = pair byte ++ encode bytes :=
  List.flatMap_cons

/-- Pairs are read, and what is read is written again as it should. -/
theorem exists_decode?_of_isPairs {cs : List Char} (h : IsPairs cs) :
    ∃ bytes, decode? cs = some bytes ∧ encode bytes = cs.map written := by
  -- By induction on the pairs: one is read, and the reader goes on behind it.
  induction h with
  | nil => exact ⟨[], rfl, rfl⟩
  | cons hbyte _ ih =>
    rcases exists_byte?_of_isByte hbyte with ⟨byte, hread, hpair⟩
    rcases ih with ⟨bytes, hrest, hencode⟩
    refine ⟨byte :: bytes, ?_, ?_⟩
    · rw [decode?, hread, hrest]
      rfl
    · rw [encode_cons, hpair, hencode]
      rfl

theorem isPairs_of_decode? {cs : List Char} {bytes : List UInt8} (h : decode? cs = some bytes) :
    IsPairs cs := by
  match cs with
  | [] => exact .nil
  | [_] => cases h
  | a :: b :: rest =>
    rcases Option.bind_eq_some_iff.1 h with ⟨byte, hbyte, h⟩
    rcases Option.bind_eq_some_iff.1 h with ⟨others, hothers, -⟩
    exact .cons (isByte_of_byte? hbyte) (isPairs_of_decode? hothers)

/-- The reader of bytes takes pairs and nothing else, and what it reads is
    written again as the text with small letters and without plus signs. -/
theorem decode?_eq_some_iff {cs : List Char} {bytes : List UInt8} :
    decode? cs = some bytes ↔ IsPairs cs ∧ encode bytes = cs.map written := by
  constructor
  · intro h
    have hpairs := isPairs_of_decode? h
    rcases exists_decode?_of_isPairs hpairs with ⟨others, hothers, hencode⟩
    cases h.symm.trans hothers
    exact ⟨hpairs, hencode⟩
  · rintro ⟨hpairs, hencode⟩
    rcases exists_decode?_of_isPairs hpairs with ⟨others, hothers, hothers'⟩
    -- Bytes are determined by how they are written.
    have hbytes : some bytes = some others := by
      rw [← decode?_encode bytes, ← decode?_encode others, hencode, hothers']
    rw [hothers, hbytes]

/-- The number of characters is twice the number of bytes. -/
theorem length_of_decode? {cs : List Char} {bytes : List UInt8} (h : decode? cs = some bytes) :
    cs.length = 2 * bytes.length := by
  rw [← length_encode, (decode?_eq_some_iff.1 h).2, List.length_map]

/-- The characters of pairs take one byte each, and none is a hyphen. -/
theorem IsPairs.utf8Size_eq_one {cs : List Char} (h : IsPairs cs) :
    ∀ c ∈ cs, c.utf8Size = 1 ∧ c ≠ '-' := by
  have hdigit {c : Char} (hc : c ∈ digits) : c.utf8Size = 1 ∧ c ≠ '-' := by
    rcases exists_digit?_of_mem hc with ⟨n, -, hn, -⟩
    exact utf8Size_of_digit? hn
  induction h with
  | nil => exact List.forall_mem_nil _
  | cons hbyte _ ih =>
    -- The first of a pair may be the plus sign, which takes one byte too.
    cases hbyte with
    | pair high low =>
      refine List.forall_mem_cons.2 ⟨?_, List.forall_mem_cons.2 ⟨hdigit low, ih⟩⟩
      rcases high with rfl | high
      · decide
      · exact hdigit high

end Pairs

section Signless

/-- Without a plus sign a byte is one digit or two. -/
theorem isByte_iff {cs : List Char} (h : '+' ∉ cs) :
    IsByte cs ↔ (cs.length = 1 ∨ cs.length = 2) ∧ ∀ c ∈ cs, c ∈ digits := by
  constructor
  · intro hbyte
    cases hbyte with
    | digit hc => exact ⟨.inl rfl, List.forall_mem_singleton.2 hc⟩
    | @pair a b high low =>
      have hhigh := high.resolve_left fun hplus => h (hplus ▸ List.mem_cons_self)
      exact ⟨.inr rfl, List.forall_mem_cons.2 ⟨hhigh, List.forall_mem_singleton.2 low⟩⟩
  · rintro ⟨hlength, hdigits⟩
    match cs with
    | [c] => exact .digit (hdigits c List.mem_cons_self)
    | [a, b] =>
      exact .pair (.inr (hdigits a List.mem_cons_self))
        (hdigits b (List.mem_cons_of_mem _ List.mem_cons_self))
    | [] | _ :: _ :: _ :: _ =>
      simp only [List.length_nil, List.length_cons] at hlength
      omega

/-- Without a plus sign pairs are an even number of digits. -/
theorem isPairs_iff {cs : List Char} (h : '+' ∉ cs) :
    IsPairs cs ↔ cs.length % 2 = 0 ∧ ∀ c ∈ cs, c ∈ digits := by
  match cs with
  | [] => exact iff_of_true .nil ⟨rfl, fun c hc => absurd hc List.not_mem_nil⟩
  | [a] =>
    refine iff_of_false (fun hpairs => by cases hpairs) (fun hdigits => ?_)
    exact absurd hdigits.1 (by rw [List.length_singleton]; decide)
  | a :: b :: rest =>
    have hpair : '+' ∉ [a, b] := fun hmem => h (List.mem_append_left rest hmem)
    have hrest : '+' ∉ rest := fun hmem => h (List.mem_append_right [a, b] hmem)
    -- A pair in front is read by itself, and the rest is a text of pairs without a
    -- plus sign.
    have hcons : IsPairs (a :: b :: rest) ↔ IsByte [a, b] ∧ IsPairs rest := by
      constructor
      · intro hpairs
        cases hpairs with
        | cons hbyte hpairs => exact ⟨hbyte, hpairs⟩
      · rintro ⟨hbyte, hpairs⟩
        exact .cons hbyte hpairs
    have hlength : (a :: b :: rest).length % 2 = rest.length % 2 := by
      rw [List.length_cons, List.length_cons]
      omega
    have hdigits : (∀ c ∈ a :: b :: rest, c ∈ digits) ↔
        (∀ c ∈ [a, b], c ∈ digits) ∧ ∀ c ∈ rest, c ∈ digits :=
      @List.forall_mem_append _ _ [a, b] rest
    rw [hcons, isByte_iff hpair, isPairs_iff hrest, hlength, hdigits]
    constructor
    · rintro ⟨⟨-, hab⟩, heven, hrest⟩
      exact ⟨heven, hab, hrest⟩
    · rintro ⟨heven, hab, hrest⟩
      exact ⟨⟨.inr rfl, hab⟩, heven, hrest⟩

theorem map_written {cs : List Char} (h : '+' ∉ cs) : cs.map written = cs.map Char.toLower :=
  List.map_congr_left fun c hc => if_neg fun hplus : c = '+' => h (hplus ▸ hc)

end Signless

end Hex

end Fieldwork
