import Fieldwork.Proofs.Extended.Synonyms

/-!
# The Grammar of Hexadecimal Literals

Which texts an object identifier, a universally unique identifier and the
subtype of binary data may have.

All three are pairs of hexadecimal digits to the reader: twelve pairs, sixteen
pairs with hyphens between them, and a single one that may be cut to one digit.
Pairs are wider than digits, because a plus sign may be the first character of
one. So each of the three takes a few texts that are no digits at all, and
`+f+f+f+f+f+f+f+f+f+f+f+f` is an object identifier. Where no plus sign stands
in a text, the three take digits in their places and nothing else.

The hyphens of an identifier are looked for by byte offset. Offsets are
positions only in a text whose characters take one byte each, which is known of
the characters that are no hyphens once they have been read as pairs.

## Main definitions

* `Aligned`: Characters of one byte each, with hyphens at their offsets.

## Theorems

* `objectIdOfText_eq_ok_iff`: An object identifier is its bytes.
* `Aligned.exists_group`: A hyphen and the characters in front of it.
* `hyphenated_filter`: Without its hyphens a text can be hyphenated again.
* `exists_uuidOf_iff`: Sixteen pairs and their hyphens.
* `hexLiterals_ok_iff`: The grammar of the three.
-/

namespace Fieldwork

namespace Extended

section ObjectIds

variable {text : String} {oid : ObjectId}

/-- An object identifier is its bytes. -/
theorem objectIdOfText_eq_ok_iff :
    objectIdOfText text = .ok oid ↔ Hex.decode? text.toList = some oid.bytes := by
  unfold objectIdOfText
  cases hdecode : Hex.decode? text.toList with
  | none => exact iff_of_false (fun h => by cases h) (fun h => by cases h)
  | some bytes =>
    -- Twelve bytes are an id; no other number of bytes is that of one.
    by_cases hlength : bytes.length = 12
    · have hbytes : ObjectId.ofBytes? bytes = some ⟨bytes, hlength⟩ := dif_pos hlength
      simp only [hbytes, Except.ok.injEq, Option.some.injEq, ObjectId.ext_iff]
    · have hbytes : ObjectId.ofBytes? bytes = none := dif_neg hlength
      simp only [hbytes]
      refine iff_of_false (fun h => by cases h) (fun h => hlength ?_)
      rw [Option.some.inj h, oid.length_eq]

theorem exists_objectIdOfText_iff :
    (∃ oid, objectIdOfText text = .ok oid) ↔ text.length = 24 ∧ Hex.IsPairs text.toList := by
  rw [← String.length_toList]
  constructor
  · rintro ⟨oid, h⟩
    have hdecode := objectIdOfText_eq_ok_iff.1 h
    refine ⟨?_, Hex.isPairs_of_decode? hdecode⟩
    rw [Hex.length_of_decode? hdecode, oid.length_eq]
  · rintro ⟨hlength, hpairs⟩
    rcases Hex.exists_decode?_of_isPairs hpairs with ⟨bytes, hdecode, -⟩
    -- Each byte has taken two digits.
    have htwice := Hex.length_of_decode? hdecode
    exact ⟨⟨bytes, by omega⟩, objectIdOfText_eq_ok_iff.2 hdecode⟩

/-- An object identifier is written again as its text with small letters and
    without plus signs. -/
theorem toList_text_of_objectIdOfText (h : objectIdOfText text = .ok oid) :
    oid.text.toList = text.toList.map Hex.written := by
  rw [ObjectId.text, String.toList_ofList]
  exact (Hex.decode?_eq_some_iff.1 (objectIdOfText_eq_ok_iff.1 h)).2

end ObjectIds

section Identifiers

/-- So many characters of one byte each, with hyphens at their offsets. -/
structure Aligned (hyphens : List Nat) (offset length : Nat) (cs : List Char) : Prop where
  /-- Each character takes one byte. -/
  utf8Size_eq : ∀ c ∈ cs, c.utf8Size = 1
  /-- There are so many. -/
  length_eq : cs.length = length
  /-- Hyphens stand where they are expected and nowhere else. -/
  hyphens_eq : hyphensAt hyphens offset cs = true

section Groups

variable {hyphens : List Nat} {offset length : Nat} {cs : List Char}

/-- One character is taken off. -/
theorem Aligned.exists_cons (h : Aligned hyphens offset (length + 1) cs) :
    ∃ c rest, cs = c :: rest ∧ (c = '-' ↔ offset ∈ hyphens) ∧
      Aligned hyphens (offset + 1) length rest := by
  cases cs with
  | nil => exact absurd h.length_eq (Nat.succ_ne_zero length).symm
  | cons c rest =>
    rcases List.forall_mem_cons.1 h.utf8Size_eq with ⟨hsize, hrest⟩
    -- Every character takes one byte, so the next one stands one offset further.
    have hhyphens := h.hyphens_eq
    rw [hyphensAt, hsize, Bool.and_eq_true, beq_iff_eq, Bool.eq_iff_iff, List.contains_iff_mem,
      beq_iff_eq] at hhyphens
    exact ⟨c, rest, rfl, hhyphens.1.symm, hrest, Nat.succ.inj h.length_eq, hhyphens.2⟩

/-- A group of characters is taken off, with the hyphen behind it. -/
theorem Aligned.exists_group (count : Nat) (h : Aligned hyphens offset (length + 1 + count) cs)
    (hfree : ∀ k < count, offset + k ∉ hyphens) (hhyphen : offset + count ∈ hyphens) :
    ∃ run rest, cs = run ++ '-' :: rest ∧ run.length = count ∧ (∀ c ∈ run, c ≠ '-') ∧
      Aligned hyphens (offset + count + 1) length rest := by
  -- By induction on what is still in front of the hyphen.
  induction count generalizing offset cs with
  | zero =>
    rcases h.exists_cons with ⟨c, rest, rfl, hc, hrest⟩
    exact ⟨[], rest, by rw [hc.2 hhyphen, List.nil_append], rfl, List.forall_mem_nil _, hrest⟩
  | succ count ih =>
    rcases h.exists_cons with ⟨c, cs, rfl, hc, hcs⟩
    have hshift (k : Nat) : offset + 1 + k = offset + (k + 1) := by omega
    have hlater : ∀ k < count, offset + 1 + k ∉ hyphens :=
      fun k hk => hshift k ▸ hfree (k + 1) (Nat.succ_lt_succ hk)
    rcases ih hcs hlater (hshift count ▸ hhyphen) with ⟨run, rest, rfl, hrun, hnone, hrest⟩
    have hhere : c ≠ '-' := fun hdash => hfree 0 (Nat.zero_lt_succ _) (hc.1 hdash)
    refine ⟨c :: run, rest, rfl, by rw [List.length_cons, hrun], ?_, hshift count ▸ hrest⟩
    exact List.forall_mem_cons.2 ⟨hhere, hnone⟩

/-- Behind the last hyphen there is none. -/
theorem Aligned.ne_hyphen (h : Aligned hyphens offset length cs)
    (hfree : ∀ k ∈ hyphens, k < offset) : ∀ c ∈ cs, c ≠ '-' := by
  induction length generalizing offset cs with
  | zero =>
    rw [List.eq_nil_of_length_eq_zero h.length_eq]
    exact List.forall_mem_nil _
  | succ length ih =>
    rcases h.exists_cons with ⟨c, rest, rfl, hc, hrest⟩
    -- All hyphens belong further in front.
    have hhere : c ≠ '-' := fun hdash => Nat.lt_irrefl _ (hfree offset (hc.1 hdash))
    have hlater := ih hrest fun k hk => Nat.lt_succ_of_lt (hfree k hk)
    exact List.forall_mem_cons.2 ⟨hhere, hlater⟩

end Groups

theorem hyphenated_append {a b c d : List Char} (ha : a.length = 8) (hb : b.length = 4)
    (hc : c.length = 4) (hd : d.length = 4) (e : List Char) :
    hyphenated (a ++ (b ++ (c ++ (d ++ e)))) =
      a ++ '-' :: (b ++ '-' :: (c ++ '-' :: (d ++ '-' :: e))) := by
  -- The groups are taken off the front one by one.
  have h8 : (a ++ (b ++ (c ++ (d ++ e)))).drop 8 = b ++ (c ++ (d ++ e)) := List.drop_left' ha
  have h12 : (a ++ (b ++ (c ++ (d ++ e)))).drop (8 + 4) = c ++ (d ++ e) := by
    rw [← List.drop_drop, h8, List.drop_left' hb]
  have h16 : (a ++ (b ++ (c ++ (d ++ e)))).drop (8 + 4 + 4) = d ++ e := by
    rw [← List.drop_drop, h12, List.drop_left' hc]
  have h20 : (a ++ (b ++ (c ++ (d ++ e)))).drop (8 + 4 + 4 + 4) = e := by
    rw [← List.drop_drop, h16, List.drop_left' hd]
  rw [hyphenated, List.take_left' ha, h8, List.take_left' hb, h12, List.take_left' hc, h16,
    List.take_left' hd, h20]

/-- A text of thirty-six characters with hyphens in their places is what is
    left of it without the hyphens, hyphenated. -/
theorem hyphenated_filter {cs : List Char} (h : Aligned uuidHyphens 0 36 cs) :
    hyphenated (cs.filter (· ≠ '-')) = cs := by
  -- One group after another is taken off, up to the hyphens at 8, 13, 18 and 23.
  rcases h.exists_group 8 (by decide) (by decide) with ⟨a, cs, rfl, ha, hafree, h⟩
  rcases h.exists_group 4 (by decide) (by decide) with ⟨b, cs, rfl, hb, hbfree, h⟩
  rcases h.exists_group 4 (by decide) (by decide) with ⟨c, cs, rfl, hc, hcfree, h⟩
  rcases h.exists_group 4 (by decide) (by decide) with ⟨d, e, rfl, hd, hdfree, h⟩
  have hefree := h.ne_hyphen (by decide)
  simp only [List.filter_append, filter_hyphen, filter_of_ne_hyphen hafree,
    filter_of_ne_hyphen hbfree, filter_of_ne_hyphen hcfree, filter_of_ne_hyphen hdfree,
    filter_of_ne_hyphen hefree]
  exact hyphenated_append ha hb hc hd e

/-- An identifier is sixteen pairs and their hyphens. -/
theorem exists_uuidOf_iff {text : String} :
    (∃ data, uuidOf (.string text) = .ok data) ↔
      ∃ digits, digits.length = 32 ∧ Hex.IsPairs digits ∧ text.toList = hyphenated digits := by
  constructor
  · rintro ⟨data, h⟩
    simp only [uuidOf, Json.string?] at h
    split at h
    · rename_i hshape
      split at h
      · rename_i bytes hdecode
        split at h
        · rename_i hbytes
          have hpairs := Hex.isPairs_of_decode? hdecode
          -- Only now it is known that offsets are positions.
          have hsize : ∀ c ∈ text.toList, c.utf8Size = 1 := by
            intro c hc
            by_cases hdash : c = '-'
            · rw [hdash]
              rfl
            · exact (hpairs.utf8Size_eq_one c (List.mem_filter.2 ⟨hc, decide_eq_true hdash⟩)).1
          have hlength : text.toList.length = 36 := by
            rw [← utf8ByteSize_ofList hsize, String.ofList_toList, hshape.1]
          refine ⟨text.toList.filter (· ≠ '-'), ?_, hpairs,
            (hyphenated_filter ⟨hsize, hlength, hshape.2⟩).symm⟩
          rw [Hex.length_of_decode? hdecode, hbytes]
        · cases h
      · cases h
    · cases h
  · rintro ⟨digits, hlength, hpairs, htext⟩
    rcases Hex.exists_decode?_of_isPairs hpairs with ⟨bytes, hdecode, -⟩
    have htwice := Hex.length_of_decode? hdecode
    rw [← String.ofList_toList (s := text), htext]
    exact ⟨_, uuidOf_of_decode? hdecode (by omega)⟩

end Identifiers

section Subtypes

/-- A subtype is one byte. -/
theorem binaryOfParts_ne_subtype_iff {payload text : String} :
    binaryOfParts payload (.string text) ≠ .error .binarySubtype ↔ Hex.IsByte text.toList := by
  rw [← Hex.exists_byte?_iff]
  simp only [binaryOfParts, Json.string?, Option.bind_some]
  cases hbyte : Hex.byte? text.toList with
  | none =>
    refine iff_of_false (fun h => h rfl) ?_
    rintro ⟨byte, h⟩
    cases h
  | some byte =>
    refine iff_of_true (fun h => ?_) ⟨byte, rfl⟩
    -- The subtype is read first, so whatever is wrong now is wrong with the bytes.
    cases hbytes : Base64.decode? payload.toList with
    | none =>
      simp only [hbytes] at h
      cases h
    | some bytes =>
      simp only [hbytes] at h
      cases h

end Subtypes

section Signless

/-- Without a plus sign an identifier is thirty-two digits and their hyphens. -/
theorem exists_uuidOf_iff_of_signless {text : String} (h : '+' ∉ text.toList) :
    (∃ data, uuidOf (.string text) = .ok data) ↔
      ∃ digits, digits.length = 32 ∧ (∀ c ∈ digits, c ∈ Hex.digits) ∧
        text.toList = hyphenated digits := by
  rw [exists_uuidOf_iff]
  refine exists_congr fun digits => and_congr_right fun hlength => and_congr_left fun htext => ?_
  have heven : digits.length % 2 = 0 := by omega
  constructor
  · intro hpairs
    -- A sign among the pairs would be one of the text.
    have hsignless : '+' ∉ digits := by
      rw [← filter_hyphenated hpairs.utf8Size_eq_one, ← htext]
      exact fun hplus => h ((List.mem_filter.1 hplus).1)
    exact ((Hex.isPairs_iff hsignless).1 hpairs).2
  · intro hdigits
    have hsignless : '+' ∉ digits := fun hplus => absurd (hdigits _ hplus) (by decide)
    exact (Hex.isPairs_iff hsignless).2 ⟨heven, hdigits⟩

end Signless

/-- What the three kinds of hexadecimal literal may be. An object identifier is
    twenty-four characters that are pairs, and it is written again with small
    letters and with zeros for plus signs. A universally unique identifier is
    pairs of thirty-two characters with hyphens behind the first eight and
    behind the next four, three times. The subtype of binary data is one byte.
    Where no plus sign stands in the text, the characters of all three are
    digits, and an object identifier is written again with small letters. -/
theorem hexLiterals_ok_iff (text : String) :
    (((∃ oid, objectIdOfText text = .ok oid) ↔ text.length = 24 ∧ Hex.IsPairs text.toList) ∧
      (∀ oid, objectIdOfText text = .ok oid → oid.text.toList = text.toList.map Hex.written) ∧
      ((∃ data, uuidOf (.string text) = .ok data) ↔
        ∃ digits, digits.length = 32 ∧ Hex.IsPairs digits ∧ text.toList = hyphenated digits) ∧
      ∀ payload, binaryOfParts payload (.string text) ≠ .error .binarySubtype ↔
        Hex.IsByte text.toList) ∧
    ('+' ∉ text.toList →
      ((∃ oid, objectIdOfText text = .ok oid) ↔
        text.length = 24 ∧ ∀ c ∈ text.toList, c ∈ Hex.digits) ∧
      (∀ oid, objectIdOfText text = .ok oid →
        oid.text.toList = text.toList.map Char.toLower) ∧
      ((∃ data, uuidOf (.string text) = .ok data) ↔
        ∃ digits, digits.length = 32 ∧ (∀ c ∈ digits, c ∈ Hex.digits) ∧
          text.toList = hyphenated digits) ∧
      ∀ payload, binaryOfParts payload (.string text) ≠ .error .binarySubtype ↔
        (text.length = 1 ∨ text.length = 2) ∧ ∀ c ∈ text.toList, c ∈ Hex.digits) := by
  refine ⟨⟨exists_objectIdOfText_iff, fun oid => toList_text_of_objectIdOfText,
    exists_uuidOf_iff, fun payload => binaryOfParts_ne_subtype_iff⟩, fun h => ⟨?_, ?_,
    exists_uuidOf_iff_of_signless h, fun payload => ?_⟩⟩
  · -- Without a plus sign pairs are digits, and twenty-four of them are an even
    -- number.
    rw [exists_objectIdOfText_iff, Hex.isPairs_iff h, String.length_toList]
    constructor
    · rintro ⟨hlength, -, hdigits⟩
      exact ⟨hlength, hdigits⟩
    · rintro ⟨hlength, hdigits⟩
      exact ⟨hlength, by rw [hlength], hdigits⟩
  · intro oid hoid
    rw [toList_text_of_objectIdOfText hoid, Hex.map_written h]
  · rw [binaryOfParts_ne_subtype_iff, Hex.isByte_iff h, String.length_toList]

/-- Digits of both cases as each of the three. -/
theorem hexLiterals_ok_iff_mixedCase :
    '+' ∉ "0011223344556677aAbBcCdD".toList ∧
    (∃ oid, objectIdOfText "0011223344556677aAbBcCdD" = .ok oid ∧
      oid.text.toList = "0011223344556677aabbccdd".toList) ∧
    '+' ∉ "00112233-4455-6677-8899-aABbCcdDEeFf".toList ∧
    (∃ data, uuidOf (.string "00112233-4455-6677-8899-aABbCcdDEeFf") = .ok data) ∧
    '+' ∉ "fF".toList ∧ binaryOfParts "" (.string "fF") ≠ .error .binarySubtype := by
  have hoid : '+' ∉ "0011223344556677aAbBcCdD".toList := by decide
  have huuid : '+' ∉ "00112233-4455-6677-8899-aABbCcdDEeFf".toList := by decide
  have hsubtype : '+' ∉ "fF".toList := by decide
  have hdigits {cs : List Char} (h : cs.all fun c => decide (c ∈ Hex.digits)) :
      ∀ c ∈ cs, c ∈ Hex.digits :=
    fun c hc => of_decide_eq_true (List.all_eq_true.1 h c hc)
  rcases (hexLiterals_ok_iff "0011223344556677aAbBcCdD").2 hoid with ⟨hok, htext, -, -⟩
  rcases (hexLiterals_ok_iff "00112233-4455-6677-8899-aABbCcdDEeFf").2 huuid with ⟨-, -, hdata, -⟩
  rcases (hexLiterals_ok_iff "fF").2 hsubtype with ⟨-, -, -, hbyte⟩
  refine ⟨hoid, ?_, huuid, ?_, hsubtype, ?_⟩
  · rcases hok.2 ⟨rfl, hdigits (by decide)⟩ with ⟨oid, h⟩
    exact ⟨oid, h, (htext oid h).trans (by decide)⟩
  · exact hdata.2
      ⟨"00112233445566778899aABbCcdDEeFf".toList, rfl, hdigits (by decide), by decide⟩
  · exact (hbyte "").2 ⟨.inr rfl, hdigits (by decide)⟩

/-- A plus sign is no digit, and yet each of the three may hold one. -/
theorem hexLiterals_ok_signed :
    '+' ∉ Hex.digits ∧
    (∃ oid, objectIdOfText "+f+f+f+f+f+f+f+f+f+f+f+f" = .ok oid ∧
      oid.text = "0f0f0f0f0f0f0f0f0f0f0f0f") ∧
    (∃ data, uuidOf (.string "+f+f+f+f-+f+f-+f+f-+f+f-+f+f+f+f+f+f") = .ok data) ∧
    binaryOfParts "" (.string "+5") = .ok ⟨5, []⟩ := by
  refine ⟨by decide, ?_, ?_, rfl⟩
  · exact ⟨⟨List.replicate 12 15, rfl⟩, rfl, rfl⟩
  · exact ⟨⟨4, List.replicate 16 15⟩, rfl⟩

end Extended

end Fieldwork
