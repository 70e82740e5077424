import Fieldwork.Proofs.Extended.RoundTrip
import Fieldwork.Proofs.Extended.WellWrapped
import Fieldwork.Proofs.Text.Bytes
import Fieldwork.Proofs.Text.Hexadecimal

/-!
# Wrappers That Say the Same

Literals that can be written in more than one way.

Milliseconds can stand in a date as a number or as a wrapped numeral. Binary
data has an older form with the subtype beside the text, in either order, and a
newer one with both in an object. A universally unique identifier has a form of
its own, in digits of any case, and is binary data like any other. Each form is
read on its own way, and all of them have to arrive at one value or at one
error.

The bytes of an identifier are compared with its digits through their small
letters: a text spells the bytes in any case if its letters made small are the
digits that the bytes are written in. Reading does not see the case of a digit,
so what is known of written digits carries over.

## Main definitions

* `hyphenated`: Thirty-two digits with the hyphens of an identifier.

## Theorems

* `dateOf_dateMillis`: Milliseconds as a number and as a numeral.
* `binaryOf_parts`: The two forms of binary data.
* `uuidOf_hyphenated`: An identifier is binary data.
* `decode_synonyms`: All of them agree.
-/

namespace Fieldwork

namespace Extended

section Dates

theorem int64?_ofInt64 (n : Int64) : (Number.integer (.ofInt64 n)).int64? = some n := by
  have hlt := n.toInt_lt
  have hword : n.toInt < 0x8000000000000000 := by omega
  rw [Number.int64?, Word.ofInt64, if_pos hword, Int64.ofInt_toInt]

/-- Milliseconds as a number and as a wrapped numeral. -/
theorem dateOf_dateMillis (millis : Int64) :
    dateOf (.ofInt64 millis) = dateOfMillis millis ∧
      dateOf (.object [("$numberLong", .string (String.ofList (Numeral.ofInt millis.toInt)))]) =
        dateOfMillis millis := by
  constructor
  · simp only [Json.ofInt64, dateOf, int64?_ofInt64]
  · have hkey : "$numberLong" = Wrapper.long.key := rfl
    rw [dateOf, if_pos hkey, longOf_ofInt]
    rfl

/-- A date of milliseconds is the moment that they count to. -/
theorem unixMillis_of_dateOfMillis {millis : Int64} {m : Moment}
    (h : dateOfMillis millis = .ok m) : m.unixMillis = millis.toInt := by
  unfold dateOfMillis at h
  split at h
  · rename_i found hfound
    cases h
    rw [Moment.eq_of_ofUnixMillis? hfound, Moment.unixMillis_ofUnixMillis]
  · cases h

end Dates

/-- The newer form of binary data has the parts of the older one. -/
theorem binaryOf_parts (text : String) (subtype : Json) :
    binaryOf (.object [("base64", .string text), ("subType", subtype)]) =
      typedBinaryOf (.string text) subtype := by
  have htext : ([("base64", .string text), ("subType", subtype)] : List (String × Json)).lookup
      "base64" = some (.string text) := rfl
  have hsubtype : ([("base64", .string text), ("subType", subtype)] : List (String × Json)).lookup
      "subType" = some subtype := rfl
  simp only [binaryOf, htext, hsubtype, Option.bind_some, Json.string?, typedBinaryOf]

section Identifiers

/-- Thirty-two digits with the hyphens of a universally unique identifier. -/
def hyphenated (digits : List Char) : List Char :=
  digits.take 8 ++ '-' :: ((digits.drop 8).take 4 ++ '-' :: ((digits.drop 12).take 4 ++
    '-' :: ((digits.drop 16).take 4 ++ '-' :: digits.drop 20)))

variable {digits : List Char}

theorem filter_hyphen (rest : List Char) :
    ('-' :: rest).filter (· ≠ '-') = rest.filter (· ≠ '-') :=
  List.filter_cons_of_neg (by decide)

theorem filter_of_ne_hyphen {run : List Char} (h : ∀ c ∈ run, c ≠ '-') :
    run.filter (· ≠ '-') = run :=
  List.filter_eq_self.2 fun c hc => decide_eq_true (h c hc)

/-- Characters of one byte that are no hyphens move the offset along. -/
theorem hyphensAt_append {run : List Char} (hrun : ∀ c ∈ run, c.utf8Size = 1 ∧ c ≠ '-')
    {hyphens : List Nat} {offset : Nat} (hfree : ∀ k < run.length, offset + k ∉ hyphens)
    (rest : List Char) :
    hyphensAt hyphens offset (run ++ rest) = hyphensAt hyphens (offset + run.length) rest := by
  induction run generalizing offset with
  | nil => rfl
  | cons c run ih =>
    rcases List.forall_mem_cons.1 hrun with ⟨⟨hsize, hhyphen⟩, hrest⟩
    -- The run has no hyphen, and none is asked for where it stands.
    have hhere : hyphens.contains offset = false := by
      simpa using hfree 0 (Nat.zero_lt_succ _)
    have hlater : ∀ k < run.length, offset + 1 + k ∉ hyphens := by
      intro k hk
      have hnext := hfree (k + 1) (Nat.succ_lt_succ hk)
      rwa [Nat.add_comm k 1, ← Nat.add_assoc] at hnext
    rw [List.cons_append, hyphensAt, hhere, beq_false_of_ne hhyphen, hsize, ih hrest hlater,
      List.length_cons, Nat.add_assoc, Nat.add_comm 1]
    rfl

/-- A group of digits with a hyphen behind it. -/
theorem hyphensAt_group {run : List Char} (hrun : ∀ c ∈ run, c.utf8Size = 1 ∧ c ≠ '-')
    {count : Nat} (hlength : run.length = count) {hyphens : List Nat} {offset : Nat}
    (hfree : ∀ k < count, offset + k ∉ hyphens) (hhyphen : offset + count ∈ hyphens)
    (rest : List Char) :
    hyphensAt hyphens offset (run ++ '-' :: rest) =
      hyphensAt hyphens (offset + count + 1) rest := by
  subst hlength
  have hhere : hyphens.contains (offset + run.length) = true := List.contains_iff_mem.2 hhyphen
  rw [hyphensAt_append hrun hfree, hyphensAt, hhere]
  rfl

section Digits

variable (hdigits : ∀ c ∈ digits, c.utf8Size = 1 ∧ c ≠ '-')
include hdigits

theorem filter_hyphenated : (hyphenated digits).filter (· ≠ '-') = digits := by
  have hkept {run : List Char} (h : ∀ c ∈ run, c ∈ digits) : run.filter (· ≠ '-') = run :=
    filter_of_ne_hyphen fun c hc => (hdigits c (h c hc)).2
  have hgroup (first count : Nat) :
      ((digits.drop first).take count).filter (· ≠ '-') = (digits.drop first).take count :=
    hkept fun c hc => List.mem_of_mem_drop (List.mem_of_mem_take hc)
  have hjoin (first : Nat) :
      (digits.drop first).take 4 ++ digits.drop (first + 4) = digits.drop first := by
    rw [← List.drop_drop, List.take_append_drop]
  simp only [hyphenated, List.filter_append, filter_hyphen, hgroup,
    hkept fun c => List.mem_of_mem_take, hkept fun c => List.mem_of_mem_drop]
  -- What is left are the five groups in order.
  rw [hjoin 16, hjoin 12, hjoin 8, List.take_append_drop]

theorem utf8Size_of_mem_hyphenated {c : Char} (h : c ∈ hyphenated digits) : c.utf8Size = 1 := by
  by_cases hc : c = '-'
  · rw [hc]
    rfl
  · have hmem : c ∈ (hyphenated digits).filter (· ≠ '-') :=
      List.mem_filter.2 ⟨h, decide_eq_true hc⟩
    rw [filter_hyphenated hdigits] at hmem
    exact (hdigits c hmem).1

variable (hlength : digits.length = 32)
include hlength

theorem hyphensAt_hyphenated : hyphensAt uuidHyphens 0 (hyphenated digits) = true := by
  have hgroup (first count : Nat) : ∀ c ∈ (digits.drop first).take count,
      c.utf8Size = 1 ∧ c ≠ '-' :=
    fun c hc => hdigits c (List.mem_of_mem_drop (List.mem_of_mem_take hc))
  have hfour (first : Nat) (h : first ≤ 28) : ((digits.drop first).take 4).length = 4 := by
    rw [List.length_take, List.length_drop]
    omega
  have height : (digits.take 8).length = 8 := by
    rw [List.length_take]
    omega
  have hlast : (digits.drop 20).length = 12 := by
    rw [List.length_drop]
    omega
  -- The hyphens are expected behind the first four groups, at 8, 13, 18 and 23.
  unfold hyphenated
  rw [hyphensAt_group (fun c hc => hdigits c (List.mem_of_mem_take hc)) height (by decide)
      (by decide),
    hyphensAt_group (hgroup 8 4) (hfour 8 (by decide)) (by decide) (by decide),
    hyphensAt_group (hgroup 12 4) (hfour 12 (by decide)) (by decide) (by decide),
    hyphensAt_group (hgroup 16 4) (hfour 16 (by decide)) (by decide) (by decide),
    ← List.append_nil (digits.drop 20),
    hyphensAt_append (fun c hc => hdigits c (List.mem_of_mem_drop hc))
      (by rw [hlast]; decide)]
  rfl

theorem utf8ByteSize_hyphenated : (String.ofList (hyphenated digits)).utf8ByteSize = 36 := by
  have hcount : (hyphenated digits).length = 36 := by
    simp only [hyphenated, List.length_append, List.length_cons, List.length_take,
      List.length_drop, hlength]
    rfl
  rw [utf8ByteSize_ofList fun c => utf8Size_of_mem_hyphenated hdigits, hcount]

end Digits

/-- Digits that are read as sixteen bytes make an identifier. -/
theorem uuidOf_of_decode? {bytes : List UInt8} (hdecode : Hex.decode? digits = some bytes)
    (hbytes : bytes.length = 16) :
    uuidOf (.string (String.ofList (hyphenated digits))) = .ok ⟨Binary.uuidSubtype, bytes⟩ := by
  have hdigits := (Hex.isPairs_of_decode? hdecode).utf8Size_eq_one
  have hlength : digits.length = 32 := by
    rw [Hex.length_of_decode? hdecode, hbytes]
  simp only [uuidOf, Json.string?, String.toList_ofList, filter_hyphenated hdigits, hdecode]
  rw [if_pos ⟨utf8ByteSize_hyphenated hdigits hlength, hyphensAt_hyphenated hdigits hlength⟩,
    if_pos hbytes]

/-- An identifier of sixteen bytes is binary data, whatever the case of its
    digits. -/
theorem uuidOf_hyphenated {bytes : List UInt8} (hbytes : bytes.length = 16)
    (h : digits.map Char.toLower = Hex.encode bytes) :
    uuidOf (.string (String.ofList (hyphenated digits))) = .ok ⟨Binary.uuidSubtype, bytes⟩ := by
  refine uuidOf_of_decode? ?_ hbytes
  -- Only small digits are known to be read back, and capital ones are read like them.
  rw [← Hex.decode?_map_toLower, h, Hex.decode?_encode]

theorem binaryOf_uuid (bytes : List UInt8) :
    binaryOf (.object [("base64", .string (String.ofList (Base64.encode bytes))),
        ("subType", .string "04")]) =
      .ok ⟨Binary.uuidSubtype, bytes⟩ := by
  have hsubtype : Hex.byte? "04".toList = some Binary.uuidSubtype := rfl
  rw [binaryOf_parts]
  simp only [typedBinaryOf, Json.string?, binaryOfParts, Option.bind_some, hsubtype,
    String.toList_ofList, Base64.decode?_encode]

end Identifiers

/-- An object with one reserved key is decoded as its wrapper says. -/
theorem decode_wrapper (wrapper : Wrapper) (payload : Json) :
    decode (.object [(wrapper.key, payload)]) =
      (WrapperShape.single wrapper payload).literal.mapError .literal := by
  rw [decode, ofJson, WrapperShape.ofMembers?_wrapper]

/-- Wrappers that say the same are decoded alike. Milliseconds as a number and
    as a wrapped numeral come to one moment or to one error; the moment is the
    one that they count to, and it is decoded again from what it is written as.
    The two forms of binary data, the older one in either order, come to the
    same binary data or to the same error. An identifier of sixteen bytes, in
    digits of any case, comes to the binary data of these bytes. -/
theorem decode_synonyms :
    (∀ millis : Int64,
      decode (.object [("$date", .ofInt64 millis)]) =
          decode (.object [("$date",
            .object [("$numberLong", .string (String.ofList (Numeral.ofInt millis.toInt)))])]) ∧
        ∀ v, decode (.object [("$date", .ofInt64 millis)]) = .ok v →
          ∃ m, v = .date m ∧ m.unixMillis = millis.toInt ∧ decode v.toJson = .ok v) ∧
    (∀ (text : String) (subtype : Json),
      let nested : Json :=
        .object [("$binary", .object [("base64", .string text), ("subType", subtype)])]
      decode (.object [("$binary", .string text), ("$type", subtype)]) = decode nested ∧
        decode (.object [("$type", subtype), ("$binary", .string text)]) = decode nested) ∧
    ∀ (bytes : List UInt8) (digits : List Char), bytes.length = 16 →
      digits.map Char.toLower = Hex.encode bytes →
      decode (.object [("$uuid", .string (String.ofList (hyphenated digits)))]) =
          .ok (.binary ⟨4, bytes⟩) ∧
        decode (.object [("$binary", .object
            [("base64", .string (String.ofList (Base64.encode bytes))),
              ("subType", .string "04")])]) =
          .ok (.binary ⟨4, bytes⟩) := by
  refine ⟨fun millis => ⟨?_, fun v hv => ?_⟩, fun text subtype => ?_,
    fun bytes digits hbytes hdigits => ⟨?_, ?_⟩⟩
  · have hnumber := decode_wrapper .date (.ofInt64 millis)
    have hnumeral := decode_wrapper .date
      (.object [("$numberLong", .string (String.ofList (Numeral.ofInt millis.toInt)))])
    rw [WrapperShape.literal, (dateOf_dateMillis millis).1] at hnumber
    rw [WrapperShape.literal, (dateOf_dateMillis millis).2] at hnumeral
    exact hnumber.trans hnumeral.symm
  · -- What was decoded is canonical, so it is decoded again from what it is written as.
    have hj := decode_eq_ok_iff.1 hv
    have hliteral := (decode_wrapper .date (.ofInt64 millis)).symm.trans hv
    rw [Fallible.mapError_eq_ok_iff, WrapperShape.literal, (dateOf_dateMillis millis).1] at hliteral
    rcases Fallible.map_eq_ok_iff.1 hliteral with ⟨m, hm, rfl⟩
    exact ⟨m, rfl, unixMillis_of_dateOfMillis hm,
      decode_eq_ok_iff.2 (ofJson_toJson (canonical_of_ofJson hj))⟩
  · -- Both orders of the older form are read like the nested one.
    have hnested := decode_wrapper .binary
      (.object [("base64", .string text), ("subType", subtype)])
    rw [WrapperShape.literal, binaryOf_parts] at hnested
    exact ⟨hnested.symm, hnested.symm⟩
  · refine (decode_wrapper .uuid _).trans ?_
    rw [WrapperShape.literal, uuidOf_hyphenated hbytes hdigits]
    rfl
  · refine (decode_wrapper .binary _).trans ?_
    rw [WrapperShape.literal, binaryOf_uuid]
    rfl

/-- Milliseconds of a year before zero, and an identifier in digits of both
    cases. -/
theorem decode_synonyms_mixedCase :
    let bytes : List UInt8 :=
      [0, 17, 34, 51, 68, 85, 102, 119, 136, 153, 170, 187, 204, 221, 238, 255]
    let digits := "00112233445566778899aABbCcdDEeFf".toList
    let early : Json := .object [("$date", .ofInt64 (-99999999999999))]
    (∃ v, decode early = .ok v ∧
      ∃ m, v = .date m ∧ m.unixMillis = -99999999999999 ∧ decode v.toJson = .ok v) ∧
    bytes.length = 16 ∧ digits.map Char.toLower = Hex.encode bytes ∧
      decode (.object [("$uuid", .string "00112233-4455-6677-8899-aABbCcdDEeFf")]) =
        .ok (.binary ⟨4, bytes⟩) := by
  intro bytes digits early
  have hdigits : digits.map Char.toLower = Hex.encode bytes := by
    decide
  have hearly : decode early = .ok (.date ⟨⟨-1199, 2, 15⟩, 14, 13, 20, 1000000, 0⟩) := rfl
  rcases decode_synonyms with ⟨hmillis, -, huuid⟩
  exact ⟨⟨_, hearly, (hmillis (-99999999999999)).2 _ hearly⟩, rfl, hdigits,
    (huuid bytes digits rfl hdigits).1⟩

end Extended

end Fieldwork
