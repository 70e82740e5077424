import Fieldwork.Extended.Encode
import Fieldwork.Proofs.Fallible
import Fieldwork.Proofs.Moment.RoundTrip

/-!
# Extended JSON Reads Back

Decoding undoes encoding on everything that decoding can give.

A value of the type `Extended` need not have come from any JSON: an object
whose one key is reserved would be encoded as an object that decodes to
something else, and a moment with a thirteenth month would be encoded as a
text that names none. `Canonical` rules out exactly these two. It is stated
without mention of JSON, and it is what the two halves of the round trip
meet in: decoding gives only canonical values, and a canonical value is
decoded from its encoding.

That an object stays an object depends on its keys alone, and encoding does
not touch keys. `Shaped` is therefore a property of a list of keys, and both
halves ask it of the same list.

The scalars come back for different reasons. Hexadecimal and base64 texts and
numerals are canonical texts of what they hold. A moment has one of two forms,
by its year, and each form takes back what was written in it.

## Main definitions

* `WrapperShape.Shaped`: Keys that make an object a wrapper.
* `Extended.Canonical`: What decoding can give.

## Theorems

* `ofMembers?_eq_none_iff`: An object is plain exactly when its keys are not
  those of a wrapper.
* `keys_ofMembers`, `keys_membersToJson`: Neither direction touches keys.
* `canonical_of_literal`: What a wrapper stands for is canonical.
* `canonical_of_ofJson`: Decoding gives canonical values.
* `ofJson_toJson`: A canonical value is decoded from its encoding.
* `decode_toJson`: Decoding undoes encoding on what was decoded.
-/

namespace Fieldwork

namespace WrapperShape

/-- Keys that make an object a wrapper: one reserved key, or the two of the
    older form of binary data. -/
def Shaped (keys : List String) : Prop :=
  (∃ wrapper : Wrapper, keys = [wrapper.key]) ∨ keys = [Wrapper.binary.key, typeKey] ∨
    keys = [typeKey, Wrapper.binary.key]

instance (keys : List String) : Decidable (Shaped keys) :=
  decidable_of_iff
    ((∃ wrapper ∈ [Wrapper.date, .objectId, .uuid, .long, .binary], keys = [wrapper.key]) ∨
      keys = [Wrapper.binary.key, typeKey] ∨
        keys = [typeKey, Wrapper.binary.key]) <| by
    refine or_congr ⟨fun ⟨wrapper, _, h⟩ => ⟨wrapper, h⟩, fun ⟨wrapper, h⟩ => ⟨wrapper, ?_, h⟩⟩ .rfl
    cases wrapper <;> decide

/-- A key has a wrapper exactly when it is reserved for it. -/
theorem ofKey?_eq_none_iff (key : String) :
    Wrapper.ofKey? key = none ↔ ∀ wrapper : Wrapper, wrapper.key ≠ key := by
  constructor
  · intro h wrapper e
    rw [← e, Wrapper.ofKey?_key] at h
    cases h
  · intro h
    rw [Wrapper.ofKey?, List.find?_eq_none]
    intro wrapper _
    simp [h wrapper]

/-- An object is plain exactly when its keys are not those of a wrapper. -/
theorem ofMembers?_eq_none_iff (members : List (String × Json)) :
    ofMembers? members = none ↔ ¬ Shaped (Ordered.keys members) := by
  match members with
  | [] => simp [ofMembers?, Shaped, Ordered.keys]
  | [(key, payload)] =>
    simp only [ofMembers?, Option.map_eq_none_iff, ofKey?_eq_none_iff, Shaped, Ordered.keys,
      List.map_cons, List.map_nil, List.cons.injEq, and_true, not_or, not_exists, reduceCtorEq,
      and_false, not_false_eq_true]
    exact forall_congr' fun wrapper => ne_comm
  | [(key, value), (key', value')] =>
    simp only [ofMembers?, Shaped, Ordered.keys, List.map_cons, List.map_nil, List.cons.injEq,
      reduceCtorEq, and_false, and_true, exists_false, false_or]
    split
    · rename_i h
      simp [h]
    · rename_i h
      split
      · rename_i h'
        simp [h']
      · rename_i h'
        exact iff_of_true rfl (not_or.2 ⟨h, h'⟩)
  | _ :: _ :: _ :: _ => simp [ofMembers?, Shaped, Ordered.keys]

end WrapperShape

namespace Extended

mutual

/-- What decoding can give: no object has the keys of a wrapper, and every
    moment is one that a text or a count of milliseconds stands for. -/
def Canonical : Extended → Prop
  | array items => CanonicalItems items
  | object members => ¬ WrapperShape.Shaped (Ordered.keys members) ∧ CanonicalMembers members
  | date m => m.Known
  | _ => True

/-- Every value of a list is canonical. -/
def CanonicalItems : List Extended → Prop
  | [] => True
  | item :: rest => item.Canonical ∧ CanonicalItems rest

/-- Every value of a list of members is canonical. -/
def CanonicalMembers : List (String × Extended) → Prop
  | [] => True
  | (_, value) :: rest => value.Canonical ∧ CanonicalMembers rest

end

/-- A list is decoded item by item. -/
theorem ofItems_cons_eq_ok {item : Json} {rest : List Json} {values : List Extended}
    (h : ofItems (item :: rest) = .ok values) :
    ∃ value others, ofJson item = .ok value ∧ ofItems rest = .ok others ∧
      values = value :: others := by
  rw [ofItems] at h
  split at h
  · cases h
  · rename_i value hvalue
    split at h
    · cases h
    · rename_i others hothers
      cases h
      exact ⟨value, others, hvalue, hothers, rfl⟩

/-- A list of members is decoded member by member. -/
theorem ofMembers_cons_eq_ok {key : String} {item : Json} {rest : List (String × Json)}
    {values : List (String × Extended)} (h : ofMembers ((key, item) :: rest) = .ok values) :
    ∃ value others, ofJson item = .ok value ∧ ofMembers rest = .ok others ∧
      values = (key, value) :: others := by
  rw [ofMembers] at h
  split at h
  · cases h
  · rename_i value hvalue
    split at h
    · cases h
    · rename_i others hothers
      cases h
      exact ⟨value, others, hvalue, hothers, rfl⟩

/-- Decoding keeps the keys of an object and their order. -/
theorem keys_ofMembers {members : List (String × Json)} {values : List (String × Extended)}
    (h : ofMembers members = .ok values) : Ordered.keys values = Ordered.keys members := by
  induction members generalizing values with
  | nil =>
    cases h
    rfl
  | cons member rest ih =>
    rcases ofMembers_cons_eq_ok h with ⟨value, others, -, hothers, rfl⟩
    simp only [Ordered.keys, List.map_cons, List.cons.injEq, true_and]
    exact ih hothers

/-- Encoding keeps the keys of an object and their order. -/
theorem keys_membersToJson (members : List (String × Extended)) :
    Ordered.keys (membersToJson members) = Ordered.keys members := by
  induction members with
  | nil => rfl
  | cons member rest ih =>
    rcases member with ⟨key, value⟩
    simp only [membersToJson, Ordered.keys, List.map_cons, List.cons.injEq, true_and]
    exact ih

/-- A moment that a payload stands for is known. -/
theorem known_of_dateOf {payload : Json} {m : Moment} (h : dateOf payload = .ok m) : m.Known := by
  -- A number and a wrapped number are both counts.
  have ofMillis {millis : Int64} (h : dateOfMillis millis = .ok m) : m.Known := by
    unfold dateOfMillis at h
    split at h
    · rename_i hm
      cases h
      exact .ofMillis hm
    · cases h
  unfold dateOf at h
  split at h
  · split at h
    · rename_i hm
      cases h
      exact .ofText hm
    · cases h
  · split at h
    · exact ofMillis h
    · cases h
  · split at h
    · unfold longOf at h
      split at h
      · exact ofMillis h
      · cases h
    · cases h
  · cases h

/-- An object is a wrapper with its literal, or is decoded member by member. -/
theorem ofJson_object_eq_ok {members : List (String × Json)} {v : Extended}
    (h : ofJson (.object members) = .ok v) :
    (∃ shape, WrapperShape.ofMembers? members = some shape ∧ shape.literal = .ok v) ∨
      ∃ values, WrapperShape.ofMembers? members = none ∧ ofMembers members = .ok values ∧
        v = object values := by
  rw [ofJson] at h
  split at h
  · rename_i shape hshape
    exact Or.inl ⟨shape, hshape, h⟩
  · rename_i hplain
    rcases Fallible.map_eq_ok_iff.1 h with ⟨values, hvalues, rfl⟩
    exact Or.inr ⟨values, hplain, hvalues, rfl⟩

/-- What a wrapper stands for is canonical. Only a moment could be otherwise;
    the other literals have no parts that a wrapper could hide in. -/
theorem canonical_of_literal {shape : WrapperShape} {v : Extended} (h : shape.literal = .ok v) :
    v.Canonical := by
  cases shape with
  | single wrapper payload =>
    cases wrapper with
    | date =>
      rcases Fallible.map_eq_ok_iff.1 h with ⟨m, hm, rfl⟩
      exact known_of_dateOf hm
    | objectId =>
      rcases Fallible.map_eq_ok_iff.1 h with ⟨oid, -, rfl⟩
      trivial
    | uuid =>
      rcases Fallible.map_eq_ok_iff.1 h with ⟨data, -, rfl⟩
      trivial
    | long =>
      rcases Fallible.map_eq_ok_iff.1 h with ⟨n, -, rfl⟩
      trivial
    | binary =>
      rcases Fallible.map_eq_ok_iff.1 h with ⟨data, -, rfl⟩
      trivial
  | typedBinary payload subtype =>
    rcases Fallible.map_eq_ok_iff.1 h with ⟨data, -, rfl⟩
    trivial

mutual

/-- Decoding gives canonical values. -/
theorem canonical_of_ofJson {j : Json} {v : Extended} (h : ofJson j = .ok v) : v.Canonical := by
  cases j with
  | array items =>
    rw [ofJson] at h
    rcases Fallible.map_eq_ok_iff.1 h with ⟨values, hvalues, rfl⟩
    exact canonicalItems_of_ofItems hvalues
  | object members =>
    rcases ofJson_object_eq_ok h with ⟨shape, -, hshape⟩ | ⟨values, hplain, hvalues, rfl⟩
    · exact canonical_of_literal hshape
    · refine ⟨?_, canonicalMembers_of_ofMembers hvalues⟩
      -- The object was no wrapper, and decoding has kept its keys.
      rw [keys_ofMembers hvalues]
      exact (WrapperShape.ofMembers?_eq_none_iff members).1 hplain
  | null =>
    cases h
    trivial
  | bool value =>
    cases h
    trivial
  | number value =>
    cases h
    trivial
  | string value =>
    cases h
    trivial

theorem canonicalItems_of_ofItems {items : List Json} {values : List Extended}
    (h : ofItems items = .ok values) : CanonicalItems values := by
  cases items with
  | nil =>
    cases h
    trivial
  | cons item rest =>
    rcases ofItems_cons_eq_ok h with ⟨value, others, hvalue, hothers, rfl⟩
    exact ⟨canonical_of_ofJson hvalue, canonicalItems_of_ofItems hothers⟩

theorem canonicalMembers_of_ofMembers {members : List (String × Json)}
    {values : List (String × Extended)} (h : ofMembers members = .ok values) :
    CanonicalMembers values := by
  cases members with
  | nil =>
    cases h
    trivial
  | cons member rest =>
    rcases ofMembers_cons_eq_ok h with ⟨value, others, hvalue, hothers, rfl⟩
    exact ⟨canonical_of_ofJson hvalue, canonicalMembers_of_ofMembers hothers⟩

end

theorem int64?_ofInt (n : Int64) : Numeral.int64? (Numeral.ofInt n.toInt) = some n := by
  rw [Numeral.int64?, Numeral.signed?_ofInt]
  simp only [Option.bind_eq_bind, Option.bind_some]
  rw [if_pos ⟨n.minValue_le_toInt, n.toInt_le⟩, Int64.ofInt_toInt]

/-- A written numeral is the integer that it was written from. -/
theorem longOf_ofInt (within : Wrapper) (n : Int64) :
    longOf within (.string (String.ofList (Numeral.ofInt n.toInt))) = .ok n := by
  simp only [longOf, Json.string?, Option.bind_some, String.toList_ofList, int64?_ofInt]

theorem dateOfMillis_eq_ok {millis : Int64} {m : Moment}
    (h : Moment.ofUnixMillis? millis.toInt = some m) : dateOfMillis millis = .ok m := by
  unfold dateOfMillis
  -- The calendar must not be computed with, so its answer gets a name first.
  generalize Moment.ofUnixMillis? millis.toInt = answer at h ⊢
  subst h
  rfl

/-- The payload of a known moment reads back, in whichever form its year
    has. -/
theorem dateOf_dateJson {m : Moment} (h : m.Known) : dateOf (dateJson m) = .ok m := by
  unfold dateJson
  split
  · rename_i text htext
    -- A year of four digits has a text, and that is read back.
    have hread := Moment.ofText?_text? h.onClock htext
    simp only [dateOf, String.toList_ofList, hread]
  · -- There is no text of the year, so the moment came from a count.
    rename_i htext
    rcases h.exists_millis_of_text?_eq_none htext with ⟨millis, hm, hmillis⟩
    simp only [longJson, Wrapper.wrap, dateOf, if_true, hmillis, longOf_ofInt]
    exact dateOfMillis_eq_ok hm

theorem binaryOf_binaryJson (data : Binary) : binaryOf (binaryJson data) = .ok data := by
  simp [binaryJson, binaryOf, List.lookup_cons, Json.string?, binaryOfParts, Hex.byte?_pair,
    Base64.decode?_encode]

mutual

/-- A canonical value is decoded from its encoding. -/
theorem ofJson_toJson {v : Extended} (h : v.Canonical) : ofJson v.toJson = .ok v := by
  cases v with
  | array items =>
    rw [toJson, ofJson, ofItems_itemsToJson h]
    rfl
  | object members =>
    rcases h with ⟨hplain, hmembers⟩
    -- The keys are not those of a wrapper, and encoding has kept them.
    have hnone : WrapperShape.ofMembers? (membersToJson members) = none := by
      rw [WrapperShape.ofMembers?_eq_none_iff, keys_membersToJson]
      exact hplain
    rw [toJson, ofJson, hnone, ofMembers_membersToJson hmembers]
    rfl
  | date m =>
    rw [toJson, Wrapper.wrap, ofJson, WrapperShape.ofMembers?_wrapper]
    simp only [WrapperShape.literal, dateOf_dateJson h]
    rfl
  | objectId oid =>
    rw [toJson, Wrapper.wrap, ofJson, WrapperShape.ofMembers?_wrapper]
    simp only [WrapperShape.literal, objectIdOf, Json.string?, objectIdOfText, ObjectId.text,
      String.toList_ofList, Hex.decode?_encode, ObjectId.ofBytes?, oid.length_eq, dif_pos]
    rfl
  | binary data =>
    rw [toJson, Wrapper.wrap, ofJson, WrapperShape.ofMembers?_wrapper]
    simp only [WrapperShape.literal, binaryOf_binaryJson]
    rfl
  | long n =>
    rw [toJson, longJson, Wrapper.wrap, ofJson, WrapperShape.ofMembers?_wrapper]
    simp only [WrapperShape.literal, longOf_ofInt]
    rfl
  | null => rfl
  | bool value => rfl
  | number value => rfl
  | string value => rfl

theorem ofItems_itemsToJson {items : List Extended} (h : CanonicalItems items) :
    ofItems (itemsToJson items) = .ok items := by
  cases items with
  | nil => rfl
  | cons item rest =>
    rw [itemsToJson, ofItems, ofJson_toJson h.1, ofItems_itemsToJson h.2]

theorem ofMembers_membersToJson {members : List (String × Extended)}
    (h : CanonicalMembers members) : ofMembers (membersToJson members) = .ok members := by
  cases members with
  | nil => rfl
  | cons member rest =>
    rcases member with ⟨key, value⟩
    rw [membersToJson, ofMembers, ofJson_toJson h.1, ofMembers_membersToJson h.2]

end

/-- Decoding undoes encoding: whatever a value was decoded to is decoded again
    from its canonical form, with the same keys in the same order and the same
    literals, moments with their offsets included. -/
theorem decode_toJson (j : Json) (v : Extended) (h : decode j = .ok v) :
    decode v.toJson = .ok v := by
  unfold decode at h ⊢
  -- What was decoded is canonical, so it comes back from what it is written as.
  cases hj : ofJson j with
  | error e =>
    rw [hj] at h
    cases h
  | ok w =>
    rw [hj] at h
    cases h
    rw [ofJson_toJson (canonical_of_ofJson hj)]
    rfl

/-- A leap second on a clock half an hour behind UTC, a moment before the year
    zero that has no text, and binary data in its older form. -/
theorem decode_toJson_literals :
    decode (.object [("at", .object [("$date", .string "2016-12-31T23:29:60-00:30")]),
        ("since", .array [.object [("$date",
          .object [("$numberLong", .string "-99999999999999")])]]),
        ("bytes", .object [("$type", .string "4"), ("$binary", .string "AQI=")])]) =
      .ok (.object [("at", .date ⟨⟨2016, 12, 31⟩, 23, 29, 59, 999999999, -30⟩),
        ("since", .array [.date ⟨⟨-1199, 2, 15⟩, 14, 13, 20, 1000000, 0⟩]),
        ("bytes", .binary ⟨4, [1, 2]⟩)]) ∧
    decode (toJson (.object [("at", .date ⟨⟨2016, 12, 31⟩, 23, 29, 59, 999999999, -30⟩),
        ("since", .array [.date ⟨⟨-1199, 2, 15⟩, 14, 13, 20, 1000000, 0⟩]),
        ("bytes", .binary ⟨4, [1, 2]⟩)])) =
      .ok (.object [("at", .date ⟨⟨2016, 12, 31⟩, 23, 29, 59, 999999999, -30⟩),
        ("since", .array [.date ⟨⟨-1199, 2, 15⟩, 14, 13, 20, 1000000, 0⟩]),
        ("bytes", .binary ⟨4, [1, 2]⟩)]) :=
  have both {j : Json} {v : Extended} (h : decode j = .ok v) :
      decode j = .ok v ∧ decode v.toJson = .ok v := ⟨h, decode_toJson j v h⟩
  both rfl

end Extended

end Fieldwork
