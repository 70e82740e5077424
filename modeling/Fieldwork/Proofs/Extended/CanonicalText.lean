import Fieldwork.Proofs.Extended.RoundTrip
import Fieldwork.Proofs.Extended.WellWrapped
import Fieldwork.Proofs.Json.RoundTrip

/-!
# Canonical Texts

When the canonical text of a value is read again.

A value is read from a text, and it has a canonical text of its own. The two
need not be equal, and they need not nest alike. Binary data has a form that
nests once and is written in one that nests twice; the same goes for a moment
whose year has no text. All other literals are written within one object, as
they were read. So the canonical text may nest one level deeper than the text
that the value came from, and never more than one.

One level counts where a reader has a limit. A text at the limit can hold
binary data in the flatter form, and then the canonical text is beyond it and
is refused. That is the only way in which a canonical text is not read again.
Up to the limit decoding undoes the encoding of the value, and it undoes that
of its JSON but for the plain numbers, which are read as `Json.reread` says.
No literal is touched by that, because a literal writes its numbers as texts.

## Main definitions

* `Extended.Deepens`: A value with a literal that may be written deeper than
  it was read.
* `Extended.reread`: A value with its plain numbers read back.

## Theorems

* `shape_of_literal`: What the literal of a wrapper is written as.
* `distinctKeys_toJson`: The canonical form has each key once.
* `depth_toJson`: The canonical form is at most one level deeper.
* `toJson_reread`, `canonical_reread`: Reading numbers back keeps the form.
* `parse_canonicalText`: A canonical text is read as its value, unless it
  nests too deep.
* `parse_canonicalText_deepestUuid`: One that does.
-/

namespace Fieldwork

namespace Extended

mutual

/-- A value with a literal that may be written deeper than it was read: binary
    data, or a moment without a text. -/
def Deepens : Extended → Prop
  | array items => DeepensItems items
  | object members => DeepensMembers members
  | date m => m.text? = none
  | binary _ => True
  | _ => False

/-- Some value of a list deepens. -/
def DeepensItems : List Extended → Prop
  | [] => False
  | item :: rest => item.Deepens ∨ DeepensItems rest

/-- Some value of a list of members deepens. -/
def DeepensMembers : List (String × Extended) → Prop
  | [] => False
  | (_, value) :: rest => value.Deepens ∨ DeepensMembers rest

end

section Literals

theorem depth_wrap (wrapper : Wrapper) (payload : Json) :
    (wrapper.wrap payload).depth = payload.depth + 1 := by
  rw [Wrapper.wrap, Json.depth, Json.depthOfMembers, Json.depthOfMembers, Nat.max_zero]

theorem distinctKeys_wrap (wrapper : Wrapper) {payload : Json} (h : payload.DistinctKeys) :
    (wrapper.wrap payload).DistinctKeys :=
  ⟨List.nodup_singleton wrapper.key, h, trivial⟩

/-- The payload of a moment is a text, or a numeral within one object. -/
theorem fits_dateJson (m : Moment) :
    (dateJson m).DistinctKeys ∧
      ((dateJson m).depth = 0 ∨ m.text? = none ∧ (dateJson m).depth = 1) := by
  unfold dateJson
  split
  · exact ⟨trivial, Or.inl rfl⟩
  · rename_i htext
    exact ⟨distinctKeys_wrap .long trivial, Or.inr ⟨htext, rfl⟩⟩

/-- What the literal of a wrapper is written as: one object, or two if it is of
    those that deepen. -/
theorem shape_of_literal {shape : WrapperShape} {v : Extended} (h : shape.literal = .ok v) :
    v.toJson.DistinctKeys ∧ (v.toJson.depth ≤ 1 ∨ v.Deepens ∧ v.toJson.depth ≤ 2) := by
  -- Binary data is written as an object in an object, whichever wrapper it came
  -- from.
  have hbinary (data : Binary) : (binary data).toJson.DistinctKeys ∧
      ((binary data).toJson.depth ≤ 1 ∨
        (binary data).Deepens ∧ (binary data).toJson.depth ≤ 2) := by
    have hkeys : ["base64", "subType"].Nodup := by decide
    have hpayload : (binaryJson data).DistinctKeys := ⟨hkeys, trivial, trivial, trivial⟩
    rw [toJson, depth_wrap]
    exact ⟨distinctKeys_wrap .binary hpayload, Or.inr ⟨trivial, Nat.le_refl 2⟩⟩
  cases shape with
  | typedBinary payload subtype =>
    rcases Fallible.map_eq_ok_iff.1 h with ⟨data, -, rfl⟩
    exact hbinary data
  | single wrapper payload =>
    cases wrapper with
    | uuid =>
      rcases Fallible.map_eq_ok_iff.1 h with ⟨data, -, rfl⟩
      exact hbinary data
    | binary =>
      rcases Fallible.map_eq_ok_iff.1 h with ⟨data, -, rfl⟩
      exact hbinary data
    | objectId =>
      rcases Fallible.map_eq_ok_iff.1 h with ⟨oid, -, rfl⟩
      rw [toJson, depth_wrap]
      exact ⟨distinctKeys_wrap .objectId trivial, Or.inl (Nat.le_refl 1)⟩
    | long =>
      rcases Fallible.map_eq_ok_iff.1 h with ⟨n, -, rfl⟩
      rw [toJson, longJson, depth_wrap]
      exact ⟨distinctKeys_wrap .long trivial, Or.inl (Nat.le_refl 1)⟩
    | date =>
      rcases Fallible.map_eq_ok_iff.1 h with ⟨m, -, rfl⟩
      rcases fits_dateJson m with ⟨hkeys, hdepth⟩
      rw [toJson, depth_wrap]
      refine ⟨distinctKeys_wrap .date hkeys, hdepth.imp (fun h => ?_) fun h => ⟨h.1, ?_⟩⟩
      · omega
      · omega

end Literals

mutual

/-- The canonical form has each key once, if what it came from has. -/
theorem distinctKeys_toJson {j : Json} {v : Extended} (h : ofJson j = .ok v)
    (hj : j.DistinctKeys) : v.toJson.DistinctKeys := by
  cases j with
  | array items =>
    rw [ofJson] at h
    rcases Fallible.map_eq_ok_iff.1 h with ⟨values, hvalues, rfl⟩
    rw [toJson_array]
    exact distinctKeys_itemsToJson hvalues hj
  | object members =>
    rcases ofJson_object_eq_ok h with ⟨shape, -, hshape⟩ | ⟨values, -, hvalues, rfl⟩
    · exact (shape_of_literal hshape).1
    · rw [toJson_object]
      refine ⟨?_, distinctKeys_membersToJson hvalues hj.2⟩
      -- Neither direction has touched the keys.
      rw [Ordered.Distinct, keys_membersToJson, keys_ofMembers hvalues]
      exact hj.1
  | null | bool _ | number _ | string _ =>
    cases h
    trivial

theorem distinctKeys_itemsToJson {items : List Json} {values : List Extended}
    (h : ofItems items = .ok values) (hitems : Json.DistinctKeysInItems items) :
    Json.DistinctKeysInItems (itemsToJson values) := by
  cases items with
  | nil =>
    cases h
    trivial
  | cons item rest =>
    rcases ofItems_cons_eq_ok h with ⟨value, others, hvalue, hothers, rfl⟩
    exact ⟨distinctKeys_toJson hvalue hitems.1, distinctKeys_itemsToJson hothers hitems.2⟩

theorem distinctKeys_membersToJson {members : List (String × Json)}
    {values : List (String × Extended)} (h : ofMembers members = .ok values)
    (hmembers : Json.DistinctKeysInMembers members) :
    Json.DistinctKeysInMembers (membersToJson values) := by
  cases members with
  | nil =>
    cases h
    trivial
  | cons member rest =>
    rcases ofMembers_cons_eq_ok h with ⟨value, others, hvalue, hothers, rfl⟩
    exact ⟨distinctKeys_toJson hvalue hmembers.1, distinctKeys_membersToJson hothers hmembers.2⟩

end

mutual

/-- The canonical form nests as deep as what it came from, or one level deeper
    if there is a literal that deepens. -/
theorem depth_toJson {j : Json} {v : Extended} (h : ofJson j = .ok v) :
    v.toJson.depth ≤ j.depth ∨ v.Deepens ∧ v.toJson.depth ≤ j.depth + 1 := by
  cases j with
  | array items =>
    rw [ofJson] at h
    rcases Fallible.map_eq_ok_iff.1 h with ⟨values, hvalues, rfl⟩
    rw [toJson_array, Json.depth, Json.depth]
    exact (depth_itemsToJson hvalues).imp Nat.succ_le_succ (And.imp_right Nat.succ_le_succ)
  | object members =>
    rcases ofJson_object_eq_ok h with ⟨shape, -, hshape⟩ | ⟨values, -, hvalues, rfl⟩
    · -- The wrapper itself is an object, so there was one level already.
      have hdepth : 0 < (Json.object members).depth := Nat.succ_pos _
      refine (shape_of_literal hshape).2.imp (fun h => ?_) fun h => ⟨h.1, ?_⟩
      · omega
      · omega
    · rw [toJson_object, Json.depth, Json.depth]
      exact (depth_membersToJson hvalues).imp Nat.succ_le_succ (And.imp_right Nat.succ_le_succ)
  | null | bool _ | number _ | string _ =>
    cases h
    exact Or.inl (Nat.le_refl 0)

theorem depth_itemsToJson {items : List Json} {values : List Extended}
    (h : ofItems items = .ok values) :
    Json.depthOfItems (itemsToJson values) ≤ Json.depthOfItems items ∨
      DeepensItems values ∧
        Json.depthOfItems (itemsToJson values) ≤ Json.depthOfItems items + 1 := by
  cases items with
  | nil =>
    cases h
    exact Or.inl (Nat.le_refl 0)
  | cons item rest =>
    rcases ofItems_cons_eq_ok h with ⟨value, others, hvalue, hothers, rfl⟩
    rw [itemsToJson, Json.depthOfItems, Json.depthOfItems, DeepensItems]
    -- If neither part has grown the whole has not.
    rcases depth_toJson hvalue with hfirst | ⟨hdeepens, hfirst⟩
    · rcases depth_itemsToJson hothers with hrest | ⟨hdeepens, hrest⟩
      · exact Or.inl (by omega)
      · exact Or.inr ⟨Or.inr hdeepens, by omega⟩
    · rcases depth_itemsToJson hothers with hrest | ⟨-, hrest⟩
      · exact Or.inr ⟨Or.inl hdeepens, by omega⟩
      · exact Or.inr ⟨Or.inl hdeepens, by omega⟩

theorem depth_membersToJson {members : List (String × Json)} {values : List (String × Extended)}
    (h : ofMembers members = .ok values) :
    Json.depthOfMembers (membersToJson values) ≤ Json.depthOfMembers members ∨
      DeepensMembers values ∧
        Json.depthOfMembers (membersToJson values) ≤ Json.depthOfMembers members + 1 := by
  cases members with
  | nil =>
    cases h
    exact Or.inl (Nat.le_refl 0)
  | cons member rest =>
    rcases ofMembers_cons_eq_ok h with ⟨value, others, hvalue, hothers, rfl⟩
    rw [membersToJson, Json.depthOfMembers, Json.depthOfMembers, DeepensMembers]
    rcases depth_toJson hvalue with hfirst | ⟨hdeepens, hfirst⟩
    · rcases depth_membersToJson hothers with hrest | ⟨hdeepens, hrest⟩
      · exact Or.inl (by omega)
      · exact Or.inr ⟨Or.inr hdeepens, by omega⟩
    · rcases depth_membersToJson hothers with hrest | ⟨-, hrest⟩
      · exact Or.inr ⟨Or.inl hdeepens, by omega⟩
      · exact Or.inr ⟨Or.inl hdeepens, by omega⟩

end

mutual

/-- A value with its plain numbers as their texts are read. -/
def reread : Extended → Extended
  | number value => number value.reread
  | array items => array (rereadItems items)
  | object members => object (rereadMembers members)
  | value => value

/-- The values of a list with their plain numbers as their texts are read. -/
def rereadItems : List Extended → List Extended
  | [] => []
  | item :: rest => item.reread :: rereadItems rest

/-- The values of a list of members with their plain numbers as their texts are
    read. -/
def rereadMembers : List (String × Extended) → List (String × Extended)
  | [] => []
  | (key, value) :: rest => (key, value.reread) :: rereadMembers rest

end

section Reading

theorem reread_wrap (wrapper : Wrapper) (payload : Json) :
    (wrapper.wrap payload).reread = wrapper.wrap payload.reread := rfl

/-- A moment is written without a number. -/
theorem reread_dateJson (m : Moment) : (dateJson m).reread = dateJson m := by
  unfold dateJson
  split <;> rfl

mutual

/-- Only plain numbers are written as numbers. -/
theorem toJson_reread (v : Extended) : v.reread.toJson = v.toJson.reread := by
  match v with
  | null | bool _ | number _ | string _ => rfl
  | array items => rw [reread, toJson, toJson, Json.reread, itemsToJson_reread items]
  | object members => rw [reread, toJson, toJson, Json.reread, membersToJson_reread members]
  | date m =>
    show (Extended.date m).toJson = _
    rw [toJson, reread_wrap, reread_dateJson]
  | objectId _ | binary _ | long _ => rfl

theorem itemsToJson_reread (items : List Extended) :
    itemsToJson (rereadItems items) = Json.rereadItems (itemsToJson items) := by
  match items with
  | [] => rfl
  | item :: rest =>
    rw [rereadItems, itemsToJson, itemsToJson, Json.rereadItems, toJson_reread item,
      itemsToJson_reread rest]

theorem membersToJson_reread (members : List (String × Extended)) :
    membersToJson (rereadMembers members) = Json.rereadMembers (membersToJson members) := by
  match members with
  | [] => rfl
  | (key, value) :: rest =>
    rw [rereadMembers, membersToJson, membersToJson, Json.rereadMembers, toJson_reread value,
      membersToJson_reread rest]

end

theorem keys_rereadMembers (members : List (String × Extended)) :
    Ordered.keys (rereadMembers members) = Ordered.keys members := by
  induction members with
  | nil => rfl
  | cons entry rest ih => rw [rereadMembers, Ordered.keys_cons, Ordered.keys_cons, ih]

mutual

/-- Reading numbers back makes no wrapper of an object. -/
theorem canonical_reread {v : Extended} (h : v.Canonical) : v.reread.Canonical := by
  match v with
  | null | bool _ | number _ | string _ | objectId _ | binary _ | long _ => exact trivial
  | date m => exact h
  | array items => exact canonicalItems_reread h
  | object members =>
    refine ⟨?_, canonicalMembers_reread h.2⟩
    rw [keys_rereadMembers]
    exact h.1

theorem canonicalItems_reread {items : List Extended} (h : CanonicalItems items) :
    CanonicalItems (rereadItems items) := by
  match items with
  | [] => exact trivial
  | item :: rest => exact ⟨canonical_reread h.1, canonicalItems_reread h.2⟩

theorem canonicalMembers_reread {members : List (String × Extended)}
    (h : CanonicalMembers members) : CanonicalMembers (rereadMembers members) := by
  match members with
  | [] => exact trivial
  | (key, value) :: rest => exact ⟨canonical_reread h.1, canonicalMembers_reread h.2⟩

end

/-- The text of a value within the limit is read as what the value is read as. -/
theorem parse_compact {j : Json} {v : Extended} (h : ofJson j.reread = .ok v)
    (hj : j.Fits Json.depthLimit) : parse j.compact = .ok v := by
  rw [parse, Json.parse?_compact hj.distinct hj.depth_le]
  exact decode_eq_ok_iff.2 h

/-- A canonical text is read as its value, or refused for its depth. -/
theorem parse_compact_toJson {j : Json} {v : Extended} (h : ofJson j = .ok v)
    (hj : j.DistinctKeys) :
    parse v.toJson.compact =
      if v.toJson.depth ≤ Json.depthLimit then .ok v.reread else .error .malformed := by
  split
  · rename_i hdepth
    refine parse_compact ?_ ⟨distinctKeys_toJson h hj, hdepth⟩
    rw [← toJson_reread]
    exact ofJson_toJson (canonical_reread (canonical_of_ofJson h))
  · rename_i hdepth
    rw [parse, Json.parse?_compact_eq_none hdepth]

/-- A value is read back if its canonical form is. -/
theorem reread_eq_self {v : Extended} (h : v.Canonical) (hjson : v.toJson.reread = v.toJson) :
    v.reread = v := by
  have hread := ofJson_toJson (canonical_reread h)
  rw [toJson_reread, hjson, ofJson_toJson h] at hread
  exact (Except.ok.inj hread).symm

end Reading

/-- A value within so many arrays. -/
def nested : Nat → Extended → Extended
  | 0, core => core
  | count + 1, core => array [nested count core]

theorem ofJson_nested {core : Json} {v : Extended} (h : ofJson core = .ok v) (count : Nat) :
    ofJson (core.nested count) = .ok (v.nested count) := by
  induction count with
  | zero => exact h
  | succ count ih =>
    rw [Json.nested, ofJson, ofItems, ih]
    rfl

theorem toJson_nested (count : Nat) (v : Extended) :
    (v.nested count).toJson = v.toJson.nested count := by
  induction count with
  | zero => rfl
  | succ count ih => rw [nested, toJson_array, itemsToJson, ih, itemsToJson, Json.nested]

theorem reread_nested {core : Json} (h : core.reread = core) (count : Nat) :
    (core.nested count).reread = core.nested count := by
  induction count with
  | zero => exact h
  | succ count ih =>
    rw [Json.nested, Json.reread, Json.rereadItems, ih]
    rfl

theorem parse_nested {core : Json} {v : Extended} (h : ofJson core = .ok v)
    (hcore : core.DistinctKeys) (hread : core.reread = core) {count : Nat}
    (hdepth : count + core.depth ≤ Json.depthLimit) :
    parse (core.nested count).compact = .ok (v.nested count) := by
  refine parse_compact ?_ ⟨Json.distinctKeys_nested hcore count, ?_⟩
  · rw [reread_nested hread]
    exact ofJson_nested h count
  · rwa [Json.depth_nested]

/-- What becomes of the canonical text of a value that was read from a text. It
    is read as the same value exactly when it nests within the limit of
    reading, and is refused as malformed otherwise. The same value here means
    that its plain numbers are what their texts are read as, which makes no
    difference where decoding undoes the encoding of the JSON. The text is
    beyond the limit only by one level, and only if the text before it was at
    the limit itself and held binary data or a moment without a text. -/
theorem parse_canonicalText {text : String} {v : Extended} (h : parse text = .ok v) :
    ∃ j, Json.parse? text = some j ∧
      parse v.toJson.compact =
        (if v.toJson.depth ≤ Json.depthLimit then .ok v.reread else .error .malformed) ∧
      (v.toJson.reread = v.toJson → v.reread = v) ∧
      (v.toJson.depth ≤ Json.depthLimit ∨
        v.Deepens ∧ j.depth = Json.depthLimit ∧ v.toJson.depth = Json.depthLimit + 1) := by
  rw [parse] at h
  rcases hread : Json.parse? text with _ | j
  · rw [hread] at h
    cases h
  · rw [hread] at h
    have hfits := Json.fits_of_parse? hread
    have hlimit := hfits.depth_le
    have hj := decode_eq_ok_iff.1 h
    refine ⟨j, rfl, parse_compact_toJson hj hfits.distinct,
      reread_eq_self (canonical_of_ofJson hj), ?_⟩
    rcases depth_toJson hj with hdepth | ⟨hdeepens, hdepth⟩
    · exact Or.inl (Nat.le_trans hdepth hlimit)
    · by_cases hwithin : v.toJson.depth ≤ Json.depthLimit
      · exact Or.inl hwithin
      · exact Or.inr ⟨hdeepens, by omega, by omega⟩

/-- Binary data in its older form, as deep as it can be written again. -/
theorem parse_canonicalText_olderBinary :
    let text := (Json.nested 125 (.object [("$type", .string "4"), ("$binary", .string "AQI=")]))
      |>.compact
    let v := nested 125 (.binary ⟨4, [1, 2]⟩)
    parse text = .ok v ∧ v.toJson.depth = Json.depthLimit ∧ parse v.toJson.compact = .ok v := by
  intro text v
  have htext : parse text = .ok v := parse_nested rfl (by decide) rfl (by decide)
  have hdepth : v.toJson.depth = Json.depthLimit := by
    rw [toJson_nested, Json.depth_nested]
    rfl
  have hcore : v.toJson.reread = v.toJson := by
    rw [toJson_nested]
    exact reread_nested rfl 125
  rcases parse_canonicalText htext with ⟨j, -, hparse, hsame, -⟩
  rw [if_pos (Nat.le_of_eq hdepth), hsame hcore] at hparse
  exact ⟨htext, hdepth, hparse⟩

/-- A canonical text that is not read: a universally unique identifier as deep
    as it can be read is written one level deeper, as binary data. -/
theorem parse_canonicalText_deepestUuid :
    let text := (Json.nested 126
      (Wrapper.uuid.wrap (.string "00112233-4455-6677-8899-aabbccddeeff"))).compact
    let v := nested 126 (.binary ⟨4, [0x00, 0x11, 0x22, 0x33, 0x44, 0x55, 0x66, 0x77, 0x88, 0x99,
      0xaa, 0xbb, 0xcc, 0xdd, 0xee, 0xff]⟩)
    parse text = .ok v ∧ parse v.toJson.compact = .error .malformed := by
  intro text v
  have hdepth : ¬ v.toJson.depth ≤ Json.depthLimit := by
    rw [toJson_nested, Json.depth_nested]
    decide
  refine ⟨parse_nested rfl (by decide) rfl (by decide), ?_⟩
  rw [parse, Json.parse?_compact_eq_none hdepth]

end Extended

end Fieldwork
