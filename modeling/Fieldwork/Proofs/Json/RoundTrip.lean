import Fieldwork.Json.Text
import Fieldwork.Proofs.Json.Rendered
import Fieldwork.Proofs.Json.Reread

/-!
# Written Values Read Back

The compact text of a value is read as that value, its numbers apart.

The two halves of a reader meet here. The grammar gives back the spelling of
the value, because every spelling the value has is one the grammar takes. The
spelling then stands for the value: scalars one by one, and an object member
by member, where a new key always goes to the end because no key comes twice.

Two things can keep a value from coming back, and both are conditions of the
statement. An object that names a key twice is read with the key in one place,
and a text that nests too deep is refused. A number may come back as another
one, so what is read is `Json.reread`. The text itself loses nothing: it is
the text of no other value (`compact_injective`).

## Theorems

* `isBody_escape`: An escaped text is a string body.
* `wellSpelled_toWritten`: The spelling of a value is one of a text.
* `depth_toWritten`: Spelling a value keeps its depth.
* `toWritten_injective`, `compact_injective`: No other value has the text.
* `json?_toWritten`: What the spelling of a value stands for.
* `read?_compact`: The compact text of a value has its spelling.
* `parse?_compact`: What the compact text of a value is read as.
* `parse?_compact_eq_none`: Nothing, if it nests too deep.
-/

namespace Fieldwork

namespace Written

theorem isEscaped_of_escapeLetter? {c letter : Char} (h : escapeLetter? c = some letter) :
    isEscaped letter = true := by
  unfold escapeLetter? at h
  repeat' split at h
  all_goals
    cases h
    try rfl

theorem isBody_singleton {c : Char} (hquote : c ≠ '"') (hslash : c ≠ '\\')
    (hcontrol : ¬ c.toNat < 0x20) : IsBody [c] := by
  intro stack isKey done
  have hstep : State.step ⟨stack, .string isKey done⟩ c =
      some ⟨stack, .string isKey (c :: done)⟩ := by
    simp only [State.step, hquote, hslash, hcontrol, if_false]
  rw [State.run_cons, hstep]
  rfl

theorem isBody_letter {letter : Char} (h : isEscaped letter = true) : IsBody ['\\', letter] := by
  intro stack isKey done
  have hstep : State.step ⟨stack, .escape isKey done⟩ letter =
      some ⟨stack, .string isKey (letter :: '\\' :: done)⟩ := by
    simp only [State.step, h, if_true]
  simp only [State.run_cons]
  show (State.step ⟨stack, .escape isKey done⟩ letter).bind _ = _
  rw [hstep]
  rfl

theorem isBody_hex {high low : Nat} (hhigh : high < 16) (hlow : low < 16) :
    IsBody ['\\', 'u', '0', '0', Hex.digitOf high, Hex.digitOf low] := by
  intro stack isKey done
  -- The backslash, the letter and the zeros are read by computation. The two
  -- digits are not: which ones they are depends on the character.
  have hfirst : State.step ⟨stack, .hex isKey 1 ('0' :: '0' :: 'u' :: '\\' :: done)⟩
      (Hex.digitOf high) =
        some ⟨stack, .hex isKey 0 (Hex.digitOf high :: '0' :: '0' :: 'u' :: '\\' :: done)⟩ := by
    simp only [State.step, Hex.digit?_digitOf hhigh, Option.isNone_some, Bool.false_eq_true,
      if_false]
  have hsecond : State.step
      ⟨stack, .hex isKey 0 (Hex.digitOf high :: '0' :: '0' :: 'u' :: '\\' :: done)⟩
      (Hex.digitOf low) = some ⟨stack, .string isKey
        (Hex.digitOf low :: Hex.digitOf high :: '0' :: '0' :: 'u' :: '\\' :: done)⟩ := by
    simp only [State.step, Hex.digit?_digitOf hlow, Option.isNone_some, Bool.false_eq_true,
      if_false]
  simp only [State.run_cons]
  show (State.step ⟨stack, .hex isKey 1 ('0' :: '0' :: 'u' :: '\\' :: done)⟩
    (Hex.digitOf high)).bind _ = _
  rw [hfirst, Option.bind_some, hsecond]
  rfl

theorem isBody_escapeChar (c : Char) : IsBody (escapeChar c) := by
  unfold escapeChar
  split
  · rename_i letter hletter
    exact isBody_letter (isEscaped_of_escapeLetter? hletter)
  · rename_i hletter
    split
    · exact isBody_hex (by omega) (by omega)
    · -- A quote or a backslash would have had a letter.
      rename_i hcontrol
      refine isBody_singleton ?_ ?_ hcontrol
      · rintro rfl
        cases hletter
      · rintro rfl
        cases hletter

/-- An escaped text is a string body. -/
theorem isBody_escape (cs : List Char) : IsBody (escape cs) := by
  induction cs with
  | nil => exact isBody_nil
  | cons c rest ih =>
    rw [escape, List.flatMap_cons]
    exact (isBody_escapeChar c).append ih

theorem unquote?_escape (text : String) :
    unquote? (String.ofList (escape text.toList)) = some text := by
  rw [unquote?, String.toList_ofList, unescape?_escape, Option.map_some, String.ofList_toList]

end Written

namespace Json

mutual

/-- The spelling of a value is one of a text. -/
theorem wellSpelled_toWritten (value : Json) : value.toWritten.WellSpelled := by
  match value with
  | null | bool _ =>
    -- The last clause of `WellSpelled` is about what no other clause is about.
    rw [toWritten, Written.WellSpelled]
    · trivial
    all_goals rintro _ ⟨⟩
  | number value =>
    rcases Number.exists_token_text value with ⟨token, htoken, -⟩
    rw [toWritten, Written.WellSpelled, String.toList_ofList, htoken]
    rfl
  | string value =>
    rw [toWritten, Written.WellSpelled, String.toList_ofList]
    exact Written.isBody_escape value.toList
  | array items =>
    rw [toWritten, Written.WellSpelled]
    exact wellSpelled_toWrittenItems items
  | object members =>
    rw [toWritten, Written.WellSpelled]
    exact wellSpelled_toWrittenMembers members

theorem wellSpelled_toWrittenItems (items : List Json) :
    Written.WellSpelledItems (toWrittenItems items) := by
  match items with
  | [] =>
    rw [toWrittenItems, Written.WellSpelledItems]
    trivial
  | item :: rest =>
    rw [toWrittenItems, Written.WellSpelledItems]
    exact ⟨wellSpelled_toWritten item, wellSpelled_toWrittenItems rest⟩

theorem wellSpelled_toWrittenMembers (members : List (String × Json)) :
    Written.WellSpelledMembers (toWrittenMembers members) := by
  match members with
  | [] =>
    rw [toWrittenMembers, Written.WellSpelledMembers]
    trivial
  | (key, value) :: rest =>
    rw [toWrittenMembers, Written.WellSpelledMembers, String.toList_ofList]
    exact ⟨Written.isBody_escape key.toList, wellSpelled_toWritten value,
      wellSpelled_toWrittenMembers rest⟩

end

mutual

/-- Spelling a value keeps its depth. -/
theorem depth_toWritten (value : Json) : value.toWritten.depth = value.depth := by
  match value with
  | null | bool _ | number _ | string _ => rfl
  | array items => rw [toWritten, Written.depth, depthOfItems_toWritten items, depth]
  | object members => rw [toWritten, Written.depth, depthOfMembers_toWritten members, depth]

theorem depthOfItems_toWritten (items : List Json) :
    Written.depthOfItems (toWrittenItems items) = depthOfItems items := by
  match items with
  | [] => rfl
  | item :: rest =>
    rw [toWrittenItems, Written.depthOfItems, depth_toWritten item, depthOfItems_toWritten rest,
      depthOfItems]

theorem depthOfMembers_toWritten (members : List (String × Json)) :
    Written.depthOfMembers (toWrittenMembers members) = depthOfMembers members := by
  match members with
  | [] => rfl
  | (key, value) :: rest =>
    rw [toWrittenMembers, Written.depthOfMembers, depth_toWritten value,
      depthOfMembers_toWritten rest, depthOfMembers]

end

theorem ofList_escape_injective {text other : String}
    (h : String.ofList (Written.escape text.toList) = String.ofList (Written.escape other.toList)) :
    text = other := by
  have htext := Written.unquote?_escape text
  rw [h, Written.unquote?_escape] at htext
  exact (Option.some.inj htext).symm

mutual

/-- No other value has the spelling of a value. -/
theorem toWritten_injective (value : Json) {other : Json} (h : value.toWritten = other.toWritten) :
    value = other := by
  -- Each constructor has a spelling of its own, so the two values have the same one.
  match value with
  | null | bool _ =>
    cases other
    all_goals
      cases h
      try rfl
  | number value =>
    rw [toWritten] at h
    cases other
    case number other =>
      rw [toWritten, Written.number.injEq, String.ofList_inj] at h
      rw [Number.text_injective h]
    all_goals cases h
  | string value =>
    rw [toWritten] at h
    cases other
    case string other =>
      rw [toWritten, Written.string.injEq] at h
      rw [ofList_escape_injective h]
    all_goals cases h
  | array items =>
    rw [toWritten] at h
    cases other
    case array others =>
      rw [toWritten, Written.array.injEq] at h
      rw [toWrittenItems_injective items h]
    all_goals cases h
  | object members =>
    rw [toWritten] at h
    cases other
    case object others =>
      rw [toWritten, Written.object.injEq] at h
      rw [toWrittenMembers_injective members h]
    all_goals cases h

theorem toWrittenItems_injective (items : List Json) {others : List Json}
    (h : toWrittenItems items = toWrittenItems others) : items = others := by
  match items, others with
  | [], [] => rfl
  | item :: rest, other :: others =>
    rw [toWrittenItems, toWrittenItems, List.cons.injEq] at h
    rw [toWritten_injective item h.1, toWrittenItems_injective rest h.2]

theorem toWrittenMembers_injective (members : List (String × Json))
    {others : List (String × Json)} (h : toWrittenMembers members = toWrittenMembers others) :
    members = others := by
  match members, others with
  | [], [] => rfl
  | (key, value) :: rest, (key', value') :: others =>
    rw [toWrittenMembers, toWrittenMembers, List.cons.injEq, Prod.mk.injEq] at h
    rw [ofList_escape_injective h.1.1, toWritten_injective value h.1.2,
      toWrittenMembers_injective rest h.2]

end

mutual

/-- The spelling of a value stands for what the value is read as. -/
theorem json?_toWritten (value : Json) (hd : value.DistinctKeys) (limit : Nat)
    (h : value.depth ≤ limit) : Written.json? limit value.toWritten = some value.reread := by
  match value with
  | null | bool _ => rfl
  | number value =>
    rcases Number.exists_token_text value with ⟨token, htoken, hvalue⟩
    rw [toWritten, Written.json?, String.toList_ofList, htoken, Option.bind_some, hvalue]
    rfl
  | string value =>
    rw [toWritten, Written.json?, Written.unquote?_escape]
    rfl
  | array items =>
    rw [depth] at h
    rw [DistinctKeys] at hd
    rw [toWritten, Written.json?, if_neg (by omega),
      jsonItems?_toWritten items hd (limit - 1) (by omega) []]
    rfl
  | object members =>
    rw [depth] at h
    rw [DistinctKeys] at hd
    rw [toWritten, Written.json?, if_neg (by omega),
      jsonMembers?_toWritten members hd.2 (limit - 1) (by omega) []
        (distinct_rereadMembers hd.1)]
    rfl

/-- The spellings of a list of values stand for what the values are read as. -/
theorem jsonItems?_toWritten (items : List Json) (hd : DistinctKeysInItems items) (limit : Nat)
    (h : depthOfItems items ≤ limit) (done : List Json) :
    Written.jsonItems? limit done (toWrittenItems items) =
      some (done.reverse ++ rereadItems items) := by
  match items with
  | [] => rw [toWrittenItems, Written.jsonItems?, rereadItems, List.append_nil]
  | item :: rest =>
    rw [depthOfItems] at h
    rw [DistinctKeysInItems] at hd
    rw [toWrittenItems, Written.jsonItems?, json?_toWritten item hd.1 limit (by omega),
      Option.bind_some, jsonItems?_toWritten rest hd.2 limit (by omega) (item.reread :: done),
      List.reverse_cons, List.append_assoc]
    rfl

/-- The spellings of a list of members stand for what the members are read as,
    behind members with other keys. -/
theorem jsonMembers?_toWritten (members : List (String × Json))
    (hd : DistinctKeysInMembers members) (limit : Nat) (h : depthOfMembers members ≤ limit)
    (done : List (String × Json)) (hdone : Ordered.Distinct (done ++ rereadMembers members)) :
    Written.jsonMembers? limit done (toWrittenMembers members) =
      some (done ++ rereadMembers members) := by
  match members with
  | [] => rw [toWrittenMembers, Written.jsonMembers?, rereadMembers, List.append_nil]
  | (key, value) :: rest =>
    rw [depthOfMembers] at h
    rw [DistinctKeysInMembers] at hd
    rw [rereadMembers] at hdone
    -- The key is none of those in front, so the reader appends it as well.
    have hnew := Ordered.notMem_keys_of_distinct_append hdone
    rw [toWrittenMembers, Written.jsonMembers?, Written.unquote?_escape, Option.bind_some,
      json?_toWritten value hd.1 limit (by omega), Option.bind_some,
      Ordered.insert_of_notMem hnew,
      jsonMembers?_toWritten rest hd.2 limit (by omega) (done ++ [(key, value.reread)])
        (by rwa [List.append_assoc]), List.append_assoc]
    rfl

end

/-- The compact text of a value has its spelling. -/
theorem read?_compact (value : Json) :
    Written.read? value.compact.toList = some value.toWritten := by
  rw [compact, Written.text, String.toList_ofList,
    Written.read?_render (wellSpelled_toWritten value)]

/-- No other value has the compact text of a value. -/
theorem compact_injective {value other : Json} (h : value.compact = other.compact) :
    value = other := by
  have hread := read?_compact value
  rw [h, read?_compact] at hread
  exact (toWritten_injective other (Option.some.inj hread)).symm

/-- What the compact text of a value is read as. -/
theorem parse?_compact {value : Json} (hd : value.DistinctKeys) (h : value.depth ≤ depthLimit) :
    parse? value.compact = some value.reread := by
  rw [parse?, read?_compact, Option.bind_some, json?_toWritten value hd depthLimit h]

/-- The compact text of a value that nests deeper is not read at all. -/
theorem parse?_compact_eq_none {value : Json} (h : ¬ value.depth ≤ depthLimit) :
    parse? value.compact = none := by
  rw [parse?, read?_compact, Option.bind_some, Option.eq_none_iff_forall_ne_some]
  intro found hfound
  -- The text has a tree, and what is found in a tree is not deeper than it is.
  have hdepth := Written.depth_le_of_json? _ hfound
  rw [depth_toWritten] at hdepth
  exact h hdepth

end Json

end Fieldwork
