import Fieldwork.Proofs.Extended.RoundTrip
import Fieldwork.Proofs.Extended.WellWrapped
import Mathlib.Data.List.Lex

/-!
# Which Objects Are Wrappers

What becomes a literal, and which wrapper is blamed.

A place says which child to take at each level of a value. The places of a
value are reached through its arrays and its plain objects only; what a wrapper
holds has no place. Decoding keeps places: whatever stands at a place of the
value is decoded to what stands at the same place of the result. So a literal
stands exactly where a wrapper stood, and every plain object is still one.

Places are compared like words, child by child, which is the order in which a
value is read. A value is refused exactly when a wrapper at some place has an
invalid payload, and the error is that of the wrapper at the first such place:
everything before it has been decoded, and nothing behind it is looked at.

Which objects are wrappers is said here by listing them, without the function
that recognizes them.

## Main definitions

* `Json.Wraps`: The wrappers with their payloads.
* `Json.at?`, `Extended.at?`: What stands at a place.
* `Json.HasWrapper`: A wrapper stands at a place.
* `Json.FirstFault`: The first wrapper with an invalid payload.

## Theorems

* `wraps_iff`: The wrappers are the objects that are recognized.
* `at?_of_ofJson`: Decoding keeps places.
* `exists_firstFault`: A value that is refused has a first fault.
* `decode_recognizes`: What is refused, for what, and what becomes a literal.
-/

namespace Fieldwork

namespace Json

/-- Which child to take at each level of a value, from the outside in. -/
abbrev Place := List Nat

/-- The wrappers: one reserved key and no other, or the two keys of the older
    form of binary data in either order. -/
inductive Wraps : Json → WrapperShape → Prop
  /-- One reserved key. -/
  | single (wrapper : Wrapper) (payload : Json) :
    Wraps (.object [(wrapper.key, payload)]) (.single wrapper payload)
  /-- The older form, with the text first. -/
  | textFirst (payload subtype : Json) :
    Wraps (.object [("$binary", payload), ("$type", subtype)]) (.typedBinary payload subtype)
  /-- The older form, with the subtype first. -/
  | subtypeFirst (payload subtype : Json) :
    Wraps (.object [("$type", subtype), ("$binary", payload)]) (.typedBinary payload subtype)

/-- The items of an array, or the values of a plain object. A wrapper has no
    children. -/
def children : Json → List Json
  | array items => items
  | object members =>
    if WrapperShape.Shaped (Ordered.keys members) then [] else members.map Prod.snd
  | _ => []

/-- What stands at a place. -/
def at? : Json → Place → Option Json
  | value, [] => some value
  | value, n :: rest => value.children[n]?.bind fun child => child.at? rest

theorem sizeOf_lt_of_mem_children {value child : Json} (h : child ∈ value.children) :
    sizeOf child < sizeOf value := by
  cases value with
  | array items =>
    have hitem : sizeOf child < sizeOf items := List.sizeOf_lt_of_mem h
    rw [array.sizeOf_spec]
    omega
  | object members =>
    simp only [children] at h
    split at h
    · cases h
    · rcases List.mem_map.1 h with ⟨⟨key, item⟩, hmember, rfl⟩
      have hsize := List.sizeOf_lt_of_mem hmember
      rw [Prod.mk.sizeOf_spec] at hsize
      rw [object.sizeOf_spec]
      show sizeOf item < _
      omega
  | null | bool | number | string => cases h

/-- A wrapper of a shape stands at a place. -/
def HasWrapper (value : Json) (place : Place) (shape : WrapperShape) : Prop :=
  ∃ wrapper, value.at? place = some wrapper ∧ wrapper.Wraps shape

/-- The wrapper at a place has an invalid payload, and no wrapper before it
    has. -/
structure FirstFault (value : Json) (place : Place) (error : LiteralError) : Prop where
  /-- The payload is invalid. -/
  fault : ∃ shape, value.HasWrapper place shape ∧ shape.literal = .error error
  /-- Every payload before it is valid. -/
  first : ∀ earlier < place, ∀ shape, value.HasWrapper earlier shape →
    ∃ literal, shape.literal = .ok literal

section Wraps

variable {members : List (String × Json)} {shape : WrapperShape}

/-- The wrappers are the objects that are recognized. -/
theorem wraps_iff :
    (object members).Wraps shape ↔ WrapperShape.ofMembers? members = some shape := by
  constructor
  · intro h
    cases h with
    | single wrapper payload => exact WrapperShape.ofMembers?_wrapper wrapper payload
    | textFirst payload subtype => rfl
    | subtypeFirst payload subtype => rfl
  · intro h
    -- One member under a reserved key, or the two of the older form in either order.
    match members, h with
    | [(key, payload)], h =>
      rcases Option.map_eq_some_iff.1 h with ⟨wrapper, hwrapper, rfl⟩
      have hkey : wrapper.key = key := by
        simpa using List.find?_some hwrapper
      exact hkey ▸ .single wrapper payload
    | [(key, value), (key', value')], h =>
      simp only [WrapperShape.ofMembers?] at h
      split at h
      · rename_i hkeys
        rcases hkeys with ⟨rfl, rfl⟩
        cases h
        exact .textFirst value value'
      · split at h
        · rename_i hkeys
          rcases hkeys with ⟨rfl, rfl⟩
          cases h
          exact .subtypeFirst value' value
        · cases h

theorem exists_wraps_iff :
    (∃ shape, (object members).Wraps shape) ↔ WrapperShape.Shaped (Ordered.keys members) := by
  rw [← not_iff_not, ← WrapperShape.ofMembers?_eq_none_iff, not_exists,
    Option.eq_none_iff_forall_ne_some]
  exact forall_congr' fun shape => not_congr wraps_iff

/-- Only an object is a wrapper. -/
theorem Wraps.exists_members {value : Json} (h : value.Wraps shape) :
    ∃ members, value = object members := by
  cases h <;> exact ⟨_, rfl⟩

/-- A wrapper has one shape. -/
theorem Wraps.unique {value : Json} {other : WrapperShape} (h : value.Wraps shape)
    (h' : value.Wraps other) : shape = other := by
  rcases h.exists_members with ⟨members, rfl⟩
  exact Option.some.inj ((wraps_iff.1 h).symm.trans (wraps_iff.1 h'))

end Wraps

end Json

namespace Extended

/-- The items of an array, or the values of an object. -/
def children : Extended → List Extended
  | array items => items
  | object members => members.map Prod.snd
  | _ => []

/-- What stands at a place. -/
def at? : Extended → Json.Place → Option Extended
  | value, [] => some value
  | value, n :: rest => value.children[n]?.bind fun child => child.at? rest

/-- The literals that plain JSON lacks. -/
def IsLiteral : Extended → Prop
  | date _ | objectId _ | binary _ | long _ => True
  | _ => False

/-- What a wrapper stands for is a literal. -/
theorem isLiteral_of_literal {shape : WrapperShape} {v : Extended} (h : shape.literal = .ok v) :
    v.IsLiteral := by
  cases shape with
  | single wrapper payload =>
    cases wrapper <;> rcases Fallible.map_eq_ok_iff.1 h with ⟨_, -, rfl⟩ <;> trivial
  | typedBinary payload subtype =>
    rcases Fallible.map_eq_ok_iff.1 h with ⟨_, -, rfl⟩
    trivial

theorem IsLiteral.children_eq {v : Extended} (h : v.IsLiteral) : v.children = [] := by
  cases v <;> first | rfl | cases h

section Lists

variable {items : List Json}

/-- The items of a list are decoded each to its own. -/
theorem getElem?_of_ofItems {values : List Extended} (h : ofItems items = .ok values) (n : Nat) :
    Option.Rel (fun item value => ofJson item = .ok value) items[n]? values[n]? := by
  induction items generalizing values n with
  | nil =>
    cases h
    exact .none
  | cons item rest ih =>
    rcases ofItems_cons_eq_ok h with ⟨value, others, hvalue, hothers, rfl⟩
    cases n with
    | zero => exact .some hvalue
    | succ n => exact ih hothers n

/-- The error of a list is that of its first item that is refused. -/
theorem exists_of_ofItems_eq_error {e : LiteralError} (h : ofItems items = .error e) :
    ∃ (n : Nat) (item : Json), items[n]? = some item ∧ ofJson item = .error e ∧
      ∀ m < n, ∀ other, items[m]? = some other → ∃ v, ofJson other = .ok v := by
  induction items with
  | nil => cases h
  | cons item rest ih =>
    rw [ofItems] at h
    cases hitem : ofJson item with
    | error e' =>
      rw [hitem] at h
      cases h
      exact ⟨0, item, rfl, hitem, fun m hm => absurd hm (Nat.not_lt_zero m)⟩
    | ok value =>
      cases hrest : ofItems rest with
      | ok values => simp only [hitem, hrest, reduceCtorEq] at h
      | error e' =>
        -- The item was decoded, so the error is that of the rest, one place further on.
        simp only [hitem, hrest, Except.error.injEq] at h
        rcases ih (h ▸ hrest) with ⟨n, refused, hrefused, herror, hbefore⟩
        refine ⟨n + 1, refused, hrefused, herror, fun m hm other hother => ?_⟩
        cases m with
        | zero =>
          cases hother
          exact ⟨value, hitem⟩
        | succ m => exact hbefore m (Nat.lt_of_succ_lt_succ hm) other hother

/-- The values of an object are decoded like a list. -/
theorem ofItems_map_snd (members : List (String × Json)) :
    ofItems (members.map Prod.snd) = List.map Prod.snd <$> ofMembers members := by
  induction members with
  | nil => rfl
  | cons member rest ih =>
    rcases member with ⟨key, item⟩
    rw [List.map_cons, ofItems, ofMembers, ih]
    cases ofJson item with
    | error e => rfl
    | ok value => cases ofMembers rest <;> rfl

end Lists

/-- A value is decoded as its wrapper says, or child by child. -/
theorem ofJson_cases (j : Json) :
    (∃ shape, j.Wraps shape ∧ j.children = [] ∧ ofJson j = shape.literal) ∨
      (∀ shape, ¬ j.Wraps shape) ∧
        (∀ v, ofJson j = .ok v → ofItems j.children = .ok v.children ∧ ¬ v.IsLiteral) ∧
        ∀ e, ofJson j = .error e → ofItems j.children = .error e := by
  cases j with
  | object members =>
    by_cases hshaped : WrapperShape.Shaped (Ordered.keys members)
    · rcases Json.exists_wraps_iff.2 hshaped with ⟨shape, hshape⟩
      refine .inl ⟨shape, hshape, if_pos hshaped, ?_⟩
      rw [ofJson, Json.wraps_iff.1 hshape]
    · -- A plain object keeps its keys, so its values are decoded like a list.
      have hchildren : (Json.object members).children = members.map Prod.snd := if_neg hshaped
      have hnone := (WrapperShape.ofMembers?_eq_none_iff members).2 hshaped
      refine .inr ⟨fun shape h => hshaped (Json.exists_wraps_iff.1 ⟨shape, h⟩), ?_, ?_⟩
      · intro v hv
        rw [ofJson, hnone] at hv
        rcases Fallible.map_eq_ok_iff.1 hv with ⟨values, hvalues, rfl⟩
        rw [hchildren, ofItems_map_snd, hvalues]
        exact ⟨rfl, id⟩
      · intro e he
        rw [ofJson, hnone] at he
        rw [hchildren, ofItems_map_snd, Fallible.map_eq_error_iff.1 he]
        rfl
  | array items =>
    refine .inr ⟨fun shape h => (nomatch h), ?_, ?_⟩
    · intro v hv
      rw [ofJson] at hv
      rcases Fallible.map_eq_ok_iff.1 hv with ⟨values, hvalues, rfl⟩
      exact ⟨hvalues, id⟩
    · intro e he
      rw [ofJson] at he
      exact Fallible.map_eq_error_iff.1 he
  | null | bool | number | string =>
    refine .inr ⟨fun shape h => (nomatch h), fun v hv => ?_, fun e he => (nomatch he)⟩
    cases hv
    exact ⟨rfl, id⟩

/-- Decoding keeps places: what stands at a place is decoded to what stands
    there afterwards. -/
theorem at?_of_ofJson {j : Json} {v : Extended} (h : ofJson j = .ok v)
    (place : Json.Place) :
    Option.Rel (fun x y => ofJson x = .ok y) (j.at? place) (v.at? place) := by
  induction place generalizing j v with
  | nil => exact .some h
  | cons n rest ih =>
    have hchildren : ofItems j.children = .ok v.children := by
      rcases ofJson_cases j with ⟨shape, -, hnone, hliteral⟩ | ⟨-, hok, -⟩
      · -- A wrapper has no children, and neither has the literal that it becomes.
        rw [hnone, (isLiteral_of_literal (hliteral ▸ h)).children_eq]
        rfl
      · exact (hok v h).1
    have hchild := getElem?_of_ofItems hchildren n
    rw [Json.at?, at?]
    generalize j.children[n]? = child, v.children[n]? = decoded at hchild
    cases hchild with
    | none => exact .none
    | some hchild => exact ih hchild

section Wrappers

variable {j : Json} {v : Extended} {place : Json.Place} {shape : WrapperShape}

theorem exists_decoded_of_at? (h : ofJson j = .ok v) {x : Json} (hat : j.at? place = some x) :
    ∃ y, v.at? place = some y ∧ ofJson x = .ok y := by
  have hplace := at?_of_ofJson h place
  rw [hat] at hplace
  generalize v.at? place = found at hplace
  cases hplace with
  | some hy => exact ⟨_, rfl, hy⟩

theorem exists_source_of_at? (h : ofJson j = .ok v) {y : Extended} (hat : v.at? place = some y) :
    ∃ x, j.at? place = some x ∧ ofJson x = .ok y := by
  have hplace := at?_of_ofJson h place
  rw [hat] at hplace
  generalize j.at? place = found at hplace
  cases hplace with
  | some hy => exact ⟨_, rfl, hy⟩

/-- What stands where a wrapper stood. -/
theorem exists_at?_of_hasWrapper (h : ofJson j = .ok v) (hwrapper : j.HasWrapper place shape) :
    ∃ literal, v.at? place = some literal ∧ shape.literal = .ok literal := by
  rcases hwrapper with ⟨wrapper, hat, hwraps⟩
  rcases exists_decoded_of_at? h hat with ⟨literal, hfound, hliteral⟩
  rcases hwraps.exists_members with ⟨members, rfl⟩
  rw [ofJson, Json.wraps_iff.1 hwraps] at hliteral
  exact ⟨literal, hfound, hliteral⟩

/-- A literal stands only where a wrapper stood. -/
theorem exists_hasWrapper_of_at? (h : ofJson j = .ok v) {literal : Extended}
    (hat : v.at? place = some literal) (hliteral : literal.IsLiteral) :
    ∃ shape, j.HasWrapper place shape := by
  rcases exists_source_of_at? h hat with ⟨source, hsource, hdecoded⟩
  rcases ofJson_cases source with ⟨shape, hwraps, -, -⟩ | ⟨-, hok, -⟩
  · exact ⟨shape, source, hsource, hwraps⟩
  · exact absurd hliteral (hok literal hdecoded).2

/-- A plain object is still one, with its keys. -/
theorem exists_object_of_at? (h : ofJson j = .ok v) {members : List (String × Json)}
    (hat : j.at? place = some (.object members))
    (hplain : ¬ WrapperShape.Shaped (Ordered.keys members)) :
    ∃ values, v.at? place = some (.object values) ∧
      Ordered.keys values = Ordered.keys members := by
  rcases exists_decoded_of_at? h hat with ⟨y, hfound, hdecoded⟩
  rcases ofJson_object_eq_ok hdecoded with ⟨shape, hshape, -⟩ | ⟨values, -, hvalues, rfl⟩
  · exact absurd (Json.exists_wraps_iff.1 ⟨shape, Json.wraps_iff.2 hshape⟩) hplain
  · exact ⟨values, hfound, keys_ofMembers hvalues⟩

/-- A value that is refused has a first fault, with its error. -/
theorem exists_firstFault {j : Json} {e : LiteralError} (h : ofJson j = .error e) :
    ∃ place, j.FirstFault place e := by
  rcases ofJson_cases j with ⟨shape, hwraps, -, hliteral⟩ | ⟨hplain, -, herror⟩
  · exact ⟨[], ⟨shape, ⟨j, rfl, hwraps⟩, hliteral ▸ h⟩,
      fun earlier hearlier => absurd hearlier (List.not_lt_nil earlier)⟩
  · rcases exists_of_ofItems_eq_error (herror e h) with ⟨n, child, hchild, hfault, hbefore⟩
    rcases exists_firstFault hfault with ⟨place, ⟨shape, ⟨wrapper, hat, hwraps⟩, hliteral⟩, hfirst⟩
    refine ⟨n :: place, ⟨shape, ⟨wrapper, ?_, hwraps⟩, hliteral⟩, ?_⟩
    · rw [Json.at?, hchild, Option.bind_some, hat]
    · rintro earlier hearlier other ⟨found, hfound, hother⟩
      cases earlier with
      | nil =>
        -- The value itself comes before its children, but it is no wrapper.
        cases hfound
        exact absurd hother (hplain other)
      | cons m rest =>
        rw [Json.at?, Option.bind_eq_some_iff] at hfound
        rcases hfound with ⟨sibling, hsibling, hfound⟩
        rcases List.cons_lt_cons_iff.1 hearlier with hm | ⟨rfl, hrest⟩
        · -- A child before the one that is refused was decoded.
          rcases hbefore m hm sibling hsibling with ⟨v, hv⟩
          rcases exists_at?_of_hasWrapper hv ⟨found, hfound, hother⟩ with ⟨literal, -, hliteral⟩
          exact ⟨literal, hliteral⟩
        · cases hsibling.symm.trans hchild
          exact hfirst rest hrest other ⟨found, hfound, hother⟩
termination_by sizeOf j
decreasing_by exact Json.sizeOf_lt_of_mem_children (List.mem_of_getElem? hchild)

/-- Two first faults are the same. -/
theorem firstFault_unique {place' : Json.Place} {e e' : LiteralError} (h : j.FirstFault place e)
    (h' : j.FirstFault place' e') : e = e' := by
  rcases h.fault with ⟨shape, hwrapper, hliteral⟩
  rcases h'.fault with ⟨shape', hwrapper', hliteral'⟩
  -- Were one of them earlier, then the other one would call its payload valid.
  rcases lt_trichotomy place place' with hlt | rfl | hlt
  · rcases h'.first place hlt shape hwrapper with ⟨literal, hvalid⟩
    cases hliteral.symm.trans hvalid
  · rcases hwrapper with ⟨wrapper, hat, hwraps⟩
    rcases hwrapper' with ⟨wrapper', hat', hwraps'⟩
    cases hat.symm.trans hat'
    cases hwraps.unique hwraps'
    exact Except.error.inj (hliteral.symm.trans hliteral')
  · rcases h.first place' hlt shape' hwrapper' with ⟨literal, hvalid⟩
    cases hliteral'.symm.trans hvalid

/-- A value with an invalid payload is refused, for the first one. -/
theorem ofJson_eq_error_iff {e : LiteralError} :
    ofJson j = .error e ↔ ∃ place, j.FirstFault place e := by
  refine ⟨exists_firstFault, ?_⟩
  rintro ⟨place, hfault⟩
  -- The value is refused, and there is only one first fault that it can be refused
  -- for.
  cases hj : ofJson j with
  | ok v =>
    rcases hfault.fault with ⟨shape, hwrapper, hliteral⟩
    rcases exists_at?_of_hasWrapper hj hwrapper with ⟨literal, -, hvalid⟩
    cases hliteral.symm.trans hvalid
  | error e' =>
    rcases exists_firstFault hj with ⟨place', hfault'⟩
    rw [firstFault_unique hfault hfault']

end Wrappers

/-- What a value is refused for, and where literals come from. A value is
    refused exactly when a wrapper that is reached in it has an invalid
    payload, and the error is that of the first such wrapper. In a value that
    is decoded every wrapper that is reached has become the literal that it
    stands for, every literal comes from such a wrapper, and every plain object
    that is reached is an object with the same keys. -/
theorem decode_recognizes (j : Json) :
    (∀ e, decode j = .error e ↔ ∃ place error, j.FirstFault place error ∧ e = .literal error) ∧
    ((∃ e, decode j = .error e) ↔
      ∃ place shape error, j.HasWrapper place shape ∧ shape.literal = .error error) ∧
    ∀ v, decode j = .ok v →
      (∀ place shape, j.HasWrapper place shape →
        ∃ literal, v.at? place = some literal ∧ literal.IsLiteral ∧
          shape.literal = .ok literal) ∧
      (∀ place literal, v.at? place = some literal → literal.IsLiteral →
        ∃ shape, j.HasWrapper place shape) ∧
      ∀ place members, j.at? place = some (.object members) →
        ¬ WrapperShape.Shaped (Ordered.keys members) →
        ∃ values, v.at? place = some (.object values) ∧
          Ordered.keys values = Ordered.keys members := by
  -- Which error it is, whether there is one, and what becomes of the parts if there
  -- is none.
  refine ⟨fun e => ?_, ?_, fun v hv => ?_⟩
  · unfold decode
    constructor
    · intro h
      cases hj : ofJson j with
      | ok v => cases hj ▸ h
      | error error =>
        rw [hj] at h
        rcases exists_firstFault hj with ⟨place, hfault⟩
        exact ⟨place, error, hfault, (Except.error.inj h).symm⟩
    · rintro ⟨place, error, hfault, rfl⟩
      rw [ofJson_eq_error_iff.2 ⟨place, hfault⟩]
      rfl
  · constructor
    · rintro ⟨e, h⟩
      cases hj : ofJson j with
      | ok v => cases (decode_eq_ok_iff.2 hj).symm.trans h
      | error error =>
        rcases exists_firstFault hj with ⟨place, hfault⟩
        rcases hfault.fault with ⟨shape, hwrapper, hliteral⟩
        exact ⟨place, shape, error, hwrapper, hliteral⟩
    · rintro ⟨place, shape, error, hwrapper, hliteral⟩
      cases hj : decode j with
      | error e => exact ⟨e, rfl⟩
      | ok v =>
        rcases exists_at?_of_hasWrapper (decode_eq_ok_iff.1 hj) hwrapper with ⟨literal, -, hvalid⟩
        cases hliteral.symm.trans hvalid
  · have hj := decode_eq_ok_iff.1 hv
    refine ⟨fun place shape hwrapper => ?_, fun place literal => exists_hasWrapper_of_at? hj,
      fun place members => exists_object_of_at? hj⟩
    rcases exists_at?_of_hasWrapper hj hwrapper with ⟨literal, hat, hvalid⟩
    exact ⟨literal, hat, isLiteral_of_literal hvalid, hvalid⟩

/-- A number in a wrapper, beside an object that has its key among others and
    holds binary data without bytes. -/
theorem decode_recognizes_nearMiss :
    let long : Json := .object [("$numberLong", .string "7")]
    let bytes : Json := .object [("$type", .string "0"), ("$binary", .string "")]
    let j : Json := .array [long, .object [("$numberLong", .string "7"), ("x", bytes)]]
    let v : Extended := .array [.long 7, .object [("$numberLong", .string "7"),
      ("x", .binary ⟨0, []⟩)]]
    decode j = .ok v ∧
      (∃ shape, j.HasWrapper [0] shape) ∧ (∃ shape, j.HasWrapper [1, 1] shape) ∧
      (∃ literal, v.at? [1, 1] = some literal ∧ literal.IsLiteral) ∧
      decode (.array [j, .object [("$oid", .null)], .object [("$date", .null)]]) =
        .error (.literal .objectIdPayload) := by
  intro long bytes j v
  have hv : decode j = .ok v := rfl
  have hbytes : j.HasWrapper [1, 1] (.typedBinary (.string "") (.string "0")) :=
    ⟨bytes, rfl, .subtypeFirst _ _⟩
  rcases decode_recognizes j with ⟨-, -, hliterals⟩
  rcases hliterals v hv with ⟨hbecome, honly, -⟩
  rcases hbecome [1, 1] _ hbytes with ⟨literal, hat, hliteral, -⟩
  exact ⟨hv, honly [0] (.long 7) rfl trivial, ⟨_, hbytes⟩, ⟨literal, hat, hliteral⟩, rfl⟩

end Extended

end Fieldwork
