import Fieldwork.Extended.Decode
import Fieldwork.Proofs.Fallible

/-!
# Values With Sound Wrappers

Which JSON values can be decoded as extended JSON.

Only a wrapper can be refused, and only by its own payload. So a value can be
decoded exactly when every wrapper that is reached in it has a payload of its
kind. What a wrapper holds is not reached, and neither does anything around a
wrapper count. `WellWrapped` says this of a value without decoding it.

## Main definitions

* `Json.WellWrapped`: Every wrapper of a value has a payload of its kind.

## Theorems

* `exists_ofJson_iff`: These are the values that can be decoded.
-/

namespace Fieldwork

namespace Json

mutual

/-- Every wrapper that is reached in a value has a payload of its kind. -/
def WellWrapped : Json → Prop
  | array items => WellWrappedItems items
  | object members =>
    match WrapperShape.ofMembers? members with
    | some shape => ∃ v, shape.literal = .ok v
    | none => WellWrappedMembers members
  | _ => True

/-- Every value of a list is well wrapped. -/
def WellWrappedItems : List Json → Prop
  | [] => True
  | item :: rest => item.WellWrapped ∧ WellWrappedItems rest

/-- Every value of a list of members is well wrapped. -/
def WellWrappedMembers : List (String × Json) → Prop
  | [] => True
  | (_, value) :: rest => value.WellWrapped ∧ WellWrappedMembers rest

end

end Json

namespace Extended

theorem decode_eq_ok_iff {j : Json} {v : Extended} : decode j = .ok v ↔ ofJson j = .ok v :=
  Fallible.mapError_eq_ok_iff

mutual

/-- A value can be decoded exactly when its wrappers are sound. -/
theorem exists_ofJson_iff (j : Json) : (∃ v, ofJson j = .ok v) ↔ j.WellWrapped := by
  cases j with
  | array items =>
    rw [ofJson, Fallible.exists_map_eq_ok_iff]
    exact exists_ofItems_iff items
  | object members =>
    rw [ofJson, Json.WellWrapped]
    cases WrapperShape.ofMembers? members with
    | some shape => rfl
    | none =>
      rw [Fallible.exists_map_eq_ok_iff]
      exact exists_ofMembers_iff members
  | null => exact iff_of_true ⟨_, rfl⟩ trivial
  | bool value => exact iff_of_true ⟨_, rfl⟩ trivial
  | number value => exact iff_of_true ⟨_, rfl⟩ trivial
  | string value => exact iff_of_true ⟨_, rfl⟩ trivial

theorem exists_ofItems_iff (items : List Json) :
    (∃ values, ofItems items = .ok values) ↔ Json.WellWrappedItems items := by
  cases items with
  | nil => exact iff_of_true ⟨[], rfl⟩ trivial
  | cons item rest =>
    rw [ofItems, Json.WellWrappedItems, ← exists_ofJson_iff item, ← exists_ofItems_iff rest]
    -- The items are decoded in turn, and the first error is the answer.
    cases ofJson item with
    | error e => simp
    | ok value =>
      cases ofItems rest with
      | error e => simp
      | ok values => simp

theorem exists_ofMembers_iff (members : List (String × Json)) :
    (∃ values, ofMembers members = .ok values) ↔ Json.WellWrappedMembers members := by
  cases members with
  | nil => exact iff_of_true ⟨[], rfl⟩ trivial
  | cons member rest =>
    rcases member with ⟨key, item⟩
    rw [ofMembers, Json.WellWrappedMembers, ← exists_ofJson_iff item,
      ← exists_ofMembers_iff rest]
    cases ofJson item with
    | error e => simp
    | ok value =>
      cases ofMembers rest with
      | error e => simp
      | ok values => simp

end

end Extended

end Fieldwork
