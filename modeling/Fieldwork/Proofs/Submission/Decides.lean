import Fieldwork.Proofs.Submission.Meaning

/-!
# What Each Check Decides

The checks of single parameters against what the parameters stand for.

A check does two things: it gives a value exactly when the condition on its
parameter is met, and otherwise an error about that parameter. `Decides` is
both in one, since a caller never needs one without the other. It composes: a
check of a list decides what holds of every item, and a check that converts
first decides what the value is converted to.

## Main definitions

* `Decides`: A check that decides a condition on one parameter.

## Theorems

* `decides_items`, `decides_absent_or_null`, `decides_converted`: How checks
  are built.
* `decides_filterOf`, `decides_instanceIdsOf`, `decides_sortOf`,
  `decides_startOf`, `decides_limitOf`, `decides_fieldsOf`: What each check
  decides.
-/

namespace Fieldwork

namespace Submission

/-- A check decides a condition on a parameter: it gives a value if the
    condition is met, and blames the parameter if it is not. -/
def Decides {α : Type} (parameter : Parameter) (p : Prop) : Except ClientError α → Prop
  | .ok _ => p
  | .error e => ¬ p ∧ e.parameter = parameter

section Decides

variable {α β : Type} {parameter : Parameter} {p q : Prop}

theorem Decides.congr {x : Except ClientError α} (h : Decides parameter p x) (hpq : p ↔ q) :
    Decides parameter q x := by
  cases x with
  | ok a => exact hpq.1 h
  | error e => exact ⟨fun hq => h.1 (hpq.2 hq), h.2⟩

/-- A check that refuses when it finds nothing, and goes on with what it finds. -/
theorem decides_kind (error : ClientError) {found? : Option α} {r : α → Prop}
    {x : Except ClientError β} (hnone : found? = none → x = .error error)
    (hsome : ∀ a, found? = some a → Decides error.parameter (r a) x) :
    Decides error.parameter (∃ a, found? = some a ∧ r a) x := by
  cases hfound : found? with
  | none =>
    rw [hnone hfound]
    refine ⟨?_, rfl⟩
    rintro ⟨a, ha, -⟩
    cases ha
  | some a => exact (hsome a hfound).congr (by simp)

/-- A check that refuses when it finds nothing, and that is all. -/
theorem decides_found (error : ClientError) {found? : Option α} {x : Except ClientError β}
    (hnone : found? = none → x = .error error)
    (hsome : ∀ a, found? = some a → ∃ b, x = .ok b) :
    Decides error.parameter (∃ a, found? = some a) x := by
  refine (decides_kind (r := fun _ => True) error hnone fun a ha => ?_).congr (by simp)
  rcases hsome a ha with ⟨b, hb⟩
  rw [hb]
  exact trivial

/-- A check of a list, item by item. -/
theorem decides_items (error : ClientError) (pick : α → Option β)
    (walk : List α → Except ClientError (List β)) (hnil : walk [] = .ok [])
    (hnone : ∀ item rest, pick item = none → walk (item :: rest) = .error error)
    (hsome : ∀ item rest b, pick item = some b → walk (item :: rest) = (walk rest).map (b :: ·))
    (items : List α) :
    Decides error.parameter (∀ item ∈ items, ∃ b, pick item = some b) (walk items) := by
  induction items with
  | nil =>
    rw [hnil]
    exact fun item hitem => by cases hitem
  | cons item rest ih =>
    rcases hpick : pick item with _ | b
    · -- The first item that is none decides, whatever follows it.
      rw [hnone item rest hpick]
      refine ⟨fun h => ?_, rfl⟩
      rcases h item List.mem_cons_self with ⟨b, hb⟩
      cases hpick.symm.trans hb
    · rw [hsome item rest b hpick]
      have hall : (∀ other ∈ rest, ∃ c, pick other = some c) ↔
          ∀ other ∈ item :: rest, ∃ c, pick other = some c := by
        rw [List.forall_mem_cons]
        exact ⟨fun h => ⟨⟨b, hpick⟩, h⟩, And.right⟩
      cases hrest : walk rest with
      | error e =>
        rw [hrest] at ih
        exact ih.congr hall
      | ok bs =>
        rw [hrest] at ih
        exact hall.1 ih

/-- A check that converts first, and goes on with what is of one kind. -/
theorem decides_converted (error : ClientError) {value : Json} {kind? : Extended → Option α}
    {wrap : α → Extended} {r : α → Prop} {check : Extended → Except ClientError β}
    (hkind : ∀ {v a}, kind? v = some a ↔ v = wrap a)
    (hnone : ∀ v, kind? v = none → check v = .error error)
    (hsome : ∀ v a, kind? v = some a → Decides error.parameter (r a) (check v)) :
    Decides error.parameter (∃ a, Converts value (wrap a) ∧ r a)
      (extendedOf error.parameter value >>= check) := by
  cases hvalue : extendedOf error.parameter value with
  | error e =>
    refine ⟨?_, parameter_of_extendedOf hvalue⟩
    rintro ⟨a, ha, -⟩
    cases hvalue.symm.trans (extendedOf_eq_ok_iff.2 ha)
  | ok v =>
    refine (decides_kind error (hnone v) (hsome v)).congr (exists_congr fun a => ?_)
    have hconverts : extendedOf error.parameter value = .ok (wrap a) ↔ Converts value (wrap a) :=
      extendedOf_eq_ok_iff
    -- The text or value stands for at most one value, so the two readings of it
    -- agree.
    rw [hkind, ← hconverts, hvalue, Except.ok.injEq]

theorem exists_map_eq_some_iff {found? : Option α} {f : α → β} :
    (∃ b, found?.map f = some b) ↔ ∃ a, found? = some a := by
  cases found? <;> simp

/-- A parameter that may be absent. -/
theorem decides_absent (check : Option Json → Except ClientError α) {r : Json → Prop}
    (hnone : ∃ a, check none = .ok a)
    (hsome : ∀ value, Decides parameter (r value) (check (some value))) (sent : Option Json) :
    Decides parameter (∀ value ∈ sent, r value) (check sent) := by
  cases sent with
  | none =>
    rcases hnone with ⟨a, ha⟩
    rw [ha]
    exact fun value hvalue => by cases hvalue
  | some value =>
    refine (hsome value).congr ⟨fun h other hother => ?_, fun h => h value rfl⟩
    cases hother
    exact h

/-- A parameter that may be absent, or `null` to the same effect. -/
theorem decides_absent_or_null (check : Option Json → Except ClientError α) {r : Json → Prop}
    (hnone : ∃ a, check none = .ok a) (hnull : ∃ a, check (some .null) = .ok a)
    (hsome : ∀ value, value ≠ .null → Decides parameter (r value) (check (some value)))
    (sent : Option Json) :
    Decides parameter (∀ value ∈ sent, value ≠ .null → r value) (check sent) := by
  refine decides_absent check hnone (fun value => ?_) sent
  by_cases hvalue : value = .null
  · subst hvalue
    rcases hnull with ⟨a, ha⟩
    rw [ha]
    exact fun h => absurd rfl h
  · exact (hsome value hvalue).congr ⟨fun h _ => h, fun h => h hvalue⟩

end Decides

section Checks

theorem decides_startOf (sent : Option Json) :
    Decides .start (∀ value ∈ sent, ∃ n, value.Denotes n) (startOf sent) := by
  refine decides_absent startOf ⟨0, rfl⟩ (fun value => ?_) sent
  refine (decides_found (.notAPositiveInteger .start) ?_ ?_).congr exists_coerce?_iff
  · intro hvalue
    rw [startOf, hvalue]
  · intro n hvalue
    exact ⟨n, by rw [startOf, hvalue]⟩

theorem decides_limitOf (sent : Option Json) :
    Decides .limit (∀ value ∈ sent, value ≠ .null → ∃ n, value.Denotes n ∧ n ≠ 0)
      (limitOf sent) := by
  refine decides_absent_or_null limitOf ⟨none, rfl⟩ ⟨none, rfl⟩ (fun value hnull => ?_) sent
  refine (decides_found (.notAPositiveInteger .limit) ?_ ?_).congr exists_limit_iff
  · intro hvalue
    rw [limitOf.eq_3 value hnull, hvalue]
  · intro limit hvalue
    exact ⟨some limit, by rw [limitOf.eq_3 value hnull, hvalue]⟩

theorem decides_instanceIdsOfItems (items : List Json) :
    Decides .instanceIds (∀ item ∈ items, ∃ n, item.Denotes n) (instanceIdsOfItems items) := by
  have hitems := decides_items .invalidInstanceId (fun item => (coerce? item).map SubmissionId.mk)
    instanceIdsOfItems rfl
    (fun item rest hnone => by rw [instanceIdsOfItems, Option.map_eq_none_iff.1 hnone])
    (fun item rest id hsome => by
      rcases Option.map_eq_some_iff.1 hsome with ⟨n, hn, rfl⟩
      rw [instanceIdsOfItems, hn]) items
  exact hitems.congr (forall₂_congr fun item _ => exists_map_eq_some_iff.trans exists_coerce?_iff)

theorem decides_instanceIdsOf (sent : Option Json) :
    Decides .instanceIds (∀ value ∈ sent, IsIdList value) (instanceIdsOf sent) := by
  refine decides_absent instanceIdsOf ⟨[], rfl⟩ (fun value => ?_) sent
  have hlist (h : ∀ items, value ≠ .array items) : ¬ IsIdList value := by
    rintro ⟨items, hvalue, -⟩
    exact h items hvalue
  cases value with
  | array items =>
    refine (decides_instanceIdsOfItems items).congr ⟨fun h => ⟨items, rfl, h⟩, ?_⟩
    rintro ⟨items', hitems', h⟩
    cases hitems'
    exact h
  | null => exact ⟨hlist (fun items h => by cases h), rfl⟩
  | bool value => exact ⟨hlist (fun items h => by cases h), rfl⟩
  | number value => exact ⟨hlist (fun items h => by cases h), rfl⟩
  | string value => exact ⟨hlist (fun items h => by cases h), rfl⟩
  | object members => exact ⟨hlist (fun items h => by cases h), rfl⟩

theorem decides_filterOf (sent : Option Json) :
    Decides .query (∀ value ∈ sent, value ≠ .null → IsFilter value) (filterOf sent) := by
  refine decides_absent_or_null filterOf ⟨_, rfl⟩ ⟨_, rfl⟩ (fun value hnull => ?_) sent
  rw [filterOf.eq_3 value hnull, ← exists_converts_iff]
  -- Whatever is converted is a filter, so only the conversion can fail.
  cases h : extendedOf .query value with
  | ok v => exact ⟨v, extendedOf_eq_ok_iff.1 h⟩
  | error e =>
    refine ⟨?_, parameter_of_extendedOf h⟩
    rintro ⟨v, hv⟩
    cases h.symm.trans (extendedOf_eq_ok_iff.2 hv)

theorem decides_sortOfMembers (members : List (String × Extended)) :
    Decides .sort (∀ member ∈ members, IsDirection member.2) (sortOfMembers members) := by
  have hmembers := decides_items .invalidSort
    (fun member : String × Extended => (direction? member.2).map (SortKey.mk member.1))
    sortOfMembers rfl
    (fun member rest hnone => by rw [sortOfMembers, Option.map_eq_none_iff.1 hnone])
    (fun member rest key hsome => by
      rcases Option.map_eq_some_iff.1 hsome with ⟨direction, hdirection, rfl⟩
      rw [sortOfMembers, hdirection]) members
  exact hmembers.congr
    (forall₂_congr fun member _ => exists_map_eq_some_iff.trans exists_direction?_iff)

theorem decides_sortOf (sent : Option Json) :
    Decides .sort (∀ value ∈ sent, value ≠ .null → IsOrder value) (sortOf sent) := by
  refine decides_absent_or_null sortOf ⟨_, rfl⟩ ⟨_, rfl⟩ (fun value hnull => ?_) sent
  rw [sortOf.eq_3 value hnull]
  refine decides_converted .invalidSort object?_eq_some_iff (fun v hnone => ?_)
    (fun v members hsome => ?_)
  · rw [hnone]
  · rw [hsome]
    exact decides_sortOfMembers members

theorem decides_fieldsOfItems (items : List Extended) :
    Decides .fields (∀ item ∈ items, ∃ name, item = .string name) (fieldsOfItems items) := by
  refine (decides_items .invalidFields Extended.string? fieldsOfItems rfl
    (fun item rest hnone => by rw [fieldsOfItems, hnone])
    (fun item rest name hsome => by rw [fieldsOfItems, hsome]) items).congr ?_
  exact forall₂_congr fun item _ => exists_congr fun name => string?_eq_some_iff

theorem decides_fieldsOf (sent : Option Json) :
    Decides .fields (∀ value ∈ sent, value ≠ .null → IsProjection value) (fieldsOf sent) := by
  refine decides_absent_or_null fieldsOf ⟨_, rfl⟩ ⟨_, rfl⟩ (fun value hnull => ?_) sent
  rw [fieldsOf.eq_3 value hnull]
  refine decides_converted .invalidFields array?_eq_some_iff (fun v hnone => ?_)
    (fun v items hsome => ?_)
  · rw [hnone]
  · rw [hsome]
    exact decides_fieldsOfItems items

end Checks

end Submission

end Fieldwork
