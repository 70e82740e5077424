/-!
# Computations That May Fail

When a composed computation succeeds, and what a changed one fails with.

Readers and checks are chained so that the first error is the answer. To know
that a chain gave a value is to know what each link gave. These laws take a
chain apart at a success. Which error comes out of one that fails is said only
where there is a single link.

## Theorems

* `bind_eq_ok_iff`: Both links of a chain succeed.
* `mapError_eq_ok_iff`: Rewording an error keeps every success.
* `map_eq_ok_iff`, `map_eq_error_iff`: Changing a value keeps every success
  and every error.
* `mapM_map_eq_some`: What is written item by item is read item by item.
-/

namespace Fieldwork

namespace Fallible

variable {ε ε' α β : Type}

theorem bind_eq_ok_iff {x : Except ε α} {f : α → Except ε β} {b : β} :
    x >>= f = .ok b ↔ ∃ a, x = .ok a ∧ f a = .ok b := by
  cases x with
  | error e =>
    refine iff_of_false (fun h => by cases h) ?_
    rintro ⟨a, h, -⟩
    cases h
  | ok a =>
    refine ⟨fun h => ⟨a, rfl, h⟩, ?_⟩
    rintro ⟨a', ha, h⟩
    cases ha
    exact h

theorem mapError_eq_ok_iff {f : ε → ε'} {x : Except ε α} {a : α} :
    x.mapError f = .ok a ↔ x = .ok a := by
  cases x with
  | error e => exact iff_of_false (fun h => by cases h) (fun h => by cases h)
  | ok b =>
    constructor
    · intro h
      cases h
      rfl
    · intro h
      cases h
      rfl

theorem map_eq_ok_iff {f : α → β} {x : Except ε α} {b : β} :
    f <$> x = .ok b ↔ ∃ a, x = .ok a ∧ f a = b := by
  cases x with
  | error e =>
    refine iff_of_false (fun h => by cases h) ?_
    rintro ⟨a, h, -⟩
    cases h
  | ok a =>
    constructor
    · intro h
      cases h
      exact ⟨a, rfl, rfl⟩
    · rintro ⟨a', ha, rfl⟩
      cases ha
      rfl

theorem map_eq_error_iff {f : α → β} {x : Except ε α} {e : ε} :
    f <$> x = .error e ↔ x = .error e := by
  cases x with
  | error e' =>
    constructor
    · intro h
      cases h
      rfl
    · intro h
      cases h
      rfl
  | ok a => exact iff_of_false (fun h => by cases h) (fun h => by cases h)

theorem exists_map_eq_ok_iff {f : α → β} {x : Except ε α} :
    (∃ b, f <$> x = .ok b) ↔ ∃ a, x = .ok a := by
  constructor
  · rintro ⟨b, h⟩
    rcases map_eq_ok_iff.1 h with ⟨a, ha, -⟩
    exact ⟨a, ha⟩
  · rintro ⟨a, ha⟩
    exact ⟨f a, map_eq_ok_iff.2 ⟨a, ha, rfl⟩⟩

/-- A list that is written item by item is read item by item, if each item is. -/
theorem mapM_map_eq_some {write : α → β} {read : β → Option α}
    (h : ∀ a, read (write a) = some a) (items : List α) :
    (items.map write).mapM read = some items := by
  induction items with
  | nil => rfl
  | cons item rest ih =>
    rw [List.map_cons, List.mapM_cons, ih, h item]
    rfl

end Fallible

end Fieldwork
