import Fieldwork.Document.Basic
import Fieldwork.Proofs.Ordered

/-!
# Merges in Turn

Updates act on documents by merging, with the order of keys.

Updates are documents themselves, so they can be merged into one another before
they are merged into a document. That this comes to the same is more than the
same value under every key: a key that comes twice, once in each of two updates,
has its place from the first of them and its value from the second one, on
either way.

The order of keys is also why two updates do not commute as lists even when
they have no key in common. They commute as maps, which is to say up to a
permutation of the pairs.

## Theorems

* `merge_assoc`, `foldl_merge`: Updates can be merged among themselves first.
* `merge_empty`, `empty_merge`, `merge_self`: What changes nothing.
* `keys_merge`: Old keys stay where they are and new ones follow.
* `lookup_fields_merge_eq_ite`: Each key has its value from one of the two.
* `merge_acts`: All of it.
-/

namespace Fieldwork

namespace Document

/-- Updates can be merged among themselves first. -/
theorem merge_assoc (document updates later : Document) :
    (document.merge updates).merge later = document.merge (updates.merge later) :=
  Document.ext (Ordered.merge_merge updates.distinct document.fields later.fields)

theorem merge_empty (document : Document) : document.merge empty = document := rfl

theorem empty_merge (updates : Document) : empty.merge updates = updates :=
  Document.ext (Ordered.merge_of_distinct_append [] updates.distinct)

/-- What is there already is not put in again. -/
theorem merge_self (updates : Document) : updates.merge updates = updates :=
  Document.ext ((Ordered.merge_eq_self_iff updates.distinct updates.distinct).2 fun _ => id)

/-- Any number of updates can be merged among themselves first. -/
theorem foldl_merge (document : Document) (updates : List Document) :
    updates.foldl merge document = document.merge (updates.foldl merge empty) := by
  induction updates generalizing document with
  | nil => exact (merge_empty document).symm
  | cons first rest ih =>
    -- The first one is what the others are merged into on both sides.
    rw [List.foldl_cons, List.foldl_cons, ih (document.merge first), ih (empty.merge first),
      empty_merge, merge_assoc]

/-- Old keys stay where they are and new ones follow. -/
theorem keys_merge (document updates : Document) :
    (document.merge updates).keys =
      document.keys ++ updates.keys.filter (· ∉ document.keys) :=
  Ordered.keys_merge updates.distinct document.fields

/-- Each key has its value from one of the two. -/
theorem lookup_fields_merge_eq_ite (document updates : Document) (key : String) :
    (document.merge updates).fields.lookup key =
      if key ∈ updates.keys then updates.fields.lookup key else document.fields.lookup key :=
  Ordered.lookup_merge_eq_ite updates.distinct document.fields key

/-- Merging acts on documents. Two updates or any number of them, merged in
    turn, are merged like the one that they make together, in the same order of
    keys. The empty update changes nothing, a document that was cleared becomes
    the update, and to merge an update again changes nothing. The keys of a
    merge are the old ones and then the new ones, each in its own order and
    none twice; a key of the update has the value of the update, and another
    one keeps its own. Updates without a common key can be merged in either
    order if the order of keys does not count. -/
theorem merge_acts (document updates later : Document) :
    (document.merge updates).merge later = document.merge (updates.merge later) ∧
    (∀ many : List Document,
      many.foldl merge document = document.merge (many.foldl merge empty)) ∧
    document.merge empty = document ∧
    document.clear.merge updates = updates ∧
    (document.merge updates).merge updates = document.merge updates ∧
    (document.merge updates).keys =
      document.keys ++ updates.keys.filter (· ∉ document.keys) ∧
    (document.merge updates).keys.Nodup ∧
    (∀ key, (document.merge updates).fields.lookup key =
      if key ∈ updates.keys then updates.fields.lookup key else document.fields.lookup key) ∧
    ((∀ key ∈ updates.keys, key ∉ later.keys) →
      ((document.merge updates).merge later).fields.Perm
        ((document.merge later).merge updates).fields) := by
  refine ⟨merge_assoc document updates later, foldl_merge document, merge_empty document,
    empty_merge updates, ?_, keys_merge document updates, (document.merge updates).distinct,
    lookup_fields_merge_eq_ite document updates, ?_⟩
  · rw [merge_assoc, merge_self]
  · intro h
    exact Ordered.perm_merge_merge document.distinct updates.distinct later.distinct h

/-- Updates without a common key that both replace a value and bring a new key. -/
theorem merge_acts_disjoint :
    let document := ofList [("a", .null), ("b", .object [("x", .null)])]
    let updates := ofList [("c", .bool true), ("b", .object [("y", .null)])]
    let later := ofList [("d", .string ""), ("a", .bool false)]
    (∀ key ∈ updates.keys, key ∉ later.keys) ∧
      ((document.merge updates).merge later).keys = ["a", "b", "c", "d"] ∧
      ((document.merge later).merge updates).keys = ["a", "b", "d", "c"] ∧
      ((document.merge updates).merge later).fields.Perm
        ((document.merge later).merge updates).fields := by
  intro document updates later
  have hdisjoint : ∀ key ∈ updates.keys, key ∉ later.keys := by decide
  rcases merge_acts document updates later with ⟨-, -, -, -, -, -, -, -, hperm⟩
  exact ⟨hdisjoint, rfl, rfl, hperm hdisjoint⟩

end Document

end Fieldwork
