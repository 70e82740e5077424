import Fieldwork.Json.Basic

/-!
# Dotted Paths

Names of values inside of nested objects.

A path is cut at every dot. Each segment, also an empty one, is the key of a
member; only objects can be walked through.

## Main definitions

* `segments`: The segments of a path.
* `walk`: The value that a list of keys leads to.

## Theorems

* `segments_append`: The segments of two paths with a dot between.
* `walk_append`: Walking two lists of keys in turn.
-/

namespace Fieldwork

namespace Dotted

/-- The segments of a path, one more than it has dots. -/
def segments : List Char → List (List Char)
  | [] => [[]]
  | c :: rest =>
    if c = '.' then [] :: segments rest
    else match segments rest with
      | [] => [[c]]
      | first :: others => (c :: first) :: others

/-- The keys that a path names in turn. -/
def keys (path : String) : List String :=
  (segments path.toList).map String.ofList

/-- The value that keys lead to, from object to object. -/
def walk : Json → List String → Option Json
  | value, [] => some value
  | .object members, key :: rest => (members.lookup key).bind fun value => walk value rest
  | _, _ :: _ => none

/-- A path has a first segment. -/
theorem segments_ne_nil (path : List Char) : segments path ≠ [] := by
  cases path with
  | nil => simp [segments]
  | cons c rest =>
    simp only [segments]
    split
    · simp
    · split <;> simp

/-- The segments of two paths with a dot between. -/
theorem segments_append (path other : List Char) :
    segments (path ++ '.' :: other) = segments path ++ segments other := by
  induction path with
  | nil => simp [segments]
  | cons c rest ih =>
    simp only [List.cons_append, segments]
    split
    · simp [ih]
    · rw [ih]
      cases h : segments rest with
      | nil => exact absurd h (segments_ne_nil rest)
      | cons first others => simp

/-- Walking two lists of keys in turn. -/
theorem walk_append (value : Json) (xs ys : List String) :
    walk value (xs ++ ys) = (walk value xs).bind fun v => walk v ys := by
  induction xs generalizing value with
  | nil => simp [walk]
  | cons key rest ih =>
    cases value with
    | object members =>
      simp only [List.cons_append, walk]
      cases members.lookup key with
      | none => simp
      | some v => simp [ih]
    | _ => simp [walk]

end Dotted

end Fieldwork
