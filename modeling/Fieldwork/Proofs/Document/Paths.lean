import Fieldwork.Proofs.Binary64.Shortest
import Fieldwork.Proofs.Document.Merge

/-!
# Reading Along Paths

What a dotted path finds, whatever text the path is.

A path may be empty and may have dots at its ends or next to one another. None
of these cases is special, because a dot always separates two segments and a
segment may be empty. A path without a dot is a key. A path with a dot is read
in two parts: what the first part finds has to be an object, and the second
part is read there. The two rules determine every look-up.

A merge replaces what is under a key as a whole, so all that a path sees of it
is the key in front of the first dot. Where the update has that key, the
document is not looked at any more.

## Main definitions

* `Dotted.first`: The key in front of the first dot.
* `Json.Falsy`: The values that count as absent.

## Theorems

* `keys_of_notMem`, `keys_append`: Paths without a dot, and with one.
* `lookup_append`: A path is read in two parts.
* `lookup_merge_eq_ite`: After a merge the first key decides what is read.
* `lookup_compositional`: All of it, with the default of a read.
-/

namespace Fieldwork

namespace Dotted

/-- The key in front of the first dot. -/
def first (path : String) : String :=
  String.ofList (path.toList.takeWhile (· ≠ '.'))

/-- The first segment ends at the first dot. -/
theorem exists_segments_eq_cons (path : List Char) :
    ∃ others, segments path = path.takeWhile (· ≠ '.') :: others := by
  induction path with
  | nil => exact ⟨[], rfl⟩
  | cons c rest ih =>
    by_cases h : c = '.'
    · -- A dot in front leaves the first segment empty.
      refine ⟨segments rest, ?_⟩
      rw [segments, if_pos h, List.takeWhile_cons_of_neg (by simpa using h)]
    · rcases ih with ⟨others, hrest⟩
      refine ⟨others, ?_⟩
      rw [segments, if_neg h, hrest, List.takeWhile_cons_of_pos (by simpa using h)]

theorem exists_keys_eq_cons (path : String) : ∃ others, keys path = first path :: others := by
  rcases exists_segments_eq_cons path.toList with ⟨others, h⟩
  exact ⟨others.map String.ofList, by rw [keys, h, List.map_cons, first]⟩

theorem segments_of_notMem {path : List Char} (h : '.' ∉ path) : segments path = [path] := by
  induction path with
  | nil => rfl
  | cons c rest ih =>
    rw [List.mem_cons, not_or] at h
    rw [segments, if_neg (Ne.symm h.1), ih h.2]

/-- A path without a dot is a key. -/
theorem keys_of_notMem {path : String} (h : '.' ∉ path.toList) : keys path = [path] := by
  rw [keys, segments_of_notMem h, List.map_singleton, String.ofList_toList]

theorem toList_append (path other : String) :
    (path ++ "." ++ other).toList = path.toList ++ '.' :: other.toList := by
  rw [String.toList_append, String.toList_append, List.append_assoc]
  rfl

/-- A dot separates the keys of two paths. -/
theorem keys_append (path other : String) :
    keys (path ++ "." ++ other) = keys path ++ keys other := by
  rw [keys, toList_append, segments_append, List.map_append, keys, keys]

/-- The first dot ends the first key. -/
theorem first_append {path : String} (h : '.' ∉ path.toList) (other : String) :
    first (path ++ "." ++ other) = path := by
  have hkept : ∀ c ∈ path.toList, (decide (c ≠ '.')) = true :=
    fun c hc => decide_eq_true fun hdot => h (hdot ▸ hc)
  rw [first, toList_append, List.takeWhile_append_of_pos hkept,
    List.takeWhile_cons_of_neg (by decide), List.append_nil, String.ofList_toList]

/-- Only an object has something inside. -/
theorem walk_of_ne_object {value : Json} (h : ∀ members, value ≠ .object members) (path : String) :
    walk value (keys path) = none := by
  rcases exists_keys_eq_cons path with ⟨others, hkeys⟩
  rw [hkeys]
  cases value with
  | object members => exact absurd rfl (h members)
  | _ => rfl

end Dotted

/-- The values that count as absent. -/
inductive Json.Falsy : Json → Prop where
  /-- The literal `null`. -/
  | null : Falsy .null
  /-- The truth value false. -/
  | false : Falsy (.bool false)
  /-- The integer zero. -/
  | integer {n : Word} (h : n.val = 0) : Falsy (.number (.integer n))
  /-- The number zero, of either sign. -/
  | float {x : Binary64} (h : x.value = 0) : Falsy (.number (.float x))
  /-- The empty text. -/
  | string : Falsy (.string "")
  /-- The array without items. -/
  | array : Falsy (.array [])
  /-- The object without members. -/
  | object : Falsy (.object [])

/-- A value counts as absent just if it is one of those that do. -/
theorem Json.isFalsy_iff {value : Json} : value.isFalsy = true ↔ value.Falsy := by
  constructor
  · intro h
    cases value with
    | null => exact .null
    | bool value =>
      cases value with
      | false => exact .false
      | true => cases h
    | number value =>
      cases value with
      | integer n => exact .integer (beq_iff_eq.1 h)
      | float x => exact .float (Binary64.isZero_iff.1 h)
    | string value =>
      rw [String.isEmpty_iff.1 h]
      exact .string
    | array items =>
      rw [List.isEmpty_iff.1 h]
      exact .array
    | object members =>
      rw [List.isEmpty_iff.1 h]
      exact .object
  · intro h
    cases h with
    | integer h => exact beq_iff_eq.2 h
    | float h => exact Binary64.isZero_iff.2 h
    | _ => rfl

namespace Document

variable {document : Document} {path other : String}

/-- A path without a dot is a key. -/
theorem lookup_of_notMem (h : '.' ∉ path.toList) :
    document.lookup path = document.fields.lookup path := by
  rw [lookup, Dotted.keys_of_notMem h, toJson, Dotted.walk]
  cases document.fields.lookup path with
  | none => rfl
  | some value => rw [Option.bind_some, Dotted.walk]

/-- A path is read in two parts. -/
theorem lookup_append (document : Document) (path other : String) :
    document.lookup (path ++ "." ++ other) =
      (document.lookup path).bind fun value => Dotted.walk value (Dotted.keys other) := by
  rw [lookup, Dotted.keys_append, Dotted.walk_append, lookup]

/-- Where no object is, nothing can be read. -/
theorem lookup_append_of_ne_object (h : ∀ members, document.lookup path ≠ some (.object members))
    (other : String) : document.lookup (path ++ "." ++ other) = none := by
  rw [lookup_append]
  cases hvalue : document.lookup path with
  | none => rfl
  | some value =>
    refine Dotted.walk_of_ne_object (fun members hmembers => h members ?_) other
    rw [hvalue, hmembers]

/-- After a merge the first key decides what is read. -/
theorem lookup_merge_eq_ite (document updates : Document) (path : String) :
    (document.merge updates).lookup path =
      if Dotted.first path ∈ updates.keys then updates.lookup path else document.lookup path := by
  rcases Dotted.exists_keys_eq_cons path with ⟨others, hkeys⟩
  -- The document is asked for the first key only; the others are asked of the value.
  have hlookup (d : Document) : d.lookup path =
      (d.fields.lookup (Dotted.first path)).bind fun value => Dotted.walk value others := by
    rw [lookup, hkeys, toJson, Dotted.walk]
  rw [hlookup, hlookup, hlookup, lookup_fields_merge_eq_ite]
  by_cases h : Dotted.first path ∈ updates.keys
  · rw [if_pos h, if_pos h]
  · rw [if_neg h, if_neg h]

section Reads

variable (hpath : path ≠ "")
include hpath

/-- What does not count as absent is read. -/
theorem get_of_not_falsy {value : Json} (h : document.lookup path = some value)
    (hvalue : ¬ value.Falsy) (default : Json) : document.get (some path) default = value := by
  have hfalsy : value.isFalsy = false := Bool.eq_false_iff.2 (mt Json.isFalsy_iff.1 hvalue)
  simp only [get, String.isEmpty_eq_false_iff.2 hpath, h, hfalsy, Bool.false_eq_true, if_false]

/-- What counts as absent is not read. -/
theorem get_of_falsy (h : ∀ value, document.lookup path = some value → value.Falsy)
    (default : Json) : document.get (some path) default = default := by
  rcases get_eq_default_or_lookup document default (String.isEmpty_eq_false_iff.2 hpath) with
    hdefault | ⟨value, hvalue, hfalsy, -⟩
  · exact hdefault
  · -- Only a value that does not count as absent could have been read instead.
    rw [Json.isFalsy_iff.2 (h value hvalue)] at hfalsy
    cases hfalsy

end Reads

/-- Reading along paths is compositional. A path without a dot is a key. A path
    with a dot is read in two parts, the second one in the object that the
    first one finds, and there is nothing to read if that is no object. After a
    merge a path is read in the update if the update has the key in front of
    its first dot, and in the document otherwise; so what a replaced key held
    cannot be read any more. A read at a path that is not empty gives the value
    that is there unless it counts as absent, and the default otherwise. -/
theorem lookup_compositional (document updates : Document) (path other : String) :
    ('.' ∉ path.toList → document.lookup path = document.fields.lookup path) ∧
    (∀ inner : Document, document.lookup path = some inner.toJson →
      document.lookup (path ++ "." ++ other) = inner.lookup other) ∧
    ((∀ members, document.lookup path ≠ some (.object members)) →
      document.lookup (path ++ "." ++ other) = none) ∧
    ((document.merge updates).lookup path =
      if Dotted.first path ∈ updates.keys then updates.lookup path else document.lookup path) ∧
    ('.' ∉ path.toList → path ∈ updates.keys →
      (document.merge updates).lookup (path ++ "." ++ other) =
        updates.lookup (path ++ "." ++ other)) ∧
    (path ≠ "" → ∀ default,
      (∀ value, document.lookup path = some value → ¬ value.Falsy →
        document.get (some path) default = value) ∧
      ((∀ value, document.lookup path = some value → value.Falsy) →
        document.get (some path) default = default)) := by
  refine ⟨lookup_of_notMem, fun inner h => ?_, fun h => lookup_append_of_ne_object h other,
    lookup_merge_eq_ite document updates path, fun hdot hkey => ?_, fun hpath default => ⟨?_, ?_⟩⟩
  · rw [lookup_append, h, Option.bind_some, lookup]
  · rw [lookup_merge_eq_ite, Dotted.first_append hdot, if_pos hkey]
  · intro value h hvalue
    exact get_of_not_falsy hpath h hvalue default
  · intro h
    exact get_of_falsy hpath h default

/-- Paths with a dot at the end and with two dots in a row, over an object that
    is replaced. -/
theorem lookup_compositional_emptySegment :
    let zero : Json := .number (.integer ⟨0, by decide, by decide⟩)
    let inner := ofList [("b", zero), ("c", .bool true)]
    let document := ofList [("a", .object [("", inner.toJson)]), ("k", .null)]
    let updates := ofList [("a", .object [("x", .string "v")])]
    document.lookup "k" = some .null ∧
      document.lookup "a..c" = some (.bool true) ∧ document.lookup "k.c" = none ∧
      (document.merge updates).lookup "a..c" = none ∧
      document.get (some "a..c") .null = .bool true ∧
      document.get (some "a..b") (.string "none") = .string "none" := by
  intro zero inner document updates
  have hinner : document.lookup "a." = some inner.toJson := rfl
  have htrue : document.lookup "a..c" = some (.bool true) := rfl
  have hzero : document.lookup "a..b" = some zero := rfl
  rcases lookup_compositional document updates "k" "c" with ⟨hkey, -, hnull, -, -, -⟩
  rcases lookup_compositional document updates "a." "c" with ⟨-, hdot, -, -, -, -⟩
  rcases lookup_compositional document updates "a" ".c" with ⟨-, -, -, -, hreplaced, -⟩
  rcases lookup_compositional document updates "a..c" "" with ⟨-, -, -, -, -, hread⟩
  rcases lookup_compositional document updates "a..b" "" with ⟨-, -, -, -, -, hdefault⟩
  -- The default is read where a zero is, and what stood below the replaced key is gone.
  refine ⟨hkey (by decide), hdot inner hinner, hnull ?_, hreplaced (by decide) (by decide),
    (hread (by decide) .null).1 _ htrue ?_, (hdefault (by decide) (.string "none")).2 ?_⟩
  · intro members h
    cases h
  · intro h
    cases h
  · intro value h
    cases hzero.symm.trans h
    exact .integer rfl

end Document

end Fieldwork
