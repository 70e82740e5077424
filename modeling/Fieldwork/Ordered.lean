/-!
# Insertion-Ordered Maps

Maps as lists of key and value pairs, in the order in which the keys first
came.

Putting a value under a key that is there replaces the value and keeps the
place; a new key goes to the end. The order is part of what a reader of a
document sees, so two maps are equal here only if they hold the same pairs in
the same order. Lists whose keys are all different are what the operations
start from and what they keep; looking up a key takes the first pair that has
it.

## Main definitions

* `keys`: The keys in order.
* `insert`: Puts a value under a key.
* `merge`: Puts each pair of one map into another.
* `Distinct`: No key occurs twice.

## Theorems

* `keys_insert`: A key that is there keeps its place; a new one goes last.
* `lookup_insert`: What a look-up finds after an insertion.
* `distinct_insert`, `distinct_merge`: Keys stay different.
* `lookup_merge`: What a look-up finds after a merge.
-/

namespace Fieldwork

namespace Ordered

variable {κ α : Type} [DecidableEq κ]

/-- The keys in order. -/
def keys (entries : List (κ × α)) : List κ :=
  entries.map Prod.fst

/-- Puts a value under a key, in the key's place or at the end. -/
def insert (key : κ) (value : α) : List (κ × α) → List (κ × α)
  | [] => [(key, value)]
  | (k, v) :: rest => if k = key then (key, value) :: rest else (k, v) :: insert key value rest

/-- Puts each pair of `updates` into `base`, in order. -/
def merge (base updates : List (κ × α)) : List (κ × α) :=
  updates.foldl (fun entries entry => insert entry.1 entry.2 entries) base

/-- The map without a key. -/
def erase (key : κ) (entries : List (κ × α)) : List (κ × α) :=
  entries.filter fun entry => entry.1 ≠ key

/-- A map with each pair of a list put into it. -/
def ofList (entries : List (κ × α)) : List (κ × α) :=
  merge [] entries

/-- No key occurs twice. -/
def Distinct (entries : List (κ × α)) : Prop :=
  (keys entries).Nodup

instance (entries : List (κ × α)) : Decidable (Distinct entries) :=
  inferInstanceAs (Decidable (keys entries).Nodup)

/-- A key that is there keeps its place; a new one goes last. -/
theorem keys_insert (key : κ) (value : α) (entries : List (κ × α)) :
    keys (insert key value entries) =
      if key ∈ keys entries then keys entries else keys entries ++ [key] := by
  induction entries with
  | nil => simp [insert, keys]
  | cons entry rest ih =>
    obtain ⟨k, v⟩ := entry
    simp only [keys] at ih
    by_cases h : k = key
    · simp [insert, keys, h]
    · have hne : ¬ key = k := fun e => h e.symm
      simp only [insert, keys, h, if_false, List.map_cons, ih, List.mem_cons, hne, false_or]
      by_cases hm : key ∈ rest.map Prod.fst <;> simp [hm]

/-- What a look-up finds after an insertion. -/
theorem lookup_insert (key other : κ) (value : α) (entries : List (κ × α)) :
    (insert key value entries).lookup other =
      if other = key then some value else entries.lookup other := by
  induction entries with
  | nil =>
    by_cases h : other = key
    · simp [insert, h]
    · simp [insert, List.lookup_cons, h, beq_false_of_ne h]
  | cons entry rest ih =>
    obtain ⟨k, v⟩ := entry
    by_cases h : k = key
    · subst h
      by_cases ho : other = k
      · simp [insert, ho]
      · simp [insert, List.lookup_cons, ho, beq_false_of_ne ho]
    · by_cases hk : other = k
      · have ho : ¬ other = key := fun e => h (hk.symm.trans e)
        subst hk
        simp [insert, h]
      · simp [insert, List.lookup_cons, h, beq_false_of_ne hk, ih]

/-- Insertion keeps keys different. -/
theorem distinct_insert {key : κ} {value : α} {entries : List (κ × α)} (h : Distinct entries) :
    Distinct (insert key value entries) := by
  unfold Distinct at *
  rw [keys_insert]
  split
  · exact h
  · rw [List.nodup_append]
    -- The key goes last only because it is not there.
    refine ⟨h, by simp, ?_⟩
    intro a ha b hb
    simp only [List.mem_singleton] at hb
    subst hb
    intro e
    subst e
    exact absurd ha ‹_›

/-- A merge keeps keys different. -/
theorem distinct_merge {base updates : List (κ × α)} (h : Distinct base) :
    Distinct (merge base updates) := by
  unfold merge
  induction updates generalizing base with
  | nil => exact h
  | cons entry rest ih => exact ih (distinct_insert h)

/-- Every map made from a list has different keys. -/
theorem distinct_ofList (entries : List (κ × α)) : Distinct (ofList entries) :=
  distinct_merge List.nodup_nil

/-- Taking a key out keeps the others different. -/
theorem distinct_erase {key : κ} {entries : List (κ × α)} (h : Distinct entries) :
    Distinct (erase key entries) := by
  unfold Distinct keys erase at *
  exact h.sublist (List.Sublist.map _ List.filter_sublist)

/-- What a look-up finds after a merge: the last value that the updates give
    the key, or else what was there. -/
theorem lookup_merge (key : κ) (base updates : List (κ × α)) :
    (merge base updates).lookup key = (updates.reverse.lookup key).or (base.lookup key) := by
  unfold merge
  induction updates generalizing base with
  | nil => simp
  | cons entry rest ih =>
    obtain ⟨k, v⟩ := entry
    simp only [List.foldl_cons, ih, lookup_insert, List.reverse_cons, List.lookup_append]
    by_cases h : key = k
    · subst h
      simp
    · have hb : (key == k) = false := by simp [h]
      simp [h, List.lookup_cons, hb]

end Ordered

end Fieldwork
