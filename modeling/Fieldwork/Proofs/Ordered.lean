import Fieldwork.Ordered
import Mathlib.Data.List.Nodup

/-!
# Growing Ordered Maps

What insertions and merges do to the list of pairs itself.

The small lemmas beside the operations say what a look-up finds. Where two
programs keep the same map in two forms, as values and as text, the pairs have
to agree one by one and in order, so what is needed is the list: which pairs
are in it, and that a new key is appended.

A list with different keys has at most one pair for a key, so there a look-up
and membership say the same, and the order in which pairs are looked at does
not count.

## Main definitions

* `mapValues`: A map with a function applied to each value.

## Theorems

* `insert_of_notMem`, `insert_insert`, `insert_comm_of_mem`: A new key goes
  last; the later value of a key stays; a value is replaced before or after.
* `lookup_erase`: What a look-up finds after a key was taken out.
* `lookup_eq_some_iff_mem`, `lookup_reverse`: Look-ups among different keys.
* `forall_mem_merge`, `mem_merge_of_mem`, `mem_of_mem_merge`: The pairs of a
  merge.
* `merge_eq_self_iff`: When a merge changes nothing.
* `merge_of_distinct_append`: Merging new keys only.
* `lookup_merge_eq_ite`, `keys_merge`: The values and the keys of a merge.
* `merge_insert`, `merge_merge`, `perm_merge_merge`: Merges in turn.
* `mapValues_merge`: A function of the values goes through a merge.
-/

namespace Fieldwork

namespace Ordered

theorem keys_cons {κ α : Type} (entry : κ × α) (rest : List (κ × α)) :
    keys (entry :: rest) = entry.1 :: keys rest := rfl

variable {κ α : Type} [DecidableEq κ]

/-- A new key goes last. -/
theorem insert_of_notMem {key : κ} {entries : List (κ × α)} (h : key ∉ keys entries) (value : α) :
    insert key value entries = entries ++ [(key, value)] := by
  induction entries with
  | nil => rfl
  | cons entry rest ih =>
    rcases entry with ⟨k, v⟩
    simp only [keys, List.map_cons, List.mem_cons, not_or] at h
    rw [insert, if_neg (Ne.symm h.1), ih h.2, List.cons_append]

/-- The later value of a key stays. -/
theorem insert_insert (key : κ) (old value : α) (entries : List (κ × α)) :
    insert key value (insert key old entries) = insert key value entries := by
  induction entries with
  | nil => simp only [insert, if_true]
  | cons entry rest ih =>
    rcases entry with ⟨k, v⟩
    by_cases h : k = key
    · simp only [insert, h, if_true]
    · simp only [insert, h, if_false, ih]

/-- A value that is replaced and another one that is put in do not get into
    each other's way. -/
theorem insert_comm_of_mem {key other : κ} (hne : key ≠ other) (value another : α)
    {entries : List (κ × α)} (h : key ∈ keys entries) :
    insert key value (insert other another entries) =
      insert other another (insert key value entries) := by
  induction entries with
  | nil => exact absurd h List.not_mem_nil
  | cons entry rest ih =>
    rcases entry with ⟨k, v⟩
    -- The key is there, so it is replaced in place and nothing is added behind the
    -- other.
    by_cases hkey : k = key
    · have hother : ¬ key = other := hne
      subst hkey
      simp only [insert, hother, if_false, if_true]
    · have hrest : key ∈ keys rest :=
        (List.mem_cons.1 h).resolve_left fun e => hkey e.symm
      by_cases hother : k = other
      · subst hother
        simp only [insert, hkey, if_false, if_true]
      · simp only [insert, hkey, hother, if_false, ih hrest]

/-- What a look-up finds after a key was taken out. -/
theorem lookup_erase (key other : κ) (entries : List (κ × α)) :
    (erase key entries).lookup other = if other = key then none else entries.lookup other := by
  induction entries with
  | nil => simp [erase]
  | cons entry rest ih =>
    rcases entry with ⟨k, v⟩
    unfold erase at ih ⊢
    by_cases h : k = key
    · -- The pair is dropped, and no look-up of another key had found it.
      rw [List.filter_cons_of_neg (by simp [h]), ih]
      by_cases ho : other = key
      · rw [if_pos ho, if_pos ho]
      · rw [if_neg ho, if_neg ho, List.lookup_cons, beq_false_of_ne (h ▸ ho)]
    · rw [List.filter_cons_of_pos (by simp [h]), List.lookup_cons, List.lookup_cons, ih]
      by_cases ho : other = k
      · have hkey : other ≠ key := fun e => h (ho.symm.trans e)
        rw [beq_iff_eq.2 ho, if_neg hkey, if_neg hkey]
      · rw [beq_false_of_ne ho]

/-- Among different keys a look-up finds the pairs that are there. -/
theorem lookup_eq_some_iff_mem {entries : List (κ × α)} (h : Distinct entries) {key : κ}
    {value : α} : entries.lookup key = some value ↔ (key, value) ∈ entries := by
  induction entries with
  | nil => simp
  | cons entry rest ih =>
    rcases entry with ⟨k, v⟩
    simp only [Distinct, keys, List.map_cons, List.nodup_cons] at h
    by_cases hk : key = k
    · subst hk
      rw [List.lookup_cons, beq_self_eq_true, List.mem_cons, Option.some.injEq, Prod.mk.injEq]
      -- The key is at the front, so no later pair has it.
      have hrest : (key, value) ∉ rest := fun hm => h.1 (List.mem_map_of_mem hm)
      constructor
      · intro e
        exact Or.inl ⟨rfl, e.symm⟩
      · rintro (⟨-, e⟩ | hm)
        · exact e.symm
        · exact absurd hm hrest
    · rw [List.lookup_cons, beq_false_of_ne hk, List.mem_cons, Prod.mk.injEq]
      exact (ih h.2).trans ⟨Or.inr, fun hm => hm.resolve_left fun e => hk e.1⟩

/-- Among different keys the order does not count for a look-up. -/
theorem lookup_reverse {entries : List (κ × α)} (h : Distinct entries) (key : κ) :
    entries.reverse.lookup key = entries.lookup key := by
  have hreverse : Distinct entries.reverse := by
    rw [Distinct, keys, List.map_reverse]
    exact List.nodup_reverse.2 h
  apply Option.ext
  intro value
  rw [lookup_eq_some_iff_mem hreverse, lookup_eq_some_iff_mem h, List.mem_reverse]

/-- What holds of every pair holds of every pair of an insertion. -/
theorem forall_mem_insert {p : κ × α → Prop} {key : κ} (value : α) {entries : List (κ × α)}
    (hv : p (key, value)) (he : ∀ entry ∈ entries, p entry) :
    ∀ entry ∈ insert key value entries, p entry := by
  induction entries with
  | nil => exact List.forall_mem_singleton.2 hv
  | cons first rest ih =>
    rcases List.forall_mem_cons.1 he with ⟨hfirst, hrest⟩
    rw [insert]
    split
    · exact List.forall_mem_cons.2 ⟨hv, hrest⟩
    · exact List.forall_mem_cons.2 ⟨hfirst, ih hrest⟩

/-- What holds of every pair of both parts holds of every pair of a merge. -/
theorem forall_mem_merge {p : κ × α → Prop} {base updates : List (κ × α)}
    (hb : ∀ entry ∈ base, p entry) (hu : ∀ entry ∈ updates, p entry) :
    ∀ entry ∈ merge base updates, p entry := by
  unfold merge
  induction updates generalizing base with
  | nil => exact hb
  | cons first rest ih =>
    rcases List.forall_mem_cons.1 hu with ⟨hfirst, hrest⟩
    exact ih (forall_mem_insert first.2 hfirst hb) hrest

theorem lookup_merge_of_distinct {updates : List (κ × α)} (h : Distinct updates)
    (base : List (κ × α)) (key : κ) :
    (merge base updates).lookup key = (updates.lookup key).or (base.lookup key) := by
  rw [lookup_merge, lookup_reverse h]

/-- Every pair of the updates is in the merge. -/
theorem mem_merge_of_mem {base updates : List (κ × α)} (hb : Distinct base)
    (hu : Distinct updates) {entry : κ × α} (h : entry ∈ updates) : entry ∈ merge base updates := by
  rcases entry with ⟨key, value⟩
  -- A pair is there just if it is found, and what is sent last is found first.
  rw [← lookup_eq_some_iff_mem (distinct_merge hb), lookup_merge_of_distinct hu,
    (lookup_eq_some_iff_mem hu).2 h, Option.some_or]

/-- Every pair of a merge comes from one of the two parts. -/
theorem mem_of_mem_merge {base updates : List (κ × α)} {entry : κ × α}
    (h : entry ∈ merge base updates) : entry ∈ base ∨ entry ∈ updates :=
  forall_mem_merge (p := fun entry => entry ∈ base ∨ entry ∈ updates) (fun _ => Or.inl)
    (fun _ => Or.inr) entry h

/-- A pair that is there is not put in again. -/
theorem insert_of_mem {key : κ} {value : α} {entries : List (κ × α)} (h : Distinct entries)
    (hmem : (key, value) ∈ entries) : insert key value entries = entries := by
  induction entries with
  | nil => cases hmem
  | cons entry rest ih =>
    rcases entry with ⟨k, v⟩
    simp only [Distinct, keys, List.map_cons, List.nodup_cons] at h
    rcases List.mem_cons.1 hmem with heq | hrest
    · cases heq
      rw [insert, if_pos rfl]
    · -- The key is further on, so it is not the first one.
      have hne : k ≠ key := by
        rintro rfl
        exact h.1 (List.mem_map_of_mem hrest)
      rw [insert, if_neg hne, ih h.2 hrest]

/-- A merge changes nothing exactly when every pair of the updates is there. -/
theorem merge_eq_self_iff {base updates : List (κ × α)} (hb : Distinct base)
    (hu : Distinct updates) : merge base updates = base ↔ ∀ entry ∈ updates, entry ∈ base := by
  constructor
  · intro h entry hentry
    rw [← h]
    exact mem_merge_of_mem hb hu hentry
  · intro h
    clear hu
    unfold merge
    -- A pair that is there already is put in without a trace.
    induction updates with
    | nil => rfl
    | cons entry rest ih =>
      rcases List.forall_mem_cons.1 h with ⟨hentry, hrest⟩
      rw [List.foldl_cons, insert_of_mem hb hentry]
      exact ih hrest

omit [DecidableEq κ] in
/-- Among different keys the ones behind are not among those in front. -/
theorem notMem_keys_of_distinct_append {front rest : List (κ × α)} {key : κ} {value : α}
    (h : Distinct (front ++ (key, value) :: rest)) : key ∉ keys front := by
  intro hmem
  rw [Distinct, keys, List.map_append, List.map_cons, List.nodup_append] at h
  exact h.2.2 key hmem key List.mem_cons_self rfl

/-- Merging new keys appends them. -/
theorem merge_of_distinct_append (base : List (κ × α)) {updates : List (κ × α)}
    (h : Distinct (base ++ updates)) :
    merge base updates = base ++ updates := by
  induction updates generalizing base with
  | nil => exact (List.append_nil base).symm
  | cons entry rest ih =>
    rcases entry with ⟨key, value⟩
    -- One insertion appends one pair, so the rest is merged into a longer base.
    have hinsert : merge base ((key, value) :: rest) = merge (base ++ [(key, value)]) rest := by
      rw [← insert_of_notMem (notMem_keys_of_distinct_append h)]
      rfl
    rw [hinsert, ih _ (by rwa [List.append_assoc]), List.append_assoc]
    rfl

section Laws

variable {base updates later : List (κ × α)} {key : κ}

/-- A key that is not there is not found. -/
theorem lookup_eq_none_iff : base.lookup key = none ↔ key ∉ keys base := by
  rw [List.lookup_eq_none_iff]
  constructor
  · intro h hmem
    rcases List.mem_map.1 hmem with ⟨entry, hentry, rfl⟩
    exact bne_iff_ne.1 (h entry hentry) rfl
  · intro h entry hentry
    rw [bne_iff_ne]
    rintro rfl
    exact h (List.mem_map_of_mem hentry)

/-- A look-up after a merge asks one of the two parts. -/
theorem lookup_merge_eq_ite (h : Distinct updates) (base : List (κ × α)) (key : κ) :
    (merge base updates).lookup key =
      if key ∈ keys updates then updates.lookup key else base.lookup key := by
  rw [lookup_merge_of_distinct h]
  by_cases hkey : key ∈ keys updates
  · rw [if_pos hkey]
    rcases Option.ne_none_iff_exists.1 (mt lookup_eq_none_iff.1 (not_not_intro hkey)) with
      ⟨value, hvalue⟩
    rw [← hvalue, Option.some_or]
  · rw [if_neg hkey, lookup_eq_none_iff.2 hkey, Option.none_or]

/-- A value that is replaced may be replaced before others are merged. -/
theorem insert_merge_of_mem (value : α) (hbase : key ∈ keys base) (hupdates : key ∉ keys updates) :
    insert key value (merge base updates) = merge (insert key value base) updates := by
  unfold merge
  induction updates generalizing base with
  | nil => rfl
  | cons entry rest ih =>
    rw [keys_cons, List.mem_cons, not_or] at hupdates
    have hmem : key ∈ keys (insert entry.1 entry.2 base) := by
      rw [keys_insert]
      split
      · exact hbase
      · exact List.mem_append_left _ hbase
    -- The replacement is put in front of one insertion of another key after the other.
    rw [List.foldl_cons, List.foldl_cons, ih hmem hupdates.2,
      insert_comm_of_mem hupdates.1 value entry.2 hbase]

/-- What is put into the updates is put into the merge, in the same place. -/
theorem merge_insert (h : Distinct updates) (base : List (κ × α)) (key : κ) (value : α) :
    merge base (insert key value updates) = insert key value (merge base updates) := by
  -- By induction on the updates, up to the pair whose value the insertion replaces.
  induction updates generalizing base with
  | nil => rfl
  | cons entry rest ih =>
    rcases entry with ⟨k, v⟩
    rw [Distinct, keys_cons, List.nodup_cons] at h
    have hcons (w : α) : merge base ((k, w) :: rest) = merge (insert k w base) rest := rfl
    by_cases hk : k = key
    · subst hk
      -- The key has its place in the base by then, and the rest leaves it alone.
      have hmem : k ∈ keys (insert k v base) := by
        rw [keys_insert]
        split
        · assumption
        · exact List.mem_append_right _ List.mem_cons_self
      rw [insert, if_pos rfl, hcons, hcons, insert_merge_of_mem value hmem h.1, insert_insert]
    · rw [insert, if_neg hk, hcons]
      exact ih h.2 (insert k v base)

/-- Merging twice is merging what was merged. -/
theorem merge_merge (h : Distinct updates) (base later : List (κ × α)) :
    merge (merge base updates) later = merge base (merge updates later) := by
  -- By induction on the later pairs, each of which is put into the updates before the rest.
  induction later generalizing updates with
  | nil => rfl
  | cons entry rest ih =>
    have hcons (entries : List (κ × α)) :
        merge entries (entry :: rest) = merge (insert entry.1 entry.2 entries) rest := rfl
    rw [hcons, hcons, ← merge_insert h, ih (distinct_insert h)]

/-- New keys go last, in the order in which they come. -/
theorem keys_merge (h : Distinct updates) (base : List (κ × α)) :
    keys (merge base updates) = keys base ++ (keys updates).filter (· ∉ keys base) := by
  induction updates generalizing base with
  | nil => exact (List.append_nil _).symm
  | cons entry rest ih =>
    rcases entry with ⟨k, v⟩
    rw [Distinct, keys_cons, List.nodup_cons] at h
    have hcons : merge base ((k, v) :: rest) = merge (insert k v base) rest := rfl
    rw [hcons, ih h.2, keys_insert, keys_cons]
    by_cases hk : k ∈ keys base
    · rw [if_pos hk, List.filter_cons_of_neg (by simpa using hk)]
    · -- No later key is the new one, so the filter is the same as before.
      have hfilter : (keys rest).filter (· ∉ keys base ++ [k]) =
          (keys rest).filter (· ∉ keys base) := by
        refine List.filter_congr fun other hother => ?_
        have hne : other ≠ k := fun e => h.1 (e ▸ hother)
        simp only [List.mem_append, List.mem_singleton, hne, or_false]
      rw [if_neg hk, List.filter_cons_of_pos (by simpa using hk), hfilter, List.append_assoc]
      rfl

omit [DecidableEq κ] in
theorem Distinct.nodup (h : Distinct base) : base.Nodup :=
  List.Nodup.of_map Prod.fst h

/-- Updates without a common key can be merged in either order, apart from the
    order of keys. -/
theorem perm_merge_merge (hbase : Distinct base) (hupdates : Distinct updates)
    (hlater : Distinct later) (h : ∀ key ∈ keys updates, key ∉ keys later) :
    (merge (merge base updates) later).Perm (merge (merge base later) updates) := by
  have hleft : Distinct (merge (merge base updates) later) := distinct_merge (distinct_merge hbase)
  have hright : Distinct (merge (merge base later) updates) := distinct_merge (distinct_merge hbase)
  rw [List.perm_ext_iff_of_nodup hleft.nodup hright.nodup]
  rintro ⟨key, value⟩
  rw [← lookup_eq_some_iff_mem hleft, ← lookup_eq_some_iff_mem hright,
    lookup_merge_of_distinct hlater, lookup_merge_of_distinct hupdates,
    lookup_merge_of_distinct hupdates, lookup_merge_of_distinct hlater]
  -- One of the two look-ups finds nothing, so it does not count which is asked first.
  by_cases hkey : key ∈ keys updates
  · rw [lookup_eq_none_iff.2 (h key hkey), Option.none_or, Option.none_or]
  · rw [lookup_eq_none_iff.2 hkey, Option.none_or, Option.none_or]

end Laws

section Values

variable {β : Type}

/-- The map with a function applied to each value. -/
def mapValues (f : α → β) (entries : List (κ × α)) : List (κ × β) :=
  entries.map fun entry => (entry.1, f entry.2)

omit [DecidableEq κ] in
theorem keys_mapValues (f : α → β) (entries : List (κ × α)) :
    keys (mapValues f entries) = keys entries := by
  rw [mapValues, keys, keys, List.map_map]
  rfl

omit [DecidableEq κ] in
theorem distinct_mapValues (f : α → β) {entries : List (κ × α)} (h : Distinct entries) :
    Distinct (mapValues f entries) := by
  rwa [Distinct, keys_mapValues]

theorem mapValues_insert (f : α → β) (key : κ) (value : α) (entries : List (κ × α)) :
    mapValues f (insert key value entries) = insert key (f value) (mapValues f entries) := by
  induction entries with
  | nil => rfl
  | cons entry rest ih =>
    rcases entry with ⟨k, v⟩
    simp only [mapValues, List.map_cons, insert] at ih ⊢
    split
    · rfl
    · rw [List.map_cons, ih]

/-- A function of the values goes through a merge. -/
theorem mapValues_merge (f : α → β) (base updates : List (κ × α)) :
    mapValues f (merge base updates) = merge (mapValues f base) (mapValues f updates) := by
  unfold merge
  induction updates generalizing base with
  | nil => rfl
  | cons entry rest ih =>
    rw [List.foldl_cons, ih, mapValues_insert]
    rfl

theorem lookup_mapValues (f : α → β) (key : κ) (entries : List (κ × α)) :
    (mapValues f entries).lookup key = (entries.lookup key).map f := by
  induction entries with
  | nil => rfl
  | cons entry rest ih =>
    rcases entry with ⟨k, v⟩
    have hcons : mapValues f ((k, v) :: rest) = (k, f v) :: mapValues f rest := rfl
    rw [hcons, List.lookup_cons, List.lookup_cons, ih]
    cases key == k <;> rfl

end Values

end Ordered

end Fieldwork
