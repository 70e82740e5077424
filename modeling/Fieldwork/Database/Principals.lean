import Fieldwork.Identifier
import Fieldwork.Ordered

/-!
# Principal Tables

The principals that a database knows, and a detail text for some of them.

A principal is registered under a key. Keys only grow: one that was used is
not used again, even after its principal is gone, so the order of the keys is
the order of registration for good. A key is also used up by a principal that
is registered already, so there are gaps. A detail belongs to a key, and goes
when its principal goes.

What the schema declares is part of the type: keys differ and grow, a
principal is registered once, a key has one detail, and every detail has its
principal.

## Main definitions

* `PrincipalTables`: Principals and details.
* `PrincipalTables.useKey`: A key is gone.
* `PrincipalTables.register`, `PrincipalTables.forget`: Come and go.
* `PrincipalTables.setDetail`: A detail for a key.

## Theorems

* `register_of_isSome_key?`: A principal is registered once.
* `details_register`: Registration touches no detail.
-/

namespace Fieldwork

/-- Principals under keys, and details under some of the keys. -/
@[ext]
structure PrincipalTables where
  /-- The principals in the order of their keys. -/
  principals : List (Nat × PrincipalId)
  /-- The detail texts. -/
  details : List (Nat × String)
  /-- The greatest key that was ever used. -/
  lastKey : Nat
  /-- Keys grow. -/
  ascending : (Ordered.keys principals).Pairwise (· < ·)
  /-- A key is at least one, and was used. -/
  used : ∀ key ∈ Ordered.keys principals, 0 < key ∧ key ≤ lastKey
  /-- A principal is registered once. -/
  named : (principals.map Prod.snd).Nodup
  /-- A key has one detail. -/
  distinct : Ordered.Distinct details
  /-- A detail has its principal. -/
  owned : ∀ key ∈ Ordered.keys details, key ∈ Ordered.keys principals
  deriving DecidableEq

namespace PrincipalTables

/-- Tables without rows. -/
def empty : PrincipalTables where
  principals := []
  details := []
  lastKey := 0
  ascending := List.Pairwise.nil
  used := by simp [Ordered.keys]
  named := List.nodup_nil
  distinct := List.nodup_nil
  owned := by simp [Ordered.keys]

instance : Inhabited PrincipalTables := ⟨empty⟩

/-- The key of a principal. -/
def key? (tables : PrincipalTables) (principal : PrincipalId) : Option Nat :=
  (tables.principals.find? fun entry => entry.2 = principal).map Prod.fst

/-- The detail text of a principal. -/
def detail? (tables : PrincipalTables) (principal : PrincipalId) : Option String :=
  (tables.key? principal).bind fun key => tables.details.lookup key

/-- A principal without a key is not registered. -/
theorem not_mem_of_key?_eq_none {principal : PrincipalId} {tables : PrincipalTables}
    (h : tables.key? principal = none) : principal ∉ tables.principals.map Prod.snd := by
  simp only [key?, Option.map_eq_none_iff, List.find?_eq_none, decide_eq_true_eq] at h
  intro hm
  obtain ⟨entry, he, e⟩ := List.mem_map.1 hm
  exact h entry he e

/-- Uses up the next key for nothing. -/
def useKey (tables : PrincipalTables) : PrincipalTables :=
  { tables with
    lastKey := tables.lastKey + 1
    used := fun key hk => ⟨(tables.used key hk).1, Nat.le_succ_of_le (tables.used key hk).2⟩ }

/-- Registers a principal under the next key. The key is used up also if the
    principal is registered already. -/
def register (principal : PrincipalId) (tables : PrincipalTables) : PrincipalTables :=
  match h : tables.key? principal with
  | some _ => tables.useKey
  | none =>
    { tables with
      principals := tables.principals ++ [(tables.lastKey + 1, principal)]
      lastKey := tables.lastKey + 1
      ascending := by
        have hlast := tables.used
        simp only [Ordered.keys, List.map_append, List.pairwise_append] at hlast ⊢
        -- The new key is beyond all that were ever used.
        refine ⟨tables.ascending, by simp, ?_⟩
        intro a ha b hb
        have := hlast a ha
        simp only [List.map_cons, List.map_nil, List.mem_singleton] at hb
        omega
      used := by
        intro key hk
        simp only [Ordered.keys, List.map_append, List.mem_append] at hk
        rcases hk with hk | hk
        · have := tables.used key hk
          omega
        · simp only [List.map_cons, List.map_nil, List.mem_singleton] at hk
          omega
      named := by
        rw [List.map_append, List.nodup_append]
        refine ⟨tables.named, by simp, ?_⟩
        intro a ha b hb e
        simp only [List.map_cons, List.map_nil, List.mem_singleton] at hb
        subst hb
        exact not_mem_of_key?_eq_none h (e ▸ ha)
      owned := by
        intro key hk
        simp only [Ordered.keys, List.map_append, List.mem_append]
        exact Or.inl (tables.owned key hk) }

/-- Takes a principal out with its detail, and says how many rows it had. -/
def forget (principal : PrincipalId) (tables : PrincipalTables) : Nat × PrincipalTables :=
  match tables.key? principal with
  | none => (0, tables)
  | some key =>
    (1, { tables with
      principals := Ordered.erase key tables.principals
      details := Ordered.erase key tables.details
      ascending := tables.ascending.sublist (List.filter_sublist.map _)
      used := fun k hk => tables.used k ((List.filter_sublist.map Prod.fst).subset hk)
      named := tables.named.sublist (List.filter_sublist.map _)
      distinct := Ordered.distinct_erase tables.distinct
      owned := by
        intro k hk
        obtain ⟨entry, he, rfl⟩ := List.mem_map.1 hk
        obtain ⟨he, hne⟩ := List.mem_filter.1 he
        obtain ⟨owner, ho, e⟩ := List.mem_map.1 (tables.owned _ (List.mem_map_of_mem he))
        refine List.mem_map.2 ⟨owner, List.mem_filter.2 ⟨ho, ?_⟩, e⟩
        rw [e]
        exact hne })

/-- Puts a detail text under the key of a principal, in the place of an
    older one. -/
def setDetail (key : Nat) (text : String) (tables : PrincipalTables) : PrincipalTables :=
  if h : key ∈ Ordered.keys tables.principals then
    { tables with
      details := Ordered.insert key text tables.details
      distinct := Ordered.distinct_insert tables.distinct
      owned := by
        intro k hk
        rw [Ordered.keys_insert] at hk
        split at hk
        · exact tables.owned k hk
        · rcases List.mem_append.1 hk with hk | hk
          · exact tables.owned k hk
          · exact (List.mem_singleton.1 hk) ▸ h }
  else tables

/-- Whether a key has a detail text. -/
def hasDetail (tables : PrincipalTables) (key : Nat) : Bool :=
  (tables.details.lookup key).isSome

/-- A principal that is registered is not registered again. -/
theorem register_of_isSome_key? {principal : PrincipalId} {tables : PrincipalTables}
    (h : (tables.key? principal).isSome = true) : tables.register principal = tables.useKey := by
  unfold register
  split
  · rfl
  · simp_all

/-- Registration touches no detail. -/
theorem details_register (principal : PrincipalId) (tables : PrincipalTables) :
    (tables.register principal).details = tables.details := by
  unfold register
  split <;> rfl

end PrincipalTables

end Fieldwork
