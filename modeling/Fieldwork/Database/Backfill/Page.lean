import Fieldwork.Database.Principals
import Fieldwork.Json.Text

/-!
# Backfill Pages

One step of a backfill: a few principals get a blank detail.

A page takes the next keys without a detail, in order, beyond the last key of
the page before. A detail that is there is never replaced, so a page can be
done again at no harm. The keys still to do get fewer with every page that has
one, which is why a backfill ends.

## Main definitions

* `firstWhere`: The first elements of a list that pass a test.
* `PrincipalTables.pending`: The keys still to do.
* `PrincipalTables.fillPage`: One page.

## Theorems

* `firstWhere_eq_take`: They are the first of those that pass.
* `details_fillPage`: A page adds to the details and changes none.
* `pending_fillPage_lt`: A page that has a key leaves fewer to do.
-/

namespace Fieldwork

/-- The first elements of a list that pass a test, at most `count`. -/
def firstWhere {α : Type} (keep : α → Bool) : Nat → List α → List α
  | 0, _ => []
  | _ + 1, [] => []
  | count + 1, x :: rest =>
    if keep x then x :: firstWhere keep count rest else firstWhere keep (count + 1) rest

/-- They are the first of those that pass. -/
theorem firstWhere_eq_take {α : Type} (keep : α → Bool) (count : Nat) (items : List α) :
    firstWhere keep count items = (items.filter keep).take count := by
  fun_induction firstWhere keep count items with
  | case1 => simp
  | case2 => simp
  | case3 count x rest h ih => simp [h, ih]
  | case4 count x rest h ih => simp [h, ih]

namespace PrincipalTables

/-- The text of a detail that says nothing yet. -/
def blankDetail : String :=
  (Json.object [("name", .string ""), ("organization", .string "")]).compact

/-- Whether a key beyond `last` has no detail. -/
def isPending (tables : PrincipalTables) (last key : Nat) : Bool :=
  last < key && !tables.hasDetail key

/-- The keys beyond `last` that have no detail. -/
def pending (tables : PrincipalTables) (last : Nat) : List Nat :=
  (Ordered.keys tables.principals).filter (tables.isPending last)

/-- The keys of the next page. -/
def pageKeys (tables : PrincipalTables) (size last : Nat) : List Nat :=
  firstWhere (tables.isPending last) size (Ordered.keys tables.principals)

/-- A page has the first of the keys that are still to do. -/
theorem pageKeys_eq_take (tables : PrincipalTables) (size last : Nat) :
    tables.pageKeys size last = (tables.pending last).take size :=
  firstWhere_eq_take _ _ _

/-- The keys of a page are still to do. -/
theorem mem_pending_of_mem_pageKeys {tables : PrincipalTables} {size last key : Nat}
    (h : key ∈ tables.pageKeys size last) : key ∈ tables.pending last := by
  rw [pageKeys_eq_take] at h
  exact List.mem_of_mem_take h

/-- The keys of a page are those of principals. -/
theorem mem_keys_of_mem_pageKeys {tables : PrincipalTables} {size last key : Nat}
    (h : key ∈ tables.pageKeys size last) : key ∈ Ordered.keys tables.principals :=
  (List.mem_filter.1 (mem_pending_of_mem_pageKeys h)).1

/-- The keys of a page are beyond the last key and have no detail. -/
theorem isPending_of_mem_pageKeys {tables : PrincipalTables} {size last key : Nat}
    (h : key ∈ tables.pageKeys size last) : tables.isPending last key = true :=
  (List.mem_filter.1 (mem_pending_of_mem_pageKeys h)).2

/-- The keys of a page grow. -/
theorem pairwise_pageKeys (tables : PrincipalTables) (size last : Nat) :
    (tables.pageKeys size last).Pairwise (· < ·) := by
  rw [pageKeys_eq_take]
  exact tables.ascending.sublist ((List.take_sublist _ _).trans List.filter_sublist)

/-- A key with a detail is one of the keys of the details. -/
theorem hasDetail_iff {tables : PrincipalTables} {key : Nat} :
    tables.hasDetail key = true ↔ key ∈ Ordered.keys tables.details := by
  unfold hasDetail
  induction tables.details with
  | nil => simp [Ordered.keys]
  | cons entry rest ih =>
    obtain ⟨k, v⟩ := entry
    simp only [Ordered.keys] at ih
    by_cases h : key = k
    · simp [Ordered.keys, h]
    · simp [Ordered.keys, List.lookup_cons, h, beq_false_of_ne h, ih]

/-- Details with blank ones for a list of keys behind them. -/
def withBlanks (details : List (Nat × String)) (keys : List Nat) : List (Nat × String) :=
  details ++ keys.map fun key => (key, blankDetail)

/-- The keys of details with blank ones behind them. -/
theorem keys_withBlanks (details : List (Nat × String)) (keys : List Nat) :
    Ordered.keys (withBlanks details keys) = Ordered.keys details ++ keys := by
  simp [withBlanks, Ordered.keys, List.map_map, Function.comp_def]

/-- One page: its last key, if it has any, and how many rows it makes. -/
def fillPage (size last : Nat) (tables : PrincipalTables) : (Option Nat × Nat) × PrincipalTables :=
  let page := tables.pageKeys size last
  ((page.getLast?, page.length),
    { tables with
      details := withBlanks tables.details (tables.pageKeys size last)
      distinct := by
        rw [Ordered.Distinct, keys_withBlanks, List.nodup_append]
        refine ⟨tables.distinct,
          (tables.pairwise_pageKeys size last).imp fun h => Nat.ne_of_lt h, ?_⟩
        intro a ha b hb e
        -- A key of the page has no detail yet, so it is not among the old ones.
        have h := isPending_of_mem_pageKeys hb
        simp only [isPending, Bool.and_eq_true, Bool.not_eq_true'] at h
        rw [← e, hasDetail_iff.2 ha] at h
        simp at h
      owned := by
        intro key h
        rw [keys_withBlanks, List.mem_append] at h
        exact h.elim (tables.owned key) mem_keys_of_mem_pageKeys })

/-- A page touches no principal. -/
theorem principals_fillPage (size last : Nat) (tables : PrincipalTables) :
    (fillPage size last tables).2.principals = tables.principals := rfl

/-- A page adds to the details and changes none. -/
theorem details_fillPage (size last : Nat) (tables : PrincipalTables) :
    (fillPage size last tables).2.details =
      withBlanks tables.details (tables.pageKeys size last) := rfl

/-- After a page the keys with a detail are those before it and its own. -/
theorem hasDetail_fillPage_iff {size last key : Nat} {tables : PrincipalTables} :
    (fillPage size last tables).2.hasDetail key = true ↔
      tables.hasDetail key = true ∨ key ∈ tables.pageKeys size last := by
  rw [hasDetail_iff, details_fillPage, keys_withBlanks, List.mem_append, hasDetail_iff]

/-- A filter that keeps less, and drops one element for certain, gives a
    shorter list. -/
theorem length_filter_lt {items : List Nat} {keep more : Nat → Bool}
    (h : ∀ x, keep x = true → more x = true) {x : Nat} (hx : x ∈ items) (hm : more x = true)
    (hk : keep x = false) : (items.filter keep).length < (items.filter more).length := by
  -- What is kept is kept of the longer list too, which loses an element by it.
  have hkeep : items.filter keep = (items.filter more).filter keep := by
    rw [List.filter_filter]
    refine List.filter_congr fun y _ => ?_
    cases hy : keep y with
    | false => rfl
    | true => rw [h y hy]; rfl
  rw [hkeep, List.length_filter_lt_length_iff_exists]
  exact ⟨x, List.mem_filter.2 ⟨hx, hm⟩, by rw [hk]; exact Bool.false_ne_true⟩

/-- A page that has a key leaves fewer to do. -/
theorem pending_fillPage_lt {size last key made : Nat} {tables after : PrincipalTables}
    (h : fillPage size last tables = ((some key, made), after)) :
    (after.pending key).length < (tables.pending last).length := by
  have hlast : (tables.pageKeys size last).getLast? = some key :=
    congrArg (fun r => r.1.1) h
  have hafter : after = (fillPage size last tables).2 := by rw [h]
  have hmem : key ∈ tables.pageKeys size last := List.mem_of_getLast? hlast
  have hkey := isPending_of_mem_pageKeys hmem
  subst hafter
  unfold pending
  rw [principals_fillPage]
  -- The last key of the page was to do before and is not beyond itself.
  refine length_filter_lt (x := key) ?_ (mem_keys_of_mem_pageKeys hmem) hkey (by simp [isPending])
  intro x hx
  simp only [isPending, Bool.and_eq_true, decide_eq_true_eq, Bool.not_eq_true'] at hx hkey ⊢
  refine ⟨by omega, ?_⟩
  cases hd : tables.hasDetail x with
  | false => rfl
  | true => rw [hasDetail_fillPage_iff.2 (Or.inl hd)] at hx; simp at hx

end PrincipalTables

end Fieldwork
