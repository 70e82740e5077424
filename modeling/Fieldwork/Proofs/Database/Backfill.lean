import Fieldwork.Database.Backfill.Run
import Mathlib.Data.List.Nodup

/-!
# What a Backfill Leaves

A backfill as a whole, whatever the size of its pages.

A page is chosen by what is missing beyond the last key of the page before,
and each page changes what is missing. What makes the pages add up is that the
keys grow: the keys of a page are the first that are missing, so those still
missing beyond its last key are exactly the others. The run is therefore a
walk through one list that is fixed when it starts, `size` keys at a time, and
what it reports is read off the length of that list.

Key zero is never used, so a run that starts behind it misses nobody.

## Main definitions

* `PrincipalTables.lacking`: The keys of the principals without a detail.
* `PrincipalTables.Filled`: Tables with a blank detail wherever one was
  missing.

## Theorems

* `pending_fillPage`: What is still to do after a page.
* `fillFrom_eq`: The report of all pages.
* `filled_fillFrom`: The tables after all pages.
* `backfill_eq`: The run of a database whose tables are there.
* `backfill_fills_details`: What a run leaves, reports and records.
-/

namespace Fieldwork

namespace PrincipalTables

/-- The keys of the principals without a detail. -/
def lacking (tables : PrincipalTables) : List Nat :=
  (Ordered.keys tables.principals).filter fun key => (tables.details.lookup key).isNone

/-- Tables that got a blank detail for every key beyond `last` that had none,
    and are otherwise as before. -/
structure Filled (tables : PrincipalTables) (last : Nat) (final : PrincipalTables) : Prop where
  /-- The principals are the same. -/
  principals : final.principals = tables.principals
  /-- No key was used. -/
  lastKey : final.lastKey = tables.lastKey
  /-- The new details are behind the old ones. -/
  details : final.details = withBlanks tables.details (tables.pending last)

section Page

variable {size last : Nat} {tables : PrincipalTables}

theorem pairwise_pending (tables : PrincipalTables) (last : Nat) :
    (tables.pending last).Pairwise (· < ·) :=
  tables.ascending.sublist List.filter_sublist

theorem isPending_iff {key : Nat} :
    tables.isPending last key = true ↔ last < key ∧ ¬ tables.hasDetail key = true := by
  simp only [isPending, Bool.and_eq_true, decide_eq_true_eq, Bool.not_eq_true', Bool.not_eq_true]

/-- What a page has no room for comes after all that is on it. -/
theorem lt_of_mem_drop {key other : Nat} (hkey : key ∈ tables.pageKeys size last)
    (hother : other ∈ (tables.pending last).drop size) : key < other := by
  have horder := tables.pairwise_pending last
  rw [← List.take_append_drop size (tables.pending last), List.pairwise_append] at horder
  rw [pageKeys_eq_take] at hkey
  exact horder.2.2 key hkey other hother

/-- After a page, what is still to do beyond its last key is what the page had
    no room for. -/
theorem pending_fillPage {key made : Nat} {after : PrincipalTables}
    (h : fillPage size last tables = ((some key, made), after)) :
    after.pending key = (tables.pending last).drop size := by
  have hafter : after = (fillPage size last tables).2 := by rw [h]
  have hlast : (tables.pageKeys size last).getLast? = some key := congrArg (fun r => r.1.1) h
  have hkey : key ∈ tables.pageKeys size last := List.mem_of_getLast? hlast
  have hbeyond : last < key := (isPending_iff.1 (isPending_of_mem_pageKeys hkey)).1
  have hdetail : ∀ x, after.hasDetail x = true ↔
      tables.hasDetail x = true ∨ x ∈ tables.pageKeys size last := by
    intro x
    rw [hafter, hasDetail_fillPage_iff]
  -- What is to do after the page was to do before it.
  have hfewer : after.pending key = (tables.pending last).filter (after.isPending key) := by
    rw [pending, pending, List.filter_filter, hafter, principals_fillPage]
    refine List.filter_congr fun x _ => ?_
    rw [← hafter, Bool.eq_iff_iff, Bool.and_eq_true, isPending_iff, isPending_iff, hdetail]
    constructor
    · rintro ⟨hlt, hnone⟩
      exact ⟨⟨hlt, hnone⟩, Nat.lt_trans hbeyond hlt, fun hold => hnone (Or.inl hold)⟩
    · exact fun hboth => hboth.1
  have hsplit : tables.pageKeys size last ++ (tables.pending last).drop size =
      tables.pending last := by
    rw [pageKeys_eq_take, List.take_append_drop]
  have hpage : (tables.pageKeys size last).filter (after.isPending key) = [] := by
    refine List.filter_eq_nil_iff.2 fun x hx hpending => ?_
    exact (isPending_iff.1 hpending).2 ((hdetail x).2 (Or.inr hx))
  have hrest : ((tables.pending last).drop size).filter (after.isPending key) =
      (tables.pending last).drop size := by
    refine List.filter_eq_self.2 fun x hx => isPending_iff.2 ⟨lt_of_mem_drop hkey hx, ?_⟩
    intro hfilled
    rcases (hdetail x).1 hfilled with hold | hnew
    · have hpending := (List.mem_filter.1 (List.mem_of_mem_drop hx)).2
      exact (isPending_iff.1 hpending).2 hold
    · exact absurd (lt_of_mem_drop hnew hx) (Nat.lt_irrefl x)
  rw [hfewer, ← hsplit, List.filter_append, hpage, hrest, List.nil_append, hsplit]

/-- A page without a key has nothing to do. -/
theorem pending_eq_nil_of_fillPage (hsize : 0 < size) {made : Nat} {after : PrincipalTables}
    (h : fillPage size last tables = ((none, made), after)) : tables.pending last = [] := by
  have hlast : (tables.pageKeys size last).getLast? = none := congrArg (fun r => r.1.1) h
  rw [List.getLast?_eq_none_iff, pageKeys_eq_take, List.take_eq_nil_iff] at hlast
  exact hlast.resolve_left (Nat.ne_of_gt hsize)

end Page

/-- One page more than what is left needs. -/
theorem pages_succ {size count : Nat} (hsize : 0 < size) (hcount : 0 < count) :
    (count - size + size - 1) / size + 1 = (count + size - 1) / size := by
  have hstep : (count + size - 1) / size = (count - 1) / size + 1 := by
    rw [show count + size - 1 = count - 1 + size by omega, Nat.add_div_right _ hsize]
  rw [hstep]
  by_cases hroom : count ≤ size
  · -- The page has taken all, and one page is what they need.
    rw [Nat.div_eq_of_lt (by omega), Nat.div_eq_of_lt (by omega)]
  · rw [show count - size + size - 1 = count - 1 by omega]

/-- Blank details are put behind blank details. -/
theorem withBlanks_append (details : List (Nat × String)) (front rest : List Nat) :
    withBlanks (withBlanks details front) rest = withBlanks details (front ++ rest) := by
  rw [withBlanks, withBlanks, withBlanks, List.map_append, List.append_assoc]

/-- All pages report the number of keys that were to do, and the pages that
    they take. -/
theorem fillFrom_eq {size : Nat} (hsize : 0 < size) (last : Nat) (tables : PrincipalTables) :
    (tables.fillFrom size last).1 =
      ⟨false, ((tables.pending last).length + size - 1) / size, (tables.pending last).length⟩ := by
  fun_induction fillFrom size last tables with
  | case1 last tables made after hpage =>
    rw [pending_eq_nil_of_fillPage hsize hpage, List.length_nil, Nat.zero_add,
      Nat.div_eq_of_lt (Nat.sub_lt hsize Nat.one_pos)]
  | case2 last tables key made after hpage report final hrun ih =>
    have hkey : key ∈ tables.pageKeys size last :=
      List.mem_of_getLast? (congrArg (fun r => r.1.1) hpage)
    have hcount : 0 < (tables.pending last).length :=
      List.length_pos_of_mem (mem_pending_of_mem_pageKeys hkey)
    have hmade : made = min size (tables.pending last).length := by
      rw [← List.length_take, ← pageKeys_eq_take]
      exact (congrArg (fun r => r.1.2) hpage).symm
    rw [hrun, pending_fillPage hpage, List.length_drop] at ih
    -- The run behind the page reports what the page had no room for.
    subst ih
    dsimp only
    rw [pages_succ hsize hcount, BackfillReport.mk.injEq]
    exact ⟨rfl, rfl, by omega⟩

/-- All pages together fill what was to do when they began. -/
theorem filled_fillFrom {size : Nat} (hsize : 0 < size) (last : Nat) (tables : PrincipalTables) :
    tables.Filled last (tables.fillFrom size last).2 := by
  fun_induction fillFrom size last tables with
  | case1 last tables made after hpage =>
    have hafter : after = (fillPage size last tables).2 := by rw [hpage]
    have hnil := pending_eq_nil_of_fillPage hsize hpage
    subst hafter
    refine ⟨rfl, rfl, ?_⟩
    rw [details_fillPage, pageKeys_eq_take, hnil, List.take_nil]
  | case2 last tables key made after hpage report final hrun ih =>
    have hafter : after = (fillPage size last tables).2 := by rw [hpage]
    rw [hrun] at ih
    -- The details of the page and those behind it make up what was missing.
    have hdetails := ih.details
    rw [pending_fillPage hpage] at hdetails
    subst hafter
    refine ⟨ih.principals, ih.lastKey, ?_⟩
    rw [details_fillPage, withBlanks_append, pageKeys_eq_take, List.take_append_drop] at hdetails
    exact hdetails

section Filled

variable {last : Nat} {tables final : PrincipalTables}

/-- No key is at zero, so all that lack a detail are beyond it. -/
theorem pending_zero (tables : PrincipalTables) : tables.pending 0 = tables.lacking := by
  refine List.filter_congr fun key hkey => ?_
  rw [Bool.eq_iff_iff, isPending_iff, hasDetail, Bool.not_eq_true, Option.isSome_eq_false_iff]
  exact and_iff_right (tables.used key hkey).1

theorem Filled.hasDetail_iff (h : tables.Filled last final) {key : Nat} :
    final.hasDetail key = true ↔ tables.hasDetail key = true ∨ key ∈ tables.pending last := by
  rw [PrincipalTables.hasDetail_iff, h.details, keys_withBlanks, List.mem_append,
    PrincipalTables.hasDetail_iff]

/-- Where all are filled nothing is left to do. -/
theorem Filled.pending_eq_nil (h : tables.Filled last final) : final.pending last = [] := by
  refine List.filter_eq_nil_iff.2 fun key hkey hpending => ?_
  rw [isPending_iff, h.hasDetail_iff] at hpending
  rw [h.principals] at hkey
  refine hpending.2 (Or.inr (List.mem_filter.2 ⟨hkey, isPending_iff.2 ⟨hpending.1, ?_⟩⟩))
  exact fun hold => hpending.2 (Or.inl hold)

/-- Where nothing was to do the tables are the same. -/
theorem Filled.eq_self (h : tables.Filled last final) (hnil : tables.pending last = []) :
    final = tables := by
  refine PrincipalTables.ext h.principals ?_ h.lastKey
  rw [h.details, hnil, withBlanks, List.map_nil, List.append_nil]

/-- Where all are filled every principal has one detail. -/
theorem Filled.count_eq_one (h : tables.Filled 0 final) {key : Nat}
    (hkey : key ∈ Ordered.keys tables.principals) : (Ordered.keys final.details).count key = 1 := by
  refine List.count_eq_one_of_mem final.distinct (PrincipalTables.hasDetail_iff.1 ?_)
  rw [h.hasDetail_iff]
  by_cases hold : tables.hasDetail key = true
  · exact Or.inl hold
  · exact Or.inr (List.mem_filter.2 ⟨hkey, isPending_iff.2 ⟨(tables.used key hkey).1, hold⟩⟩)

end Filled

end PrincipalTables

namespace BackfillConfig

theorem pageSize_pos (config : BackfillConfig) : 0 < config.pageSize.toNat := by
  refine Nat.pos_of_ne_zero fun hzero => config.pageSize_ne ?_
  exact UInt32.toNat_inj.1 hzero

end BackfillConfig

namespace Database

variable {config : BackfillConfig} {db : Database} {tables : PrincipalTables}

/-- The run of a database whose tables are there. -/
theorem backfill_eq (hskip : config.skip = false) (htables : db.principals = some tables) :
    ∃ final, tables.Filled 0 final ∧
      let report : BackfillReport :=
        ⟨false, (tables.lacking.length + config.pageSize.toNat - 1) / config.pageSize.toNat,
          tables.lacking.length⟩
      db.backfill config =
        (.ok (report, .backfill report.event), { db with principals := some final }) := by
  refine ⟨_, PrincipalTables.filled_fillFrom config.pageSize_pos 0 tables, ?_⟩
  have hreport := PrincipalTables.fillFrom_eq config.pageSize_pos 0 tables
  rw [PrincipalTables.pending_zero] at hreport
  rw [← hreport, backfill, hskip, if_neg Bool.false_ne_true, principalTables, htables]

/-- A run that fills nothing changes nothing. -/
theorem backfill_of_lacking_eq_nil (hskip : config.skip = false)
    (htables : db.principals = some tables) (hnil : tables.lacking = []) :
    db.backfill config = (.ok (⟨false, 0, 0⟩, .backfill ⟨false, 0, 0⟩), db) := by
  rcases backfill_eq hskip htables with ⟨final, hfilled, hrun⟩
  -- Nothing is missing, so filling in leaves the tables as they are.
  have hfinal : final = tables :=
    hfilled.eq_self ((PrincipalTables.pending_zero tables).trans hnil)
  have hdb : { db with principals := some final } = db := by
    rw [hfinal, ← htables]
  have hpages : (0 + config.pageSize.toNat - 1) / config.pageSize.toNat = 0 := by
    rw [Nat.zero_add, Nat.div_eq_of_lt (Nat.sub_lt config.pageSize_pos Nat.one_pos)]
  rw [hrun, hdb, hnil, List.length_nil, hpages]
  rfl

/-- There are no more pages than keys. -/
theorem pages_le {size count : Nat} (hsize : 0 < size) : (count + size - 1) / size ≤ count := by
  rcases Nat.eq_zero_or_pos count with rfl | hcount
  · have hzero : (0 + size - 1) / size = 0 := by
      rw [Nat.zero_add, Nat.div_eq_of_lt (Nat.sub_lt hsize Nat.one_pos)]
    exact Nat.le_of_eq hzero
  · -- A page holds one key at least.
    have hmul : count + size - 1 ≤ size * count := by
      obtain ⟨rest, rfl⟩ : ∃ rest, count = rest + 1 := ⟨count - 1, by omega⟩
      have hrest : rest ≤ size * rest := Nat.le_mul_of_pos_left rest hsize
      rw [Nat.mul_add, Nat.mul_one]
      omega
    exact Nat.div_le_of_le_mul hmul

/-- What a run leaves, reports and records, for all tables of principals and
    details and every size of a page. Each principal has one detail then: the
    old ones are as they were, and the new ones say nothing yet and belong to
    those who had none. No key, principal or other table changes. The report
    counts the new details, and as many pages as hold them; the event has the
    same numbers, as far as they fit its words. Another run finds nothing to
    do, and a run that is left out does nothing. -/
theorem backfill_fills_details (config : BackfillConfig) (htables : db.principals = some tables) :
    (config.skip = true →
      db.backfill config = (.ok (⟨true, 0, 0⟩, .backfill ⟨true, 0, 0⟩), db)) ∧
    (config.skip = false →
      let size := config.pageSize.toNat
      let count := tables.lacking.length
      let blank := (Json.object [("name", .string ""), ("organization", .string "")]).compact
      ∃ (final : PrincipalTables) (event : BackfillEvent),
        let filled : Database := { db with principals := some final }
        db.backfill config =
          (.ok (⟨false, (count + size - 1) / size, count⟩, .backfill event), filled) ∧
        final.principals = tables.principals ∧ final.lastKey = tables.lastKey ∧
        final.details = tables.details ++ tables.lacking.map (fun key => (key, blank)) ∧
        (∀ key ∈ Ordered.keys tables.principals, (Ordered.keys final.details).count key = 1) ∧
        event.skipped = false ∧
        (count < UInt64.size →
          event.pages.toNat = (count + size - 1) / size ∧ event.inserted.toNat = count) ∧
        ∀ again : BackfillConfig, again.skip = false →
          filled.backfill again = (.ok (⟨false, 0, 0⟩, .backfill ⟨false, 0, 0⟩), filled)) := by
  refine ⟨fun hskip => ?_, fun hskip => ?_⟩
  · rw [backfill, hskip, if_pos rfl]
    rfl
  · intro size count blank
    rcases backfill_eq hskip htables with ⟨final, hfilled, hrun⟩
    have hdetails := hfilled.details
    rw [PrincipalTables.pending_zero] at hdetails
    refine ⟨final, _, hrun, hfilled.principals, hfilled.lastKey, hdetails,
      fun key hkey => hfilled.count_eq_one hkey, rfl, fun hcount => ?_, fun again hagain => ?_⟩
    · -- The counters of the event are words, and neither count is above the number of
      -- keys.
      have hpages : (count + size - 1) / size ≤ count := pages_le config.pageSize_pos
      exact ⟨UInt64.toNat_ofNat_of_lt' (Nat.lt_of_le_of_lt hpages hcount),
        UInt64.toNat_ofNat_of_lt' hcount⟩
    · refine backfill_of_lacking_eq_nil hagain rfl ?_
      rw [← PrincipalTables.pending_zero, hfilled.pending_eq_nil]

/-- Five principals were registered, the second is gone, and the third has a
    detail already. -/
def gappedRoster : PrincipalTables :=
  let registered := ["1", "2", "3", "4", "5"].foldl
    (fun tables name => tables.register ⟨name⟩) PrincipalTables.empty
  (registered.forget ⟨"2"⟩).2.setDetail 3 "[]"

/-- Three details are missing, which takes two pages of two. -/
theorem backfill_fills_details_gappedRoster :
    let db : Database := ⟨some currentVersion, some [], some gappedRoster⟩
    let config : BackfillConfig := ⟨false, 2, by decide⟩
    db.principals = some gappedRoster ∧ config.skip = false ∧
      gappedRoster.lacking = [1, 4, 5] ∧
      ∃ (final : PrincipalTables) (event : BackfillEvent),
        db.backfill config =
          (.ok (⟨false, 2, 3⟩, .backfill event), { db with principals := some final }) ∧
        Ordered.keys final.details = [3, 1, 4, 5] ∧ event.pages.toNat = 2 := by
  intro db config
  have hlacking : gappedRoster.lacking = [1, 4, 5] := by decide
  have htables : db.principals = some gappedRoster := rfl
  rcases (backfill_fills_details config htables).2 rfl with
    ⟨final, event, hrun, -, -, hdetails, -, -, hevent, -⟩
  have hcount : gappedRoster.lacking.length = 3 := congrArg List.length hlacking
  have hpages : (3 + config.pageSize.toNat - 1) / config.pageSize.toNat = 2 := by decide
  rw [hcount, hpages] at hrun hevent
  refine ⟨htables, rfl, hlacking, final, event, hrun, ?_, (hevent (by decide)).1⟩
  rw [hdetails, hlacking]
  rfl

end Database

end Fieldwork
