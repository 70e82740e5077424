import Fieldwork.Proofs.Store.Medium

/-!
# Stamps Never Go Back

What a run of calls does to the stamp of a row, whatever the clock says.

Callers tell a store what time it is, and a clock may be set back. A row is
therefore stamped with the later of what the clock says and what it carries
already. Two programs do this, one on rows in memory and one on rows that the
engine changes statement by statement, and both have to do it in every call
that touches a row, or else a stamp could be lost on the way.

A stamp does not depend on the document beside it. So this is said of every
state of a store, also of a database whose texts are no documents, and what is
carried along a run is the stamp alone: `stampAfter` is what a call that is
answered makes of it, and `Stamped` says that a store does this and nothing
else. As long as a row stays, `stampAfter` only ever goes up, from no stamp to
some stamp and from there to no earlier one.

## Main definitions

* `Medium.stamp?`, `Medium.stampAfter`: The stamp of a row, if there is one, if
  there is a row; and the same after calls in turn.
* `StoreCall.stampAfter`: What a call makes of a stamp.
* `Stamped`: What a call and its answer say about stamps.
* `NotAfter`: No stamp comes first, then earlier ones before later ones.
* `Database.Restamped`: A write has stamped its row, or there was none.

## Theorems

* `notAfter_stampAfter`: While a row stays its stamp does not go back.
* `MemoryStore.stamped_run`, `Database.stamped_run`: A call on either store.
* `notAfter_after`: A run of calls during which a row stays.
* `stamps_ascend`: The stamps of a row along a run.
-/

namespace Fieldwork

namespace StoreCall

/-- What a call that is answered makes of the stamp of its row. Without a row
    there is no stamp to look at, and a new row has not got one yet. -/
def stampAfter (stamp : Option (Option Stamp)) : StoreCall → Option (Option Stamp)
  | create _ => some (stamp.getD none)
  | load _ => stamp
  | merge _ _ now | clear _ now => stamp.map fun previous => some (nextStamp previous now)
  | delete _ => none

end StoreCall

/-- Whether a call was refused. -/
def StoreReply.failed : StoreReply → Bool
  | created (.error _) | loaded (.error _) | written (.error _) | deleted (.error _) => true
  | _ => false

/-- What a call and its answer say about the stamps `before` and `after` it. -/
structure Stamped (call : StoreCall) (reply : StoreReply)
    (before after : AssetId → Option (Option Stamp)) : Prop where
  /-- A call that fails changes no stamp. -/
  failed : reply.failed = true → after = before
  /-- A call that is answered makes of its row's stamp what it should. -/
  answered : reply.failed = false → after call.asset = call.stampAfter (before call.asset)
  /-- A call changes no stamp but that of its row. -/
  other : ∀ other, other ≠ call.asset → after other = before other
  /-- A receipt counts no row if there is none, and else has the stamp that the
      row carries. -/
  receipt : ∀ receipt, reply = .written (.ok receipt) →
    receipt.rows = 0 ∧ before call.asset = none ∧ after call.asset = none ∨
      receipt.rows = 1 ∧ after call.asset = some (some receipt.stamp)
  /-- A deletion says if there was no row. -/
  deletion : reply = .deleted (.ok false) → before call.asset = none ∧ after call.asset = none

/-- No stamp comes first, and of two stamps the earlier one. -/
def NotAfter (earlier later : Option Stamp) : Prop :=
  ∀ stamp ∈ earlier, ∃ next ∈ later, stamp ≤ next

theorem NotAfter.refl (stamp : Option Stamp) : NotAfter stamp stamp :=
  fun found hfound => ⟨found, hfound, Int.le_refl found⟩

theorem NotAfter.trans {first second third : Option Stamp} (h : NotAfter first second)
    (hnext : NotAfter second third) : NotAfter first third := by
  intro stamp hstamp
  rcases h stamp hstamp with ⟨middle, hmiddle, hle⟩
  rcases hnext middle hmiddle with ⟨last, hlast, hle'⟩
  exact ⟨last, hlast, Int.le_trans hle hle'⟩

theorem notAfter_nextStamp (previous : Option Stamp) (now : Stamp) :
    NotAfter previous (some (nextStamp previous now)) := by
  rintro stamp ⟨⟩
  exact ⟨_, rfl, le_nextStamp⟩

/-- While a row stays its stamp does not go back. -/
theorem notAfter_stampAfter {call : StoreCall} {before after : Option Stamp}
    (h : call.stampAfter (some before) = some after) : NotAfter before after := by
  cases call with
  | create asset | load asset =>
    cases h
    exact NotAfter.refl before
  | merge asset updates now =>
    cases h
    exact notAfter_nextStamp before now
  | clear asset now =>
    cases h
    exact notAfter_nextStamp before now
  | delete asset => cases h

/-- A call during which a row stays does not set its stamp back. -/
theorem Stamped.notAfter {call : StoreCall} {reply : StoreReply}
    {before after : AssetId → Option (Option Stamp)} (h : Stamped call reply before after)
    {asset : AssetId} {earlier later : Option Stamp} (hearlier : before asset = some earlier)
    (hlater : after asset = some later) : NotAfter earlier later := by
  have hsame : after asset = before asset → NotAfter earlier later := by
    intro heq
    rw [hlater, hearlier] at heq
    cases heq
    exact NotAfter.refl earlier
  -- Only an answered call on the row itself moves its stamp.
  rcases hreply : reply.failed with _ | _
  · by_cases hasset : asset = call.asset
    · subst hasset
      have hanswered := h.answered hreply
      rw [hearlier, hlater] at hanswered
      exact notAfter_stampAfter hanswered.symm
    · exact hsame (h.other asset hasset)
  · exact hsame (congrFun (h.failed hreply) asset)

/-- What fails, finds no row or is about another asset leaves a stamp as it
    is. -/
theorem Stamped.eq_of_not_applied {call : StoreCall} {reply : StoreReply}
    {before after : AssetId → Option (Option Stamp)} (h : Stamped call reply before after)
    {asset : AssetId} (hnot : reply.failed = true ∨ reply = .deleted (.ok false) ∨
      (∃ receipt, reply = .written (.ok receipt) ∧ receipt.applied = false) ∨
      call.asset ≠ asset) : after asset = before asset := by
  by_cases hasset : asset = call.asset
  · subst hasset
    -- A refused call, a delete of nothing, a write of nothing, and a call about
    -- another asset.
    rcases hnot with hfailed | hdeleted | ⟨receipt, hwritten, happlied⟩ | hne
    · exact congrFun (h.failed hfailed) call.asset
    · rcases h.deletion hdeleted with ⟨hbefore, hafter⟩
      rw [hbefore, hafter]
    · rcases h.receipt receipt hwritten with ⟨-, hbefore, hafter⟩ | ⟨hrows, -⟩
      · rw [hbefore, hafter]
      · rw [Receipt.applied, hrows] at happlied
        cases happlied
    · exact absurd rfl hne
  · exact h.other asset hasset

/-- A row that comes into being has no stamp. -/
theorem Stamped.of_eq_none {call : StoreCall} {reply : StoreReply}
    {before after : AssetId → Option (Option Stamp)} (h : Stamped call reply before after)
    {asset : AssetId} (hnone : before asset = none) :
    after asset = none ∨ call = .create asset ∧ after asset = some none := by
  by_cases hasset : asset = call.asset
  · subst hasset
    rcases hreply : reply.failed with _ | _
    · have hanswered := h.answered hreply
      rw [hnone] at hanswered
      rw [hanswered]
      -- Only a call that makes the row can end with one.
      cases call with
      | create asset => exact Or.inr ⟨rfl, rfl⟩
      | load asset | merge asset updates now | clear asset now | delete asset => exact Or.inl rfl
    · exact Or.inl ((congrFun (h.failed hreply) call.asset).trans hnone)
  · exact Or.inl ((h.other asset hasset).trans hnone)

namespace MemoryStore

/-- The stamp of a row, if there is one, if there is a row. -/
def stamp? (store : MemoryStore) (asset : AssetId) : Option (Option Stamp) :=
  (store.find? asset).map Row.stamp

/-- What a call leaves of a row, seen from its stamp. -/
theorem map_stamp_next (row : Option Row) (call : StoreCall) :
    (call.next row).map Row.stamp = call.stampAfter (row.map Row.stamp) := by
  cases call <;> cases row <;> rfl

/-- A call on the memory. -/
theorem stamped_run (call : StoreCall) (store : MemoryStore) :
    Stamped call (call.run calls store).1 store.stamp? (call.run calls store).2.stamp? := by
  rcases run_eq call store with ⟨after, hrun, hself, hother⟩
  have hstamp : after.stamp? call.asset = call.stampAfter (store.stamp? call.asset) := by
    rw [stamp?, hself, map_stamp_next]
    rfl
  rw [hrun]
  refine ⟨fun hfailed => ?_, fun _ => hstamp, fun other hne => ?_, fun receipt hreceipt => ?_,
    fun hmissing => ?_⟩
  · -- The memory answers every call.
    cases call <;> cases hfailed
  · rw [stamp?, stamp?, hother other hne]
  · rw [hstamp, stamp?]
    rcases hrow : store.find? call.asset with _ | row
    · rw [hrow] at hreceipt
      left
      cases call <;> cases hreceipt
      all_goals exact ⟨rfl, rfl, rfl⟩
    · rw [hrow] at hreceipt
      right
      cases call <;> cases hreceipt
      all_goals exact ⟨rfl, rfl⟩
  · rw [hstamp, stamp?]
    rcases hrow : store.find? call.asset with _ | row
    · rw [hrow] at hmissing
      cases call <;> cases hmissing
      exact ⟨rfl, rfl⟩
    · rw [hrow] at hmissing
      cases call <;> cases hmissing

end MemoryStore

namespace Database

/-- The stamp of a row, if there is one, if there is a row. -/
def stamp? (db : Database) (asset : AssetId) : Option (Option Stamp) :=
  (db.stored? asset).map StoredRow.stamp

section Tables

variable {db : Database} {assets : AssetTable}

theorem stamp?_insert (hassets : db.assets = some assets) (asset : AssetId) (row : StoredRow)
    (other : AssetId) :
    stamp? { db with assets := some (Ordered.insert asset row assets) } other =
      if other = asset then some row.stamp else db.stamp? other := by
  rw [stamp?, stored?, Option.bind_some, Ordered.lookup_insert, stamp?, stored?, hassets,
    Option.bind_some]
  split <;> rfl

theorem stamp?_erase (hassets : db.assets = some assets) (asset other : AssetId) :
    stamp? { db with assets := some (Ordered.erase asset assets) } other =
      if other = asset then none else db.stamp? other := by
  rw [stamp?, stored?, Option.bind_some, Ordered.lookup_erase, stamp?, stored?, hassets,
    Option.bind_some]
  split <;> rfl

theorem stamp?_eq (hassets : db.assets = some assets) (asset : AssetId) :
    db.stamp? asset = (assets.lookup asset).map StoredRow.stamp := by
  rw [stamp?, stored?, hassets, Option.bind_some]

end Tables

section Calls

variable {db : Database}

/-- A call on a database is refused and changes nothing, or does what it
    should. -/
theorem stamped_of_act {α : Type} {act : Database → Except DatabaseError (α × Database)}
    {wrap : Except StoreError α → StoreReply} {storeCall : StoreCall}
    (hrun : storeCall.run calls db = (call act db).map wrap id)
    (hrefused : ∀ error, (wrap (.error error)).failed = true)
    (hok : ∀ result after, act db = .ok (result, after) →
      after.stamp? storeCall.asset = storeCall.stampAfter (db.stamp? storeCall.asset) ∧
      (∀ other, other ≠ storeCall.asset → after.stamp? other = db.stamp? other) ∧
      (wrap (.ok result)).failed = false ∧
      (∀ receipt, wrap (.ok result) = .written (.ok receipt) →
        receipt.rows = 0 ∧ db.stamp? storeCall.asset = none ∧
            after.stamp? storeCall.asset = none ∨
          receipt.rows = 1 ∧ after.stamp? storeCall.asset = some (some receipt.stamp)) ∧
      (wrap (.ok result) = .deleted (.ok false) →
        db.stamp? storeCall.asset = none ∧ after.stamp? storeCall.asset = none)) :
    Stamped storeCall (storeCall.run calls db).1 db.stamp? (storeCall.run calls db).2.stamp? := by
  rcases hact : act db with error | ⟨result, after⟩
  · -- What is refused has changed nothing, so all that is left to say is that it failed.
    rw [hrun, call_error hact]
    have hfailed := hrefused error.toStoreError
    refine ⟨fun _ => rfl, fun hanswered => ?_, fun _ _ => rfl, fun receipt hreceipt => ?_,
      fun hmissing => ?_⟩
    · cases hfailed.symm.trans hanswered
    · cases hfailed.symm.trans (congrArg StoreReply.failed hreceipt)
    · cases hfailed.symm.trans (congrArg StoreReply.failed hmissing)
  · rw [hrun, call_ok hact]
    rcases hok result after hact with ⟨hself, hother, hanswered, hreceipt, hdeletion⟩
    -- An answer is no refusal, so there is nothing to say about that case.
    refine ⟨fun hfailed => ?_, fun _ => hself, hother, hreceipt, hdeletion⟩
    cases hanswered.symm.trans hfailed

theorem stamp?_of_create {asset : AssetId} {after : Database} {result : Unit}
    (h : create asset db = .ok (result, after)) (other : AssetId) :
    after.stamp? other =
      if other = asset then some ((db.stamp? asset).getD none) else db.stamp? other := by
  rw [create] at h
  rcases exists_assets_of_eq_ok h with ⟨assets, hassets, h⟩
  rw [stamp?_eq hassets asset]
  rcases hlookup : assets.lookup asset with _ | row
  · rw [hlookup] at h
    cases h
    exact stamp?_insert hassets asset _ other
  · rw [hlookup] at h
    cases h
    -- The row was there already, and the table is put back as it was.
    split
    · rename_i heq
      rw [heq, stamp?_eq hassets, hlookup]
      rfl
    · rfl

/-- A write has stamped its row, and the receipt has the stamp, or there was no
    row to stamp. -/
structure Restamped (db : Database) (asset : AssetId) (now : Stamp) (receipt : Receipt)
    (after : Database) : Prop where
  /-- Only the row has another stamp. -/
  stamp : ∀ other, after.stamp? other =
    if other = asset then (db.stamp? asset).map fun previous => some (nextStamp previous now)
    else db.stamp? other
  /-- The receipt counts no row, or has the stamp that the row carries. -/
  receipt : receipt.rows = 0 ∧ db.stamp? asset = none ∧ after.stamp? asset = none ∨
    receipt.rows = 1 ∧ after.stamp? asset = some (some receipt.stamp)

section Write

variable {assets : AssetTable} {asset : AssetId} {now : Stamp} {receipt : Receipt}

theorem restamped_of_lookup_eq_none (hassets : db.assets = some assets)
    (hlookup : assets.lookup asset = none) (hrows : receipt.rows = 0) :
    Restamped db asset now receipt db := by
  have hnone : db.stamp? asset = none := by rw [stamp?_eq hassets, hlookup, Option.map_none]
  refine ⟨fun other => ?_, Or.inl ⟨hrows, hnone, hnone⟩⟩
  rw [hnone, Option.map_none]
  split
  · rename_i heq
    rw [heq, hnone]
  · rfl

theorem restamped_insert (hassets : db.assets = some assets) {row : StoredRow}
    (hlookup : assets.lookup asset = some row) (hrows : receipt.rows = 1)
    (hstamp : receipt.stamp = nextStamp row.stamp now) (text : String) :
    Restamped db asset now receipt
      { db with assets := some (Ordered.insert asset ⟨text, some receipt.stamp⟩ assets) } := by
  refine ⟨fun other => ?_, Or.inr ⟨hrows, ?_⟩⟩
  · rw [stamp?_insert hassets, stamp?_eq hassets asset, hlookup, Option.map_some, Option.map_some,
      ← hstamp]
  · rw [stamp?_insert hassets, if_pos rfl]

theorem restamped_of_merge {updates : Document} {after : Database}
    (h : db.merge asset updates now = .ok (receipt, after)) :
    Restamped db asset now receipt after := by
  rcases merge_eq_ok h with ⟨-, -, assets, group, groups, hassets, -, hstamp, hdone⟩
  rcases hdone with ⟨hlookup, hrows, rfl⟩ | ⟨row, rewritten, hlookup, hrows, hall, rfl⟩
  · exact restamped_of_lookup_eq_none hassets hlookup hrows
  · rw [stampOf, hlookup, Option.bind_some] at hstamp
    rcases MergeStatement.exists_text_of_rewriteAll hall with ⟨text, rfl⟩
    exact restamped_insert hassets hlookup hrows hstamp text

theorem restamped_of_clear {after : Database}
    (h : db.clear asset now = .ok (receipt, after)) : Restamped db asset now receipt after := by
  rw [clear] at h
  rcases exists_assets_of_eq_ok h with ⟨assets, hassets, h⟩
  rcases hlookup : assets.lookup asset with _ | row
  · rw [hlookup] at h
    cases h
    exact restamped_of_lookup_eq_none hassets hlookup rfl
  · rw [stampOf, hlookup] at h
    cases h
    exact restamped_insert hassets hlookup rfl rfl StoredText.blank

end Write

/-- A write on a database, if it stamps its row whenever it is answered. -/
theorem stamped_of_restamped {act : Database → Except DatabaseError (Receipt × Database)}
    {storeCall : StoreCall} {now : Stamp}
    (hrun : storeCall.run calls db = (call act db).map .written id)
    (hafter : ∀ stamp, storeCall.stampAfter stamp =
      stamp.map fun previous => some (nextStamp previous now))
    (hok : ∀ receipt after, act db = .ok (receipt, after) →
      Restamped db storeCall.asset now receipt after) :
    Stamped storeCall (storeCall.run calls db).1 db.stamp? (storeCall.run calls db).2.stamp? := by
  refine stamped_of_act hrun (fun _ => rfl) fun receipt after h => ?_
  have hwritten := hok receipt after h
  rw [hafter]
  refine ⟨(hwritten.stamp storeCall.asset).trans (if_pos rfl),
    fun other hne => (hwritten.stamp other).trans (if_neg hne), rfl, ?_, nofun⟩
  rintro found ⟨⟩
  exact hwritten.receipt

theorem stamp?_of_delete {asset : AssetId} {after : Database} {existed : Bool}
    (h : db.delete asset = .ok (existed, after)) :
    (∀ other, after.stamp? other = if other = asset then none else db.stamp? other) ∧
      (db.stamp? asset).isSome = existed := by
  rw [delete] at h
  rcases exists_assets_of_eq_ok h with ⟨assets, hassets, h⟩
  cases h
  refine ⟨stamp?_erase hassets asset, ?_⟩
  rw [stamp?_eq hassets, Option.isSome_map]

/-- A call on a database, whatever texts it has. -/
theorem stamped_run (storeCall : StoreCall) (db : Database) :
    Stamped storeCall (storeCall.run calls db).1 db.stamp? (storeCall.run calls db).2.stamp? := by
  cases storeCall with
  | create asset =>
    refine stamped_of_act rfl (fun _ => rfl) fun result after h => ?_
    have hstamp := stamp?_of_create h
    exact ⟨(hstamp asset).trans (if_pos rfl), fun other hne => (hstamp other).trans (if_neg hne),
      rfl, nofun, nofun⟩
  | load asset =>
    refine stamped_of_act rfl (fun _ => rfl) fun result after h => ?_
    -- A read hands back the database that it was given.
    have hafter : after = db := by
      rcases hload : db.load asset with error | row
      · rw [hload] at h
        cases h
      · rw [hload] at h
        cases h
        rfl
    rw [hafter]
    exact ⟨rfl, fun _ _ => rfl, rfl, nofun, nofun⟩
  | merge asset updates now =>
    exact stamped_of_restamped rfl (fun _ => rfl) fun receipt after => restamped_of_merge
  | clear asset now =>
    exact stamped_of_restamped rfl (fun _ => rfl) fun receipt after => restamped_of_clear
  | delete asset =>
    refine stamped_of_act rfl (fun _ => rfl) fun existed after h => ?_
    rcases stamp?_of_delete h with ⟨hstamp, hexisted⟩
    have hself : after.stamp? asset = none := (hstamp asset).trans (if_pos rfl)
    refine ⟨hself, fun other hne => (hstamp other).trans (if_neg hne), rfl, nofun, ?_⟩
    rintro ⟨⟩
    exact ⟨Option.isSome_eq_false_iff.1 hexisted |> Option.isNone_iff_eq_none.1, hself⟩

end Calls

end Database

namespace Medium

/-- The stamp of a row, if there is one, if there is a row. -/
def stamp? : (medium : Medium) → medium.State → AssetId → Option (Option Stamp)
  | memory, store => store.stamp?
  | database, db => db.stamp?

/-- The stamp of a row after calls in turn. -/
def stampAfter (medium : Medium) (start : medium.State) (calls : List StoreCall)
    (asset : AssetId) : Option (Option Stamp) :=
  medium.stamp? (medium.calls.after start calls) asset

/-- A call on either store. -/
theorem stamped_run (medium : Medium) (call : StoreCall) (state : medium.State) :
    Stamped call (call.run medium.calls state).1 (medium.stamp? state)
      (medium.stamp? (call.run medium.calls state).2) := by
  cases medium with
  | memory => exact MemoryStore.stamped_run call state
  | database => exact Database.stamped_run call state

/-- While a row stays its stamp does not go back, however many calls there
    are. -/
theorem notAfter_after (medium : Medium) {state : medium.State} {run : List StoreCall}
    {asset : AssetId} {earlier later : Option Stamp}
    (hearlier : medium.stamp? state asset = some earlier)
    (hstays : ∀ part, part <+: run →
      (medium.stamp? (medium.calls.after state part) asset).isSome = true)
    (hlater : medium.stamp? (medium.calls.after state run) asset = some later) :
    NotAfter earlier later := by
  induction run generalizing state earlier with
  | nil =>
    cases hearlier.symm.trans hlater
    exact NotAfter.refl _
  | cons call rest ih =>
    -- The row is still there after the first call, so the stamps can be compared at
    -- that point.
    have hfirst : [call] <+: call :: rest := ⟨rest, rfl⟩
    rcases Option.isSome_iff_exists.1 (hstays [call] hfirst) with ⟨middle, hmiddle⟩
    refine ((medium.stamped_run call state).notAfter hearlier hmiddle).trans ?_
    refine ih hmiddle (fun part hpart => ?_) hlater
    exact hstays (call :: part) ((List.prefix_cons_inj call).2 hpart)

/-- The stamps of a row do not go back, for either store, whatever it starts
    with, and for all clocks and calls.

    From where a row is there to where it is still there, its stamp is no stamp
    at first, then some stamp, and from then on no earlier one. A write that is
    applied answers with the stamp that the row carries after it, also if there
    was nothing to write. What fails, what finds no row and what is about
    another asset leaves the stamp as it is. A row that comes into being, for
    the first time or again, has none. -/
theorem stamps_ascend (medium : Medium) (start : medium.State) (run : List StoreCall)
    (asset : AssetId) :
    (∀ first last, first <+: last → last <+: run →
      (∀ middle, first <+: middle → middle <+: last →
        (medium.stampAfter start middle asset).isSome = true) →
      ∃ earlier later, medium.stampAfter start first asset = some earlier ∧
        medium.stampAfter start last asset = some later ∧ NotAfter earlier later) ∧
    ∀ before call, before ++ [call] <+: run →
      let reply := (call.run medium.calls (medium.calls.after start before)).1
      let earlier := medium.stampAfter start before asset
      let later := medium.stampAfter start (before ++ [call]) asset
      (∀ receipt, reply = .written (.ok receipt) → receipt.applied = true → call.asset = asset →
        later = some (some receipt.stamp)) ∧
      (reply.failed = true ∨ reply = .deleted (.ok false) ∨
          (∃ receipt, reply = .written (.ok receipt) ∧ receipt.applied = false) ∨
          call.asset ≠ asset →
        later = earlier) ∧
      (earlier = none → later = none ∨ call = .create asset ∧ later = some none) := by
  refine ⟨fun first last hfirst hlast hstays => ?_, fun before call hcall => ?_⟩
  · -- The longer run goes on from where the shorter one ends.
    rcases hfirst with ⟨part, rfl⟩
    have hearlier := hstays first (List.prefix_refl first) (List.prefix_append first part)
    have hlater := hstays (first ++ part) (List.prefix_append first part) (List.prefix_refl _)
    rcases Option.isSome_iff_exists.1 hearlier with ⟨earlier, hearlier⟩
    rcases Option.isSome_iff_exists.1 hlater with ⟨later, hlater⟩
    refine ⟨earlier, later, hearlier, hlater, ?_⟩
    rw [stampAfter, RowStore.after_append] at hlater
    refine medium.notAfter_after hearlier (fun middle hmiddle => ?_) hlater
    rw [← RowStore.after_append]
    exact hstays (first ++ middle) (List.prefix_append first middle)
      ((List.prefix_append_right_inj first).2 hmiddle)
  · have hstep := medium.stamped_run call (medium.calls.after start before)
    rw [stampAfter, stampAfter, RowStore.after_concat]
    refine ⟨?_, hstep.eq_of_not_applied, hstep.of_eq_none⟩
    rintro receipt hreceipt happlied rfl
    rcases hstep.receipt receipt hreceipt with ⟨hrows, -⟩ | ⟨-, hstamp⟩
    · rw [Receipt.applied, hrows] at happlied
      cases happlied
    · exact hstamp

/-- A clock that is set back while a row stays, a merge of nothing, and a row
    that is made again. -/
def setBackRun : List StoreCall :=
  [.create ⟨"aX"⟩, .merge ⟨"aX"⟩ (.single "k" (.bool true)) 20, .merge ⟨"aX"⟩ .empty 10,
    .delete ⟨"aX"⟩, .create ⟨"aX"⟩]

theorem stamps_ascend_setBackRun :
    let stampAt (count : Nat) :=
      database.stampAfter database.empty (setBackRun.take count) ⟨"aX"⟩
    (∃ earlier later, stampAt 1 = some earlier ∧ stampAt 3 = some later ∧
        NotAfter earlier later) ∧
      stampAt 3 = some (some 20) ∧ stampAt 4 = none ∧
      (stampAt 5 = none ∨ stampAt 5 = some none) := by
  have hdeleted : database.stampAfter database.empty (setBackRun.take 4) ⟨"aX"⟩ = none := by
    decide +kernel
  have hreply : (StoreCall.run database.calls (database.calls.after database.empty
      (setBackRun.take 2)) (.merge ⟨"aX"⟩ .empty 10)).1 = .written (.ok ⟨20, 1⟩) := by
    decide +kernel
  have hone : (database.stampAfter database.empty (setBackRun.take 1) ⟨"aX"⟩).isSome = true := by
    decide +kernel
  have htwo : (database.stampAfter database.empty (setBackRun.take 2) ⟨"aX"⟩).isSome = true := by
    decide +kernel
  have hthree : (database.stampAfter database.empty (setBackRun.take 3) ⟨"aX"⟩).isSome = true := by
    decide +kernel
  have hstays : ∀ middle, setBackRun.take 1 <+: middle → middle <+: setBackRun.take 3 →
      (database.stampAfter database.empty middle ⟨"aX"⟩).isSome = true := by
    intro middle hfirst hlast
    have hlong : 1 ≤ middle.length := hfirst.length_le
    have hshort : middle.length ≤ 3 := hlast.length_le
    rw [List.prefix_iff_eq_take.1 hlast, List.take_take, Nat.min_eq_left hshort]
    have hcases : middle.length = 1 ∨ middle.length = 2 ∨ middle.length = 3 := by omega
    rcases hcases with h | h | h
    · rwa [h]
    · rwa [h]
    · rwa [h]
  have hfirst : setBackRun.take 1 <+: setBackRun.take 3 := ⟨(setBackRun.take 3).drop 1, rfl⟩
  rcases stamps_ascend .database database.empty setBackRun ⟨"aX"⟩ with ⟨hascend, hcall⟩
  refine ⟨hascend _ _ hfirst (List.take_prefix 3 setBackRun) hstays, ?_, hdeleted, ?_⟩
  · have hmerge := hcall (setBackRun.take 2) (.merge ⟨"aX"⟩ .empty 10)
      (List.take_prefix 3 setBackRun)
    exact hmerge.1 ⟨20, 1⟩ hreply rfl rfl
  · have hcreate := hcall (setBackRun.take 4) (.create ⟨"aX"⟩) (List.prefix_refl setBackRun)
    exact (hcreate.2.2 hdeleted).imp_right And.right

end Medium

end Fieldwork
