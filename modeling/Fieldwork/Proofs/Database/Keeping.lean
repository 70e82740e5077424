import Fieldwork.Proofs.Database.Size
import Fieldwork.Proofs.Database.Views

/-!
# When a Database Answers

Which calls a database answers on the rows that it has written itself.

From rows in its own spelling every call does what it does to rows, or is
refused as a whole. There are few reasons to refuse. A merge may have a key
that cannot be quoted, or values that are too large together. The engine or
the reader may not nest as deep as a document does. A text that is bound or a
row that is written may be larger than the engine takes, and that cannot happen
as long as what is stored and what is sent have room in a row together.
`Accepted` says that none of them applies, and then the call is answered.

## Main definitions

* `StoredRow.ofRow`: What a database writes for a row.
* `StoreCall.Encodable`, `StoreCall.Nests`, `StoreCall.HasRoom`,
  `StoreCall.Accepted`: No reason to refuse a call.
* `Database.readBack`: What a read answers when a row is there.

## Theorems

* `hasRoom_of_sizeOf_le`: Room for what is stored and sent is room for a merge.
* `holds_written_iff`: The rows of a database in its own spelling.
* `eq_of_lookup_eq_ofRow`: What is written is written for one row only.
* `load_of_holds`: A row is read back.
* `run_of_accepted`, `merge_of_accepted`: A call without a reason to refuse it is
  answered.
-/

namespace Fieldwork

/-- What a database writes for a row. -/
def StoredRow.ofRow (row : Row) : StoredRow :=
  ⟨row.document.toJson.compact, row.stamp⟩

/-- No other row is written like that. -/
theorem StoredRow.ofRow_injective : Function.Injective StoredRow.ofRow := by
  intro row other h
  rcases StoredRow.mk.inj h with ⟨htext, hstamp⟩
  have hfields := Json.object.inj (Json.compact_injective htext)
  exact Row.ext (Document.ext hfields) hstamp

namespace StoreCall

/-- A merge that can be put to the engine: its keys can be quoted, and its
    values are small enough together. -/
def Encodable : StoreCall → Prop
  | merge _ updates _ =>
    (∀ entry ∈ updates.fields, MemberPath.Quotable entry.1) ∧
      MergeStatement.encodedSize updates.fields ≤ updateLimit
  | _ => True

instance (call : StoreCall) : Decidable call.Encodable :=
  match call with
  | merge _ updates _ =>
    inferInstanceAs (Decidable ((∀ entry ∈ updates.fields, MemberPath.Quotable entry.1) ∧
      MergeStatement.encodedSize updates.fields ≤ updateLimit))
  | create _ | load _ | clear _ _ | delete _ => isTrue trivial

/-- Nothing that a call has to go through nests too deep. -/
def Nests (row : Option Row) : StoreCall → Prop
  | load _ => ∀ found ∈ row, found.document.toJson.depth ≤ Json.depthLimit
  | merge _ updates _ =>
    ∀ found ∈ row, Shallow found.document.fields ∧ Shallow updates.fields
  | _ => True

instance (row : Option Row) (call : StoreCall) : Decidable (call.Nests row) :=
  match call with
  | load _ =>
    inferInstanceAs (Decidable (∀ found ∈ row, found.document.toJson.depth ≤ Json.depthLimit))
  | merge _ updates _ =>
    inferInstanceAs
      (Decidable (∀ found ∈ row, Shallow found.document.fields ∧ Shallow updates.fields))
  | create _ | clear _ _ | delete _ => isTrue trivial

/-- The engine takes the texts that a merge binds, and the rows that its
    statements write one after the other. -/
def HasRoom : Option Row → StoreCall → Prop
  -- The first statement finds no row, and it is the last.
  | none, merge asset updates now =>
    ∀ group ∈ (MergeStatement.groupsOf updates.fields).head?,
      (MergeStatement.ofGroup group).Bindable now asset
  | some found, merge asset updates now =>
    ¬ MergeStatement.Overlong (nextStamp found.stamp now) asset found.document.toJson.compact
      (Json.toWrittenMembers found.document.fields) (MergeStatement.groupsOf updates.fields)
  | _, _ => True

instance (row : Option Row) (call : StoreCall) : Decidable (call.HasRoom row) :=
  match row, call with
  | none, merge asset updates now =>
    inferInstanceAs (Decidable (∀ group ∈ (MergeStatement.groupsOf updates.fields).head?,
      (MergeStatement.ofGroup group).Bindable now asset))
  | some found, merge asset updates now =>
    inferInstanceAs (Decidable (¬ MergeStatement.Overlong (nextStamp found.stamp now) asset
      found.document.toJson.compact (Json.toWrittenMembers found.document.fields)
      (MergeStatement.groupsOf updates.fields)))
  | none, create _ | none, load _ | none, clear _ _ | none, delete _ => isTrue trivial
  | some _, create _ | some _, load _ | some _, clear _ _ | some _, delete _ => isTrue trivial

/-- How many bytes the document of a row has as a text; where there is no row
    there are none. -/
def sizeOf (row : Option Row) : Nat :=
  (row.map fun found => found.document.toJson.compact.utf8ByteSize).getD 0

/-- There is room for a merge if the text of what is stored and the text of what
    is sent have room in a row together. -/
theorem hasRoom_of_sizeOf_le {row : Option Row} {asset : AssetId} {updates : Document}
    {now : Stamp}
    (hrow : ∀ found ∈ row, ∀ entry ∈ found.document.fields, MemberPath.Quotable entry.1)
    (hupdates : ∀ entry ∈ updates.fields, MemberPath.Quotable entry.1)
    (hsize : sizeOf row + updates.toJson.compact.utf8ByteSize + asset.name.utf8ByteSize +
      StoredRow.margin ≤ StoredText.lengthLimit) :
    (merge asset updates now).HasRoom row := by
  have hflatten := MergeStatement.flatten_groupsOf updates.fields
  cases row with
  | none =>
    intro group hgroup
    have hsent : updates.toJson.compact.utf8ByteSize + asset.name.utf8ByteSize ≤
        StoredText.lengthLimit := by
      omega
    refine MergeStatement.bindable_of_room hupdates hsent fun entry hentry => ?_
    rw [← hflatten]
    exact List.mem_flatten_of_mem (List.mem_of_mem_head? hgroup) hentry
  | some found => exact MergeStatement.not_overlong (hrow found rfl) hupdates hsize hflatten

/-- No reason to refuse a call whose row is `row`. -/
structure Accepted (row : Option Row) (call : StoreCall) : Prop where
  /-- It can be put to the engine. -/
  encodable : call.Encodable
  /-- Nothing nests too deep. -/
  nests : call.Nests row
  /-- The engine has room for it. -/
  room : call.HasRoom row

end StoreCall

namespace Database

variable {db : Database} {asset : AssetId} {row : Option Row}

/-- The rows of a database in its own spelling: the table has the texts of their
    documents. -/
theorem holds_written_iff :
    Holds .written db asset row ↔
      (∃ assets, db.assets = some assets ∧ assets.lookup asset = row.map StoredRow.ofRow) ∧
        ∀ found ∈ row, found.document.Spelled := by
  constructor
  · rintro ⟨assets, hassets, hrow⟩
    rcases hlookup : assets.lookup asset with _ | stored
    · rw [hlookup] at hrow
      cases hrow
      exact ⟨⟨assets, hassets, hlookup⟩, fun _ hfound => by cases hfound⟩
    · rw [hlookup] at hrow
      rcases hrow with ⟨⟨htext, hspelled⟩, hstamp⟩ | -
      refine ⟨⟨assets, hassets, hlookup.trans (congrArg some ?_)⟩, ?_⟩
      · exact StoredRow.ext htext hstamp
      · rintro found ⟨⟩
        exact hspelled
  · rintro ⟨⟨assets, hassets, hlookup⟩, hspelled⟩
    refine ⟨assets, hassets, ?_⟩
    rw [hlookup]
    cases row with
    | none => exact .none
    | some found => exact .some ⟨⟨rfl, hspelled found rfl⟩, rfl⟩

/-- What a table has is written for one row only. -/
theorem eq_of_lookup_eq_ofRow {other : Option Row}
    (h : ∃ assets, db.assets = some assets ∧ assets.lookup asset = row.map StoredRow.ofRow)
    (hother : ∃ assets, db.assets = some assets ∧
      assets.lookup asset = other.map StoredRow.ofRow) : row = other := by
  rcases h with ⟨assets, hassets, hlookup⟩
  rcases hother with ⟨_, hsame, hfound⟩
  cases hassets.symm.trans hsame
  exact Option.map_injective StoredRow.ofRow_injective (hlookup.symm.trans hfound)

/-- A table without rows has none for any asset. -/
theorem holds_none_of_nil (view : TextView) (h : db.assets = some []) (asset : AssetId) :
    Holds view db asset none :=
  holds_none_of_lookup view h rfl

/-- What a database reads back of a row. -/
def readBack : Option Row → Except StoreError (Option Row)
  | none => .ok none
  | some row =>
    if row.document.toJson.depth ≤ Json.depthLimit then .ok (some (row.readBy Document.reread))
    else .error StoredText.undecodable.toStoreError

/-- A row is read back, whatever it is, and nothing changes. -/
theorem load_of_holds (h : Holds .written db asset row) :
    calls.load asset db = (readBack row, db) := by
  rcases holds_written_iff.1 h with ⟨⟨assets, hassets, hlookup⟩, hrow⟩
  cases row with
  | none =>
    rw [load_eq, load_of_lookup_eq_none hassets hlookup]
    rfl
  | some found =>
    rw [load_eq, load_of_lookup_eq_some hassets hlookup, StoredRow.ofRow,
      StoredText.document_compact_eq (hrow found rfl), readBack]
    by_cases hdepth : found.document.toJson.depth ≤ Json.depthLimit
    · rw [if_pos hdepth, if_pos hdepth]
      rfl
    · rw [if_neg hdepth, if_neg hdepth]
      rfl

/-- A merge without a reason to refuse it succeeds. -/
theorem exists_merge_eq_ok {updates : Document} {now : Stamp} (h : Holds .written db asset row)
    (haccepted : (StoreCall.merge asset updates now).Accepted row) :
    ∃ result, db.merge asset updates now = .ok result := by
  rcases holds_written_iff.1 h with ⟨⟨assets, hassets, hlookup⟩, hrow⟩
  rcases haccepted with ⟨⟨hkeys, hsize⟩, hnests, hroom⟩
  rcases MergeStatement.batch_of_size_le hkeys hsize with ⟨statements, hbatch⟩
  rcases MergeStatement.groups_of_batch hbatch with ⟨-, rfl⟩
  rcases List.exists_cons_of_ne_nil (MergeStatement.groupsOf_ne_nil updates.fields) with
    ⟨group, groups, hgroups⟩
  have hflatten := MergeStatement.flatten_groupsOf updates.fields
  rw [hgroups] at hbatch hflatten
  rw [merge, hbatch, assetTable_eq_ok hassets]
  dsimp only
  cases row with
  | none =>
    have hstamp : stampOf assets asset now = now := by
      rw [stampOf, hlookup]
      rfl
    -- The first statement finds no row, and the others are not run.
    rw [StoreCall.HasRoom, hgroups] at hroom
    rw [hstamp, List.map_cons, MergeStatement.executeAll,
      MergeStatement.execute_of_lookup_eq_none hlookup (hroom group rfl)]
    exact ⟨_, rfl⟩
  | some found =>
    have hstamp : stampOf assets asset now = nextStamp found.stamp now := by
      rw [stampOf, hlookup]
      rfl
    rw [StoreCall.HasRoom, hgroups] at hroom
    have htext : Written.read? (StoredRow.ofRow found).text.toList =
        some (.object (Json.toWrittenMembers found.document.fields)) :=
      Json.read?_compact found.document.toJson
    rw [hstamp, List.map_cons, MergeStatement.executeAll_eq 0 _ _ hlookup, ← List.map_cons]
    rcases MergeStatement.rewriteAll_object _ asset (hflatten ▸ hkeys) htext with
      hall | ⟨-, hdeep⟩ | ⟨-, hlong⟩
    · rw [hall]
      exact ⟨_, rfl⟩
    · -- What the engine has to go through nests deep enough for it.
      refine absurd ⟨?_, ?_⟩ hdeep
      · have hshallow := depth_object_le_iff.2 (hnests found rfl).1
        rwa [← Json.depth_toWritten, Json.toWritten_object] at hshallow
      · rw [hflatten]
        exact (hnests found rfl).2
    · exact absurd hlong hroom

/-- A call without a reason to refuse it is answered and changes its row. -/
theorem run_of_accepted {call : StoreCall} (hcall : call.DistinctKeys)
    (h : Holds .written db call.asset row) (haccepted : call.Accepted row) :
    ∃ after, call.run calls db = (call.answer Document.reread row, after) ∧
      Holds .written after call.asset (call.next row) := by
  refine ((keeps .written).own call db row hcall (fun _ _ _ _ _ _ => trivial) h).resolve_left ?_
  rintro ⟨error, hrefused⟩
  have hassets : ∃ assets, db.assets = some assets := h.imp fun _ h => h.1
  rcases hassets with ⟨assets, hassets⟩
  -- Three kinds of calls are never refused, and the two others have succeeded.
  have hanswers (hanswers : db.Answers call) : False := by
    rcases hanswers with ⟨_, _, reply, -, hrun, hanswered, -⟩
    exact hanswered.ne_refused error (congrArg Prod.fst (hrun.symm.trans hrefused))
  cases call with
  | create asset => exact hanswers (answers_create hassets asset)
  | load asset =>
    have hload := congrArg (Prod.map StoreReply.loaded id) (load_of_holds h)
    cases row with
    | none => cases hrefused.symm.trans hload
    | some found =>
      rw [readBack, if_pos (haccepted.nests found rfl)] at hload
      cases hrefused.symm.trans hload
  | merge asset updates now =>
    rcases exists_merge_eq_ok h haccepted with ⟨result, hmerge⟩
    cases hrefused.symm.trans (congrArg (Prod.map StoreReply.written id) (call_ok hmerge))
  | clear asset now => exact hanswers (answers_clear hassets asset now)
  | delete asset => exact hanswers (answers_delete hassets asset)

/-- A merge without a reason to refuse it is answered. -/
theorem merge_of_accepted {updates : Document} (hu : updates.toJson.DistinctKeys) {now : Stamp}
    (h : Holds .written db asset row)
    (haccepted : (StoreCall.merge asset updates now).Accepted row) :
    ∃ after, calls.merge asset updates now db = (.ok (.ofRow row now), after) ∧
      Holds .written after asset (row.map fun found => found.written (·.merge updates) now) := by
  have hcall : (StoreCall.merge asset updates now).DistinctKeys := hu
  rcases run_of_accepted hcall h haccepted with ⟨after, hrun, hafter⟩
  exact ⟨after, RowStore.eq_of_map_eq (fun _ _ => StoreReply.written.inj) hrun, hafter⟩

end Database

end Fieldwork
