import Fieldwork.Proofs.Database.Keeping
import Fieldwork.Proofs.Store.Medium

/-!
# What a Database Reads Back

Which rows a database that nobody else writes to can read again.

Three programs bound how deep a document nests, and the bounds differ. Writing
a text has none. The engine, which edits the stored text, has one far beyond
the reader's. So a merge may be answered with the receipt of a row that it
changed, and leave a row that no read gets at: the engine nests the document,
and the reader does not. Nothing else keeps a reader from a row, though the
reader may find other numbers in it. The text is always that of a document, so
there is exactly one reason for a read to fail, and it can be told from the
document alone.

The documents of a run only nest as deep as what was sent. Each of their
values came with a merge whole, and merges put values side by side. A run
whose merges keep within the reader's bound therefore loses no row, and it is
enough that those into the row in question do.

## Main definitions

* `StoreCall.Legible`: A merge that keeps within the bound of a reader.
* `Row.Legible`: A row whose document does.

## Theorems

* `legible_next`: What is sent within the bound leaves a row within it.
* `legible_after`: So it is for a run.
* `load_of_legible`: A row within the bound is read back.
* `load_after`: What is read back after a run, and when a merge spoils it.
-/

namespace Fieldwork

namespace Document

theorem depth_merge_le {document updates : Document} {limit : Nat}
    (hd : document.toJson.depth ≤ limit + 1) (hu : updates.toJson.depth ≤ limit + 1) :
    (document.merge updates).toJson.depth ≤ limit + 1 := by
  -- A merge changes no value, so each one nests as deep as where it came from.
  rw [depth_toJson_le_iff] at hd hu ⊢
  exact Ordered.forall_mem_merge (p := fun (entry : String × Json) => entry.2.depth ≤ limit) hd hu

end Document

/-- A row whose document a reader nests. -/
def Row.Legible (row : Row) : Prop :=
  row.document.toJson.depth ≤ Json.depthLimit

instance (row : Row) : Decidable row.Legible :=
  inferInstanceAs (Decidable (row.document.toJson.depth ≤ Json.depthLimit))

theorem Row.legible_blank : Row.blank.Legible := by
  decide

namespace StoreCall

/-- A merge whose values a reader nests. -/
def Legible : StoreCall → Prop
  | merge _ updates _ => updates.toJson.depth ≤ Json.depthLimit
  | _ => True

instance (call : StoreCall) : Decidable call.Legible :=
  match call with
  | merge _ updates _ => inferInstanceAs (Decidable (updates.toJson.depth ≤ Json.depthLimit))
  | create _ | load _ | clear _ _ | delete _ => isTrue trivial

theorem legible_next {call : StoreCall} (hcall : call.Legible) {row : Option Row}
    (hrow : ∀ found ∈ row, found.Legible) : ∀ found ∈ call.next row, found.Legible := by
  intro found hfound
  -- Only a merge can make a document nest deeper, and no deeper than its updates.
  cases call with
  | create asset =>
    cases hfound
    cases row with
    | none => exact Row.legible_blank
    | some old => exact hrow old rfl
  | load asset => exact hrow found hfound
  | merge asset updates now =>
    rcases Option.map_eq_some_iff.1 hfound with ⟨old, hold, rfl⟩
    exact Document.depth_merge_le (hrow old hold) hcall
  | clear asset now =>
    rcases Option.map_eq_some_iff.1 hfound with ⟨old, -, rfl⟩
    exact Row.legible_blank
  | delete asset => cases hfound

end StoreCall

namespace Database

variable {db : Database} {asset : AssetId} {row : Option Row}

theorem readBack_of_legible (h : ∀ found ∈ row, found.Legible) :
    readBack row = .ok (row.map (·.readBy Document.reread)) := by
  cases row with
  | none => rfl
  | some found => exact if_pos (h found rfl)

/-- The row of an asset keeps within the bound, if the merges into it do. Only
    calls about an asset can spoil its row. -/
theorem legible_after {run : List StoreCall} (hrun : ∀ call ∈ run, call.DistinctKeys)
    (hlegible : ∀ call ∈ run, call.asset = asset → call.Legible) (h : Holds .written db asset row)
    (hrow : ∀ found ∈ row, found.Legible) :
    ∃ row, Holds .written (calls.after db run) asset row ∧ ∀ found ∈ row, found.Legible := by
  induction run generalizing db row with
  | nil => exact ⟨row, h, hrow⟩
  | cons call rest ih =>
    rcases List.forall_mem_cons.1 hrun with ⟨hdistinct, hrest⟩
    rcases List.forall_mem_cons.1 hlegible with ⟨hcall, hlater⟩
    rcases (keeps .written).holds_run hdistinct (fun _ _ _ _ _ _ _ => trivial) h with
      hsame | ⟨hasset, hnext⟩
    · exact ih hrest hlater hsame hrow
    · exact ih hrest hlater hnext (StoreCall.legible_next (hcall hasset) hrow)

/-- A row within the bound is read back, and it is what is stored. -/
theorem load_of_legible (h : Holds .written db asset row) (hrow : ∀ found ∈ row, found.Legible) :
    calls.load asset db = (.ok (db.row? asset), db) := by
  rw [load_of_holds h, readBack_of_legible hrow, row?_of_written h]

/-- A merge that changed a row found one, and the merged row is read back as
    far as it nests. -/
theorem load_of_applied {after : Database} (hrow : Holds .written db asset row)
    {updates : Document} (hu : updates.toJson.DistinctKeys) {now : Stamp} {receipt : Receipt}
    (h : calls.merge asset updates now db = (.ok receipt, after))
    (happlied : receipt.applied = true) :
    ∃ found, row = some found ∧
      calls.load asset after = (readBack (some (found.written (·.merge updates) now)), after) := by
  rcases (keeps .written).merge hu (fun _ _ _ _ _ _ => trivial) hrow with
    ⟨error, hrefused⟩ | ⟨_, hanswered, hafter⟩
  · cases hrefused.symm.trans h
  · cases hanswered.symm.trans h
    -- Without a row no row is counted, and the merge would not have been applied.
    cases row with
    | none => cases happlied
    | some found => exact ⟨found, rfl, load_of_holds hafter⟩

/-- What is read back after a run. The store starts without rows, and nobody
    else writes to it. What it has for an asset is then the text of a document,
    or nothing, and a read gives that document back, with the numbers that a
    reader finds, if it nests within the reader's bound, and is refused as
    corrupt if it does not. A merge that a database accepts is answered, however
    deep its values; what it leaves is read back just if the merged document
    nests within the bound. If the merges into a row all keep within it, the row
    is read back. -/
theorem load_after (hdb : db.assets = some []) {run : List StoreCall}
    (hrun : ∀ call ∈ run, call.DistinctKeys) (asset : AssetId) :
    let state := calls.after db run
    ∃ row : Option Row,
      (∃ assets, state.assets = some assets ∧ assets.lookup asset = row.map StoredRow.ofRow) ∧
      state.row? asset = row.map (·.readBy Document.reread) ∧
      calls.load asset state = (readBack row, state) ∧
      (∀ (updates : Document) (now : Stamp), updates.toJson.DistinctKeys →
        ((StoreCall.merge asset updates now).Accepted row →
          ∃ after, calls.merge asset updates now state = (.ok (.ofRow row now), after)) ∧
        ∀ receipt after, calls.merge asset updates now state = (.ok receipt, after) →
          receipt.applied = true →
          ∃ found, row = some found ∧
            calls.load asset after =
              (readBack (some (found.written (·.merge updates) now)), after)) ∧
      ((∀ call ∈ run, call.asset = asset → call.Legible) →
        calls.load asset state = (.ok (state.row? asset), state)) := by
  intro state
  have hstart := holds_none_of_nil .written hdb asset
  -- The asset has a row or none from the start, and calls keep it so.
  rcases (keeps .written).exists_holds_after (fun _ _ _ _ _ _ _ _ => trivial) hrun hstart with
    ⟨row, hrow⟩
  refine ⟨row, (holds_written_iff.1 hrow).1, row?_of_written hrow, load_of_holds hrow,
    fun updates now hu => ⟨fun haccepted => ?_, fun receipt after h happlied => ?_⟩,
    fun hlegible => ?_⟩
  · rcases merge_of_accepted hu hrow haccepted with ⟨after, hanswered, -⟩
    exact ⟨after, hanswered⟩
  · exact load_of_applied hrow hu h happlied
  · rcases legible_after hrun hlegible hstart (fun _ hfound => by cases hfound) with
      ⟨found, hfound, hfits⟩
    exact load_of_legible hfound hfits

/-- A value that the engine nests and a reader does not: within its document
    it is one level too deep. -/
def deepUpdates : Document :=
  .single "d" (Json.nested Json.depthLimit .null)

theorem distinctKeys_deepUpdates : deepUpdates.toJson.DistinctKeys := by
  have hcore : Json.null.DistinctKeys := trivial
  rw [Document.distinctKeys_toJson_iff]
  exact List.forall_mem_singleton.2 (Json.distinctKeys_nested hcore Json.depthLimit)

theorem encodable_deepUpdates (asset : AssetId) (now : Stamp) :
    (StoreCall.merge asset deepUpdates now).Encodable :=
  ⟨by decide, by decide +kernel⟩

theorem depth_deepUpdates : deepUpdates.toJson.depth = Json.depthLimit + 1 := by
  rw [deepUpdates, Document.single, Document.toJson, Json.depth, Json.depthOfMembers,
    Json.depthOfMembers, Json.depth_nested]
  rfl

theorem shallow_deepUpdates : Shallow deepUpdates.fields := by
  rw [← depth_object_le_iff, ← Document.toJson, depth_deepUpdates]
  decide

/-- The engine takes it where what is stored leaves room for it. -/
theorem accepted_deepUpdates {row : Row} {asset : AssetId} {now : Stamp}
    (hshallow : Shallow row.document.fields)
    (hkeys : ∀ entry ∈ row.document.fields, MemberPath.Quotable entry.1)
    (hsize : StoreCall.sizeOf (some row) + deepUpdates.toJson.compact.utf8ByteSize +
      asset.name.utf8ByteSize + StoredRow.margin ≤ StoredText.lengthLimit) :
    (StoreCall.merge asset deepUpdates now).Accepted (some row) := by
  have hencodable := encodable_deepUpdates asset now
  refine ⟨hencodable, ?_, StoreCall.hasRoom_of_sizeOf_le ?_ hencodable.1 hsize⟩
  · rintro found ⟨⟩
    exact ⟨hshallow, shallow_deepUpdates⟩
  · rintro found ⟨⟩
    exact hkeys

/-- A new row takes a merge that is accepted. -/
theorem run_of_created {asset : AssetId} {updates : Document} {now : Stamp}
    (hu : updates.toJson.DistinctKeys)
    (haccepted : (StoreCall.merge asset updates now).Accepted (some .blank)) :
    ∃ created merged,
      (StoreCall.create asset).run calls Medium.database.empty = (.created (.ok ()), created) ∧
      (StoreCall.merge asset updates now).run calls created = (.written (.ok ⟨now, 1⟩), merged) ∧
      Holds .written merged asset (some ⟨Document.empty.merge updates, some now⟩) := by
  have hempty : Holds .written Medium.database.empty asset none :=
    Medium.written_empty .database asset
  have hcreating : (StoreCall.create asset).DistinctKeys := trivial
  have hmerging : (StoreCall.merge asset updates now).DistinctKeys := hu
  -- The new row is blank, so the merge meets a document that nests no deeper than
  -- one level.
  rcases run_of_accepted hcreating hempty ⟨trivial, trivial, trivial⟩ with
    ⟨created, hcreate, hblank⟩
  rcases run_of_accepted hmerging hblank haccepted with ⟨merged, hmerge, hrow⟩
  exact ⟨created, merged, hcreate, hmerge, hrow⟩

/-- A run that leaves a row with one value. -/
def shallowRun : List StoreCall :=
  [.create ⟨"aX"⟩, .merge ⟨"aX"⟩ (.single "k" (.bool true)) 10]

theorem holds_shallowRun :
    Holds .written (calls.after Medium.database.empty shallowRun) ⟨"aX"⟩
      (some ⟨.single "k" (.bool true), some 10⟩) := by
  have haccepted : (StoreCall.merge ⟨"aX"⟩ (.single "k" (.bool true)) 10).Accepted
      (some .blank) :=
    ⟨by decide, by decide, by decide +kernel⟩
  rcases run_of_created (by decide) haccepted with ⟨created, merged, hcreate, hmerge, hrow⟩
  have hafter : calls.after Medium.database.empty shallowRun = merged := by
    rw [shallowRun, RowStore.after, List.foldl_cons, List.foldl_cons, hcreate, hmerge]
    rfl
  rw [hafter]
  exact hrow

/-- A row is there and is read. Then a value that nests too deep is merged into
    it, and the merge is answered like any other. -/
theorem load_after_shallowRun :
    let state := calls.after Medium.database.empty shallowRun
    let row : Row := ⟨.single "k" (.bool true), some 10⟩
    (∀ call ∈ shallowRun, call.DistinctKeys) ∧
      calls.load ⟨"aX"⟩ state = (.ok (some row), state) ∧
      ∃ after, calls.merge ⟨"aX"⟩ deepUpdates 20 state = (.ok ⟨20, 1⟩, after) ∧
        calls.load ⟨"aX"⟩ after =
          (readBack (some (row.written (·.merge deepUpdates) 20)), after) := by
  intro state row
  have hrun : ∀ call ∈ shallowRun, call.DistinctKeys := by
    decide
  have hlegible : ∀ call ∈ shallowRun, call.asset = ⟨"aX"⟩ → call.Legible := by
    decide
  have hempty : Database.assets Medium.database.empty = some [] := rfl
  rcases load_after hempty hrun ⟨"aX"⟩ with ⟨found, htable, hread, -, hmerge, hload⟩
  -- The row is the one that was written, since no other has its text.
  cases eq_of_lookup_eq_ofRow htable (holds_written_iff.1 holds_shallowRun).1
  have hload := hload hlegible
  rw [hread] at hload
  have haccepted : (StoreCall.merge ⟨"aX"⟩ deepUpdates 20).Accepted (some row) :=
    accepted_deepUpdates (List.forall_mem_singleton.2 (by decide)) (by decide) (by decide +kernel)
  rcases hmerge deepUpdates 20 distinctKeys_deepUpdates with ⟨hanswered, happlied⟩
  rcases hanswered haccepted with ⟨after, hafter⟩
  rcases happlied _ after hafter rfl with ⟨other, hother, hloaded⟩
  cases hother
  exact ⟨hrun, hload, after, hafter, hloaded⟩

/-- A merge changes a row and says so, and the row is not read again. -/
theorem load_of_deepUpdates :
    let asset : AssetId := ⟨"aX"⟩
    Receipt.applied ⟨10, 1⟩ = true ∧
      calls.replies Medium.database.empty
          [.create asset, .merge asset deepUpdates 10, .load asset] =
        [.created (.ok ()), .written (.ok ⟨10, 1⟩),
          .loaded (.error (.corrupt ("deployment document decode failed: " ++ elided)))] := by
  intro asset
  refine ⟨rfl, ?_⟩
  have haccepted : (StoreCall.merge asset deepUpdates 10).Accepted (some .blank) :=
    accepted_deepUpdates (List.forall_mem_nil _) (List.forall_mem_nil _) (by decide +kernel)
  rcases run_of_created distinctKeys_deepUpdates haccepted with
    ⟨created, merged, hcreate, hmerge, hrow⟩
  have hdocument : Document.empty.merge deepUpdates = deepUpdates := rfl
  rw [hdocument] at hrow
  -- The document nests one level more than a reader admits.
  have htoo : ¬ deepUpdates.toJson.depth ≤ Json.depthLimit := by
    rw [depth_deepUpdates]
    exact Nat.lt_irrefl Json.depthLimit
  have hread := load_of_holds hrow
  rw [readBack, if_neg htoo] at hread
  have hload : (StoreCall.load asset).run calls merged =
      (.loaded (.error StoredText.undecodable.toStoreError), merged) := by
    rw [StoreCall.run, hread]
    rfl
  rw [RowStore.replies, hcreate, RowStore.replies, hmerge, RowStore.replies, hload]
  rfl

end Database

end Fieldwork
