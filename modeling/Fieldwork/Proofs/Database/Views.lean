import Fieldwork.Proofs.Database.Members
import Fieldwork.Proofs.Store.Calls

/-!
# Rows behind Stored Texts

What the calls of a database do to its rows, however one looks at the texts.

A database has a text for an asset where other stores have a document, and
there are two ways to see a document in it. What a database writes itself is
the compact text of a document, and that document is what was merged and put
in, number for number. A text of anyone else is the document that a reader
finds in it. The two ways part where a number is not read back as what it was,
and neither of them is the better one: the first knows what was sent, the
second works for rows that other programs have written.

What a call does to the rows is the same in both. Each call does one thing to
the table of assets, or is refused, and all rows but one stay as they were.
So a `TextView` states what is needed of a text alone: how a document stands
behind it when members are set, and what a read of it finds.

## Main definitions

* `Database.stored?`: What is stored for an asset.
* `TextView`: A way to see documents in stored texts.
* `TextView.written`, `TextView.asRead`: The two ways.
* `Database.Answered`: What an answered call makes of a stored row.
* `Database.Holds`: The row that a database has for an asset.
* `TextView.rows`: The rows that are seen in a database.

## Theorems

* `merge_eq_ok`: What a merge that is answered has done.
* `run_cases`: A call is refused, or it is answered and touches one row.
* `keeps`: A database keeps the rows that are seen in it.
-/

namespace Fieldwork

/-- A document as a database writes it: keys that can be quoted, and values
    that have each key once. -/
structure Document.Spelled (document : Document) : Prop where
  /-- The keys can be quoted. -/
  quotable : ∀ entry ∈ document.fields, MemberPath.Quotable entry.1
  /-- The values have each key once. -/
  distinct : ∀ entry ∈ document.fields, entry.2.DistinctKeys

namespace Document

theorem spelled_empty : empty.Spelled :=
  ⟨fun _ h => absurd h List.not_mem_nil, fun _ h => absurd h List.not_mem_nil⟩

theorem Spelled.merge {document updates : Document} (hd : document.Spelled)
    (hu : updates.Spelled) : (document.merge updates).Spelled :=
  ⟨Ordered.forall_mem_merge (p := fun entry => MemberPath.Quotable entry.1) hd.quotable
      hu.quotable,
    Ordered.forall_mem_merge (p := fun (entry : String × Json) => entry.2.DistinctKeys) hd.distinct
      hu.distinct⟩

end Document

namespace StoredText

/-- What a reader says of a text that is none of a value. -/
def undecodable : DatabaseError :=
  .corrupt ("deployment document decode failed: " ++ elided)

/-- The compact text of a document is read, with the numbers that a reader
    finds, unless it nests too deep for the reader. -/
theorem document_compact_eq {document : Document} (h : document.Spelled) :
    StoredText.document document.toJson.compact =
      if document.toJson.depth ≤ Json.depthLimit then .ok document.reread
      else .error undecodable := by
  rw [StoredText.document]
  by_cases hdepth : document.toJson.depth ≤ Json.depthLimit
  · have hdistinct := Document.distinctKeys_toJson_iff.2 h.distinct
    rw [Json.parse?_compact hdistinct hdepth, if_pos hdepth]
    dsimp only
    rw [← Document.toJson_reread, Document.ofJson?_toJson]
  · -- The text is one of a value, but of none within the limit.
    rw [Json.parse?_compact_eq_none hdepth, if_neg hdepth]
    rfl

theorem value?_compact {document : Document} (h : document.Spelled) {limit : Nat}
    (hdepth : document.toJson.depth ≤ limit) :
    value? limit document.toJson.compact = some document.reread.toJson := by
  have hdistinct := Document.distinctKeys_toJson_iff.2 h.distinct
  rw [value?, Json.read?_compact, Option.bind_some, Document.toJson_reread,
    Json.json?_toWritten document.toJson hdistinct limit hdepth]

theorem contents?_compact {document : Document} (h : document.Spelled) :
    contents? document.toJson.compact = some document.reread :=
  contents?_eq_some_iff.2 ⟨_, value?_compact h (Nat.le_refl _)⟩

end StoredText

/-- A way to see documents in stored texts. -/
structure TextView where
  /-- The document that a text stands for. -/
  stands : String → Document → Prop
  /-- The updates of a text that can be followed. -/
  admits : String → Document → Prop
  /-- What a read finds of a document. -/
  read : Document → Document
  /-- A new text stands for the empty document. -/
  blank : stands StoredText.blank .empty
  /-- A text in which members were set stands for the document merged. -/
  edit : ∀ {text : String} {document updates : Document}, stands text document →
    admits text updates → updates.toJson.DistinctKeys →
      (∀ entry ∈ updates.fields, MemberPath.Quotable entry.1) →
        ∃ members, Written.read? text.toList = some (.object members) ∧
          stands (StoredText.edited text members updates.fields) (document.merge updates)
  /-- What a read finds if it succeeds. -/
  load : ∀ {text : String} {document found : Document}, stands text document →
    StoredText.document text = .ok found → found = read document

namespace TextView

/-- Texts that a database has written. They stand for the document as it was
    sent, and a read finds what its numbers are read as. -/
def written : TextView where
  stands text document := text = document.toJson.compact ∧ document.Spelled
  admits _ _ := True
  read := Document.reread
  blank := ⟨rfl, Document.spelled_empty⟩
  edit := by
    rintro _ document updates ⟨rfl, hdocument⟩ - hdistinct hkeys
    refine ⟨Json.toWrittenMembers document.fields, Json.read?_compact document.toJson, ?_, ?_⟩
    · exact StoredText.edited_compact hdocument.quotable hkeys
    · exact hdocument.merge ⟨hkeys, Document.distinctKeys_toJson_iff.1 hdistinct⟩
  load := by
    rintro _ document found ⟨rfl, hdocument⟩ hfound
    rw [StoredText.document_compact_eq hdocument] at hfound
    split at hfound
    · exact (Except.ok.inj hfound).symm
    · cases hfound

/-- Texts of anyone. They stand for the document that a reader finds in them.
    Updates can be followed if a reader finds their numbers again, and if none
    of their keys can be taken for another. -/
def asRead : TextView where
  stands text document := StoredText.contents? text = some document
  admits text updates := updates.reread = updates ∧
    ∀ members, Written.read? text.toList = some (.object members) →
      ∀ key ∈ updates.keys, Written.Singular (Ordered.keys members) key
  read := id
  blank := by decide +kernel
  edit := by
    rintro text document updates hdocument ⟨hupdates, hsingular⟩ hdistinct hkeys
    rcases StoredText.exists_members_of_contents? hdocument with ⟨members, htext⟩
    have hsettable : Written.Settable members updates.fields :=
      ⟨hkeys, updates.distinct, fun entry hentry =>
        hsingular members htext entry.1 (List.mem_map_of_mem hentry)⟩
    refine ⟨members, htext, StoredText.contents?_eq_some_iff.2 ?_⟩
    -- A reader whose limit is high enough for both finds the merge.
    rcases StoredText.contents?_eq_some_iff.1 hdocument with ⟨limit, hvalue⟩
    refine ⟨max limit updates.toJson.depth, ?_⟩
    have hmerged := StoredText.value?_of_setAll htext hsettable
      (StoredText.read?_edited hkeys htext) hdistinct (Nat.le_max_right ..)
      (StoredText.value?_of_le hvalue (Nat.le_max_left ..))
    rwa [hupdates] at hmerged
  load h hfound := Option.some.inj ((StoredText.contents?_of_document hfound).symm.trans h)

/-- A stored row that stands for a row. -/
structure Stores (view : TextView) (stored : StoredRow) (row : Row) : Prop where
  /-- Its text stands for the document. -/
  text : view.stands stored.text row.document
  /-- It has the stamp. -/
  stamp : stored.stamp = row.stamp

end TextView

namespace Database

/-- What is stored for an asset. -/
def stored? (db : Database) (asset : AssetId) : Option StoredRow :=
  db.assets.bind fun assets => assets.lookup asset

section Calls

variable {α : Type} {act : Database → Except DatabaseError (α × Database)}

theorem call_ok {db after : Database} {result : α} (h : act db = .ok (result, after)) :
    call act db = (.ok result, after) := by
  rw [call, transact, h]

theorem call_error {db : Database} {error : DatabaseError} (h : act db = .error error) :
    call act db = (.error error.toStoreError, db) := by
  rw [call, transact, h]

theorem call_eq_ok_iff {db after : Database} {result : α} :
    call act db = (.ok result, after) ↔ act db = .ok (result, after) := by
  rcases hact : act db with error | ⟨found, final⟩
  · rw [call_error hact]
    exact iff_of_false (fun h => by cases h) (fun h => by cases h)
  · rw [call_ok hact, Prod.mk.injEq, Except.ok.injEq, Except.ok.injEq, Prod.mk.injEq]

/-- A call that fails leaves the database as it was. -/
theorem eq_of_call_eq_error {db after : Database} {error : StoreError}
    (h : call act db = (.error error, after)) : after = db := by
  rcases hact : act db with refusal | ⟨found, final⟩
  · rw [call_error hact] at h
    exact (congrArg Prod.snd h).symm
  · rw [call_ok hact] at h
    cases h

/-- What succeeds on the table of assets has found one. -/
theorem exists_assets_of_eq_ok {db : Database} {act : AssetTable → Except DatabaseError α}
    {result : α}
    (h : (match db.assetTable with
      | .error error => Except.error error
      | .ok assets => act assets) = .ok result) :
    ∃ assets, db.assets = some assets ∧ act assets = .ok result := by
  unfold assetTable at h
  rcases hassets : db.assets with _ | assets
  · rw [hassets] at h
    cases h
  · rw [hassets] at h
    exact ⟨assets, rfl, h⟩

end Calls

variable {db : Database} {assets : AssetTable} {asset : AssetId}

theorem assetTable_eq_ok (h : db.assets = some assets) : db.assetTable = .ok assets := by
  rw [assetTable, h]

/-- A read gives what it finds and leaves the database. -/
theorem load_eq (db : Database) (asset : AssetId) :
    calls.load asset db =
      ((db.load asset).mapError DatabaseError.toStoreError, db) := by
  have hcall : ∀ found, db.load asset = found →
      calls.load asset db = call (fun db => found.map (·, db)) db := by
    rintro found rfl
    rfl
  rw [hcall _ rfl]
  rcases db.load asset with error | found
  · rfl
  · rfl

theorem load_of_lookup_eq_none (hassets : db.assets = some assets)
    (hlookup : assets.lookup asset = none) : db.load asset = .ok none := by
  rw [load, assetTable_eq_ok hassets]
  dsimp only
  rw [hlookup]

/-- A read of a row decodes its text. -/
theorem load_of_lookup_eq_some {row : StoredRow} (hassets : db.assets = some assets)
    (hlookup : assets.lookup asset = some row) :
    db.load asset =
      (StoredText.document row.text).map fun document => some ⟨document, row.stamp⟩ := by
  rw [load, assetTable_eq_ok hassets]
  dsimp only
  rw [hlookup]
  dsimp only
  rcases StoredText.document row.text with error | document
  · rfl
  · rfl

/-- What a merge that is answered has done: its statements rewrote the row one
    after the other, or there was none. -/
theorem merge_eq_ok {after : Database} {updates : Document} {now : Stamp} {receipt : Receipt}
    (h : db.merge asset updates now = .ok (receipt, after)) :
    (∀ entry ∈ updates.fields, MemberPath.Quotable entry.1) ∧
      MergeStatement.encodedSize updates.fields ≤ updateLimit ∧
      ∃ assets group groups, db.assets = some assets ∧ (group :: groups).flatten = updates.fields ∧
        receipt.stamp = stampOf assets asset now ∧
        (assets.lookup asset = none ∧ receipt.rows = 0 ∧ after = db ∨
          ∃ row rewritten, assets.lookup asset = some row ∧ receipt.rows = 1 ∧
            MergeStatement.rewriteAll receipt.stamp asset
              ((group :: groups).map MergeStatement.ofGroup) row = .ok rewritten ∧
            after = { db with assets := some (Ordered.insert asset rewritten assets) }) := by
  rw [merge] at h
  rcases hbatch : MergeStatement.batch updates with refusal | statements
  · rw [hbatch] at h
    cases h
  rw [hbatch] at h
  rcases MergeStatement.batch_eq_ok hbatch with ⟨hkeys, group, groups, hflatten, rfl⟩
  refine ⟨hkeys, MergeStatement.encodedSize_le_of_batch hbatch, ?_⟩
  rcases exists_assets_of_eq_ok h with ⟨assets, hassets, h⟩
  dsimp only at h
  refine ⟨assets, group, groups, hassets, hflatten, ?_⟩
  rcases hlookup : assets.lookup asset with _ | row
  · -- Without a row the first statement finds nothing, and no other is executed.
    rw [List.map_cons, MergeStatement.executeAll] at h
    by_cases hbind : (MergeStatement.ofGroup group).Bindable (stampOf assets asset now) asset
    · rw [MergeStatement.execute_of_lookup_eq_none hlookup hbind] at h
      cases h
      exact ⟨rfl, Or.inl ⟨rfl, rfl, Database.ext rfl hassets.symm rfl⟩⟩
    · rw [MergeStatement.execute, if_neg hbind] at h
      cases h
  · rw [List.map_cons, MergeStatement.executeAll_eq 0 _ _ hlookup, ← List.map_cons] at h
    -- The statements rewrite the row one after another; if one is refused, so are all.
    rcases hall : MergeStatement.rewriteAll (stampOf assets asset now) asset
      ((group :: groups).map MergeStatement.ofGroup) row with error | rewritten
    · rw [hall] at h
      cases h
    · rw [hall] at h
      cases h
      exact ⟨rfl, Or.inr ⟨row, rewritten, rfl, rfl, hall, rfl⟩⟩

/-- Without a table of assets every call is refused. -/
theorem run_of_assets_eq_none (h : db.assets = none) (call : StoreCall) :
    ∃ error, call.run calls db = (call.refused error, db) := by
  have htable : db.assetTable = .error .missingTable := by
    rw [assetTable, h]
  cases call with
  | create asset =>
    have hact : create asset db = .error .missingTable := by
      rw [create, htable]
    exact ⟨_, congrArg (Prod.map StoreReply.created id) (call_error hact)⟩
  | load asset =>
    have hact : db.load asset = .error .missingTable := by
      rw [load, htable]
    rw [StoreCall.run, load_eq, hact]
    exact ⟨_, rfl⟩
  | merge asset updates now =>
    rcases hmerge : db.merge asset updates now with error | ⟨receipt, after⟩
    · exact ⟨_, congrArg (Prod.map StoreReply.written id) (call_error hmerge)⟩
    · rcases (merge_eq_ok hmerge).2.2 with ⟨assets, -, -, hassets, -⟩
      cases h.symm.trans hassets
  | clear asset now =>
    have hact : db.clear asset now = .error .missingTable := by
      rw [clear, htable]
    exact ⟨_, congrArg (Prod.map StoreReply.written id) (call_error hact)⟩
  | delete asset =>
    have hact : db.delete asset = .error .missingTable := by
      rw [delete, htable]
    exact ⟨_, congrArg (Prod.map StoreReply.deleted id) (call_error hact)⟩

/-- What an answered call makes of what is stored for its asset. -/
inductive Answered : StoreCall → Option StoredRow → StoreReply → Option StoredRow → Prop where
  /-- A row is made unless there is one. -/
  | create (asset : AssetId) (stored : Option StoredRow) :
    Answered (.create asset) stored (.created (.ok ()))
      (some (stored.getD ⟨StoredText.blank, none⟩))
  /-- There is no row to be read. -/
  | loadNone (asset : AssetId) : Answered (.load asset) none (.loaded (.ok none)) none
  /-- A row is read. -/
  | load (asset : AssetId) (row : StoredRow) (document : Document)
      (h : StoredText.document row.text = .ok document) :
    Answered (.load asset) (some row) (.loaded (.ok (some ⟨document, row.stamp⟩))) (some row)
  /-- There is no row to merge into. -/
  | mergeNone (asset : AssetId) (updates : Document) (now : Stamp) :
    Answered (.merge asset updates now) none (.written (.ok ⟨now, 0⟩)) none
  /-- Statements rewrite a row. -/
  | merge (asset : AssetId) (updates : Document) (now : Stamp) (row after : StoredRow)
      (group : List (String × Json)) (groups : List (List (String × Json)))
      (hkeys : ∀ entry ∈ updates.fields, MemberPath.Quotable entry.1)
      (hflatten : (group :: groups).flatten = updates.fields)
      (h : MergeStatement.rewriteAll (nextStamp row.stamp now) asset
        ((group :: groups).map MergeStatement.ofGroup) row = .ok after) :
    Answered (.merge asset updates now) (some row)
      (.written (.ok ⟨nextStamp row.stamp now, 1⟩)) (some after)
  /-- There is no row to empty. -/
  | clearNone (asset : AssetId) (now : Stamp) :
    Answered (.clear asset now) none (.written (.ok ⟨now, 0⟩)) none
  /-- A row is emptied. -/
  | clear (asset : AssetId) (now : Stamp) (row : StoredRow) :
    Answered (.clear asset now) (some row) (.written (.ok ⟨nextStamp row.stamp now, 1⟩))
      (some ⟨StoredText.blank, some (nextStamp row.stamp now)⟩)
  /-- A row is taken out if there is one. -/
  | delete (asset : AssetId) (stored : Option StoredRow) :
    Answered (.delete asset) stored (.deleted (.ok stored.isSome)) none

theorem Answered.ne_refused {call : StoreCall} {stored after : Option StoredRow}
    {reply : StoreReply} (h : Answered call stored reply after) (error : StoreError) :
    reply ≠ call.refused error := by
  intro hreply
  cases h <;> cases hreply

/-- A call is answered, and changes what is stored for its asset and for no
    other. -/
def Answers (db : Database) (call : StoreCall) : Prop :=
  ∃ assets after reply, db.assets = some assets ∧
    call.run calls db = (reply, { db with assets := some after }) ∧
      Answered call (assets.lookup call.asset) reply (after.lookup call.asset) ∧
        ∀ other, other ≠ call.asset → after.lookup other = assets.lookup other

/-- A call that leaves the table as it is. -/
theorem answers_of_self {call : StoreCall} {reply : StoreReply} (hassets : db.assets = some assets)
    (hrun : call.run calls db = (reply, db))
    (h : Answered call (assets.lookup call.asset) reply (assets.lookup call.asset)) :
    db.Answers call :=
  ⟨assets, assets, reply, hassets, hrun.trans (congrArg _ (Database.ext rfl hassets rfl)), h,
    fun _ _ => rfl⟩

/-- A call that puts a row into the table. -/
theorem answers_of_insert {call : StoreCall} {reply : StoreReply} {row : StoredRow}
    (hassets : db.assets = some assets)
    (hrun : call.run calls db =
      (reply, { db with assets := some (Ordered.insert call.asset row assets) }))
    (h : Answered call (assets.lookup call.asset) reply (some row)) : db.Answers call := by
  refine ⟨assets, _, reply, hassets, hrun, ?_, fun other hne => ?_⟩
  · rw [Ordered.lookup_insert call.asset call.asset row assets, if_pos rfl]
    exact h
  · rw [Ordered.lookup_insert, if_neg hne]

theorem answers_create (hassets : db.assets = some assets) (asset : AssetId) :
    db.Answers (.create asset) := by
  have hanswered := Answered.create asset (assets.lookup asset)
  rcases hlookup : assets.lookup asset with _ | row
  · have hact : create asset db = .ok ((),
        { db with assets := some (Ordered.insert asset ⟨StoredText.blank, none⟩ assets) }) := by
      rw [create, assetTable_eq_ok hassets]
      dsimp only
      rw [hlookup]
    rw [hlookup] at hanswered
    refine answers_of_insert hassets (congrArg (Prod.map StoreReply.created id) (call_ok hact)) ?_
    rw [StoreCall.asset, hlookup]
    exact hanswered
  · have hact : create asset db = .ok ((), db) := by
      rw [create, assetTable_eq_ok hassets]
      dsimp only
      rw [hlookup]
    rw [hlookup] at hanswered
    refine answers_of_self hassets (congrArg (Prod.map StoreReply.created id) (call_ok hact)) ?_
    rw [StoreCall.asset, hlookup]
    exact hanswered

theorem answers_clear (hassets : db.assets = some assets) (asset : AssetId) (now : Stamp) :
    db.Answers (.clear asset now) := by
  rcases hlookup : assets.lookup asset with _ | row
  · have hact : db.clear asset now = .ok (⟨now, 0⟩, db) := by
      rw [clear, assetTable_eq_ok hassets]
      dsimp only
      rw [stampOf, hlookup]
      rfl
    refine answers_of_self hassets (congrArg (Prod.map StoreReply.written id) (call_ok hact)) ?_
    rw [StoreCall.asset, hlookup]
    exact .clearNone asset now
  · have hact : db.clear asset now = .ok (⟨nextStamp row.stamp now, 1⟩, { db with
        assets := some (Ordered.insert asset
          ⟨StoredText.blank, some (nextStamp row.stamp now)⟩ assets) }) := by
      rw [clear, assetTable_eq_ok hassets]
      dsimp only
      rw [stampOf, hlookup]
      rfl
    refine answers_of_insert hassets (congrArg (Prod.map StoreReply.written id) (call_ok hact)) ?_
    rw [StoreCall.asset, hlookup]
    exact .clear asset now row

theorem answers_delete (hassets : db.assets = some assets) (asset : AssetId) :
    db.Answers (.delete asset) := by
  have hact : db.delete asset = .ok ((assets.lookup asset).isSome,
      { db with assets := some (Ordered.erase asset assets) }) := by
    rw [delete, assetTable_eq_ok hassets]
  refine ⟨assets, _, _, hassets, congrArg (Prod.map StoreReply.deleted id) (call_ok hact), ?_,
    fun other hne => ?_⟩
  · rw [StoreCall.asset, Ordered.lookup_erase asset asset, if_pos rfl]
    exact .delete asset (assets.lookup asset)
  · exact (Ordered.lookup_erase asset other assets).trans (if_neg hne)

theorem run_load (hassets : db.assets = some assets) (asset : AssetId) :
    (∃ error, (StoreCall.load asset).run calls db =
        ((StoreCall.load asset).refused error, db)) ∨
      db.Answers (.load asset) := by
  have hrun : ∀ found, db.load asset = found → (StoreCall.load asset).run calls db =
      (.loaded (found.mapError DatabaseError.toStoreError), db) := by
    rintro found rfl
    rw [StoreCall.run, load_eq]
    rfl
  rcases hlookup : assets.lookup asset with _ | row
  · refine Or.inr (answers_of_self hassets (hrun _ (load_of_lookup_eq_none hassets hlookup)) ?_)
    rw [StoreCall.asset, hlookup]
    exact .loadNone asset
  have hact := load_of_lookup_eq_some hassets hlookup
  -- A text that is no document ends the read with a fault.
  rcases hdocument : StoredText.document row.text with error | document
  · rw [hdocument] at hact
    exact Or.inl ⟨_, hrun _ hact⟩
  · rw [hdocument] at hact
    refine Or.inr (answers_of_self hassets (hrun _ hact) ?_)
    rw [StoreCall.asset, hlookup]
    exact .load asset row document hdocument

theorem run_merge (db : Database) (asset : AssetId) (updates : Document) (now : Stamp) :
    (∃ error, (StoreCall.merge asset updates now).run calls db =
        ((StoreCall.merge asset updates now).refused error, db)) ∨
      db.Answers (.merge asset updates now) := by
  rcases hmerge : db.merge asset updates now with error | ⟨⟨stamp, rows⟩, after⟩
  · exact Or.inl ⟨_, congrArg (Prod.map StoreReply.written id) (call_error hmerge)⟩
  · have hrun := congrArg (Prod.map StoreReply.written id) (call_ok hmerge)
    rcases merge_eq_ok hmerge with
      ⟨hkeys, -, assets, group, groups, hassets, hflatten, hstamp, hdone⟩
    dsimp only at hstamp hdone
    subst hstamp
    rcases hdone with ⟨hlookup, rfl, rfl⟩ | ⟨row, rewritten, hlookup, rfl, hall, rfl⟩
    · rw [stampOf, hlookup] at hrun
      refine Or.inr (answers_of_self hassets hrun ?_)
      rw [StoreCall.asset, hlookup]
      exact .mergeNone asset updates now
    · rw [stampOf, hlookup] at hrun hall
      refine Or.inr (answers_of_insert hassets hrun ?_)
      rw [StoreCall.asset, hlookup]
      exact .merge asset updates now row rewritten group groups hkeys hflatten hall

/-- A call is refused and changes nothing, or it is answered. -/
theorem run_cases (db : Database) (call : StoreCall) :
    (∃ error, call.run calls db = (call.refused error, db)) ∨ db.Answers call := by
  rcases hassets : db.assets with _ | assets
  · exact Or.inl (run_of_assets_eq_none hassets call)
  · cases call with
    | create asset => exact Or.inr (answers_create hassets asset)
    | load asset => exact run_load hassets asset
    | merge asset updates now => exact run_merge db asset updates now
    | clear asset now => exact Or.inr (answers_clear hassets asset now)
    | delete asset => exact Or.inr (answers_delete hassets asset)

/-- The row that a database has for an asset, seen in a certain way. -/
def Holds (view : TextView) (db : Database) (asset : AssetId) (row : Option Row) : Prop :=
  ∃ assets, db.assets = some assets ∧ Option.Rel view.Stores (assets.lookup asset) row

theorem holds_none_of_lookup (view : TextView) (hassets : db.assets = some assets)
    (hlookup : assets.lookup asset = none) : Holds view db asset none :=
  ⟨assets, hassets, hlookup ▸ .none⟩

/-- An answered call does to a row that is seen what it does to rows. -/
theorem rel_of_answered {view : TextView} {call : StoreCall} {stored after : Option StoredRow}
    {reply : StoreReply} {row : Option Row} (h : Answered call stored reply after)
    (hcall : call.DistinctKeys)
    (hadmits : ∀ asset updates now, call = .merge asset updates now →
      ∀ found ∈ stored, view.admits found.text updates)
    (hrow : Option.Rel view.Stores stored row) :
    reply = call.answer view.read row ∧ Option.Rel view.Stores after (call.next row) := by
  cases h with
  | create asset =>
    refine ⟨rfl, .some ?_⟩
    cases hrow with
    | none => exact ⟨view.blank, rfl⟩
    | some hstores => exact hstores
  | loadNone asset =>
    cases hrow
    exact ⟨rfl, .none⟩
  | load asset stored document hdocument =>
    rcases hrow with ⟨htext, hstamp⟩ | -
    refine ⟨?_, .some ⟨htext, hstamp⟩⟩
    rw [view.load htext hdocument, hstamp]
    rfl
  | mergeNone asset updates now =>
    cases hrow
    exact ⟨rfl, .none⟩
  | merge asset updates now stored after group groups hkeys hflatten hall =>
    rcases hrow with ⟨htext, hstamp⟩ | -
    rcases view.edit htext (hadmits asset updates now rfl stored rfl) hcall hkeys with
      ⟨members, hmembers, hmerged⟩
    -- However the updates were cut, the text is the one with all of them set.
    have hafter := MergeStatement.eq_of_rewriteAll (hflatten ▸ hkeys) hmembers hall
    rw [hflatten] at hafter
    refine ⟨?_, .some ⟨?_, ?_⟩⟩
    · rw [hstamp]
      rfl
    · rw [hafter]
      exact hmerged
    · rw [hafter, hstamp]
      rfl
  | clearNone asset now =>
    cases hrow
    exact ⟨rfl, .none⟩
  | clear asset now stored =>
    rcases hrow with ⟨-, hstamp⟩ | -
    rw [hstamp]
    exact ⟨rfl, .some ⟨view.blank, rfl⟩⟩
  | delete asset =>
    refine ⟨?_, .none⟩
    cases hrow with
    | none => rfl
    | some hstores => rfl

end Database

/-- The rows that are seen in a database. -/
def TextView.rows (view : TextView) : RowView Database where
  holds := Database.Holds view
  admits db call := ∀ asset updates now, call = .merge asset updates now →
    ∀ stored ∈ db.stored? asset, view.admits stored.text updates
  read := view.read

namespace Database

/-- A database keeps the rows that are seen in it. -/
theorem keeps (view : TextView) : calls.Keeps view.rows where
  own call db row hcall hadmits hrow := by
    refine (run_cases db call).imp_right ?_
    rintro ⟨assets, after, reply, hassets, hrun, hanswered, -⟩
    rcases hrow with ⟨found, hfound, hrow⟩
    cases hassets.symm.trans hfound
    have hstored : ∀ asset updates now, call = .merge asset updates now →
        ∀ stored ∈ assets.lookup call.asset, view.admits stored.text updates := by
      rintro asset updates now rfl stored hstored
      refine hadmits asset updates now rfl stored ?_
      rw [stored?, hassets]
      exact hstored
    rcases rel_of_answered hanswered hcall hstored hrow with ⟨rfl, hafter⟩
    exact ⟨_, hrun, after, rfl, hafter⟩
  other call db other row hne hrow := by
    rcases run_cases db call with ⟨error, hrun⟩ | ⟨assets, after, reply, hassets, hrun, -, hframe⟩
    · rw [hrun]
      exact hrow
    · rcases hrow with ⟨found, hfound, hrow⟩
      cases hassets.symm.trans hfound
      rw [hrun]
      exact ⟨after, rfl, (hframe other hne).symm ▸ hrow⟩

end Database

end Fieldwork
