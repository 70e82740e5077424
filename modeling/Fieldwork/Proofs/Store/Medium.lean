import Fieldwork.Proofs.Database.Views

/-!
# The Two Media

What is stored, whichever store it is stored in.

A handle does not know its store. What is proved of handles over any store
that keeps rows is proved once, and holds of the memory and of a database
because both keep rows. `Medium` names the two, so that a statement about
either is one statement.

The stored row of an asset is what is there, not what a read would answer. In
a database the two differ: a read refuses a text that nests too deep, yet the
text is stored all the same, and a later write may replace what is too deep.
So `row?` reads the text without a limit.

Even so a row is what a reader makes of it, and a reader need not find the
number that was written. What is there beyond doubt is the text of each
member, which is what `texts?` gives; for the memory it is the text that the
value has, and no other value has it.

## Main definitions

* `StoredText.memberTexts?`: The members of a text, value by value as texts.
* `Medium`: The memory or a database.
* `Medium.calls`, `Medium.empty`: Its calls and its state without rows.
* `Medium.row?`, `Medium.texts?`: What it stores, as read and as text.
* `Medium.written`, `Medium.asRead`: The rows as the store writes them, and as a
  reader finds them.

## Theorems

* `memberTexts?_compact`: The members of a text that a database has written.
* `keeps_written`, `keeps_asRead`: Either medium keeps rows.
* `texts?_of_written`, `row?_of_written`, `row?_of_asRead`: What is held is what
  is stored.
* `asRead_of_load`: What is loaded is what is stored.
* `exists_holds_after`: A run of calls leaves a row or none.
-/

namespace Fieldwork

namespace StoredText

/-- The names of members, and the texts of their values. -/
def textsOf? : List (String × Written) → Option (List (String × String))
  | [] => some []
  | (spelling, value) :: rest =>
    (Written.unquote? spelling).bind fun name => (textsOf? rest).map ((name, value.text) :: ·)

/-- The members of a text, value by value as texts. -/
def memberTexts? (text : String) : Option (List (String × String)) :=
  match Written.read? text.toList with
  | some (.object members) => textsOf? members
  | _ => none

theorem textsOf?_toWrittenMembers (members : List (String × Json)) :
    textsOf? (Json.toWrittenMembers members) = some (Ordered.mapValues Json.compact members) := by
  induction members with
  | nil => rfl
  | cons entry rest ih =>
    rcases entry with ⟨key, value⟩
    rw [Json.toWrittenMembers, textsOf?, Written.unquote?_escape, Option.bind_some, ih]
    rfl

/-- The members of a text that a database has written. -/
theorem memberTexts?_compact (document : Document) :
    memberTexts? document.toJson.compact =
      some (Ordered.mapValues Json.compact document.fields) := by
  rw [memberTexts?, Json.read?_compact, Document.toJson, Json.toWritten_object]
  exact textsOf?_toWrittenMembers document.fields

end StoredText

namespace Database

/-- The row that is stored for an asset, if its text is a document. -/
def row? (db : Database) (asset : AssetId) : Option Row :=
  (db.stored? asset).bind fun stored =>
    (StoredText.contents? stored.text).map fun document => ⟨document, stored.stamp⟩

/-- The members that are stored for an asset, if its text is an object. -/
def texts? (db : Database) (asset : AssetId) : Option (List (String × String)) :=
  (db.stored? asset).bind fun stored => StoredText.memberTexts? stored.text

variable {db : Database} {asset : AssetId} {row : Option Row}

theorem stored?_eq {assets : AssetTable} (h : db.assets = some assets) (asset : AssetId) :
    db.stored? asset = assets.lookup asset := by
  rw [stored?, h, Option.bind_some]

/-- Where there is a row, what is stored stands for it. -/
theorem exists_stored_of_holds {view : TextView} {found : Row}
    (h : Holds view db asset (some found)) :
    ∃ stored, db.stored? asset = some stored ∧ view.Stores stored found := by
  rcases h with ⟨assets, hassets, hrow⟩
  rw [stored?_eq hassets]
  rcases hlookup : assets.lookup asset with _ | stored
  · rw [hlookup] at hrow
    cases hrow
  · rw [hlookup] at hrow
    cases hrow with
    | some hstores => exact ⟨stored, rfl, hstores⟩

theorem stored?_of_holds_none {view : TextView} (h : Holds view db asset none) :
    db.stored? asset = none := by
  rcases h with ⟨assets, hassets, hrow⟩
  rw [stored?_eq hassets]
  rcases hlookup : assets.lookup asset with _ | stored
  · rfl
  · rw [hlookup] at hrow
    cases hrow

theorem row?_of_written (h : Holds .written db asset row) :
    db.row? asset = row.map (·.readBy Document.reread) := by
  cases row with
  | none =>
    rw [row?, stored?_of_holds_none h]
    rfl
  | some found =>
    rcases exists_stored_of_holds h with ⟨⟨text, stamp⟩, hstored, ⟨rfl, hspelled⟩, rfl⟩
    -- However deep the document nests: what reads here has no limit.
    rw [row?, hstored, Option.bind_some, StoredText.contents?_compact hspelled]
    rfl

theorem texts?_of_written (h : Holds .written db asset row) :
    db.texts? asset =
      row.map fun found => Ordered.mapValues Json.compact found.document.fields := by
  cases row with
  | none =>
    rw [texts?, stored?_of_holds_none h]
    rfl
  | some found =>
    rcases exists_stored_of_holds h with ⟨stored, hstored, ⟨htext, -⟩, -⟩
    rw [texts?, hstored, Option.bind_some, htext, StoredText.memberTexts?_compact]
    rfl

theorem row?_of_asRead (h : Holds .asRead db asset row) : db.row? asset = row := by
  cases row with
  | none =>
    rw [row?, stored?_of_holds_none h]
    rfl
  | some found =>
    rcases exists_stored_of_holds h with ⟨⟨text, stamp⟩, hstored, hcontents, rfl⟩
    have hcontents : StoredText.contents? text = some found.document := hcontents
    rw [row?, hstored, Option.bind_some, hcontents]
    rfl

/-- A load that is answered has found what is stored. -/
theorem asRead_of_load {after : Database} (h : calls.load asset db = (.ok row, after)) :
    Holds .asRead after asset row ∧ after = db := by
  have hrun := congrArg (Prod.map StoreReply.loaded id) h
  rcases run_cases db (.load asset) with
    ⟨error, hrefused⟩ | ⟨assets, final, reply, hassets, hrun', hanswered, -⟩
  · cases hrefused.symm.trans hrun
  · have hself := load_eq db asset
    rw [h] at hself
    rcases Prod.mk.inj hself with ⟨-, rfl⟩
    refine ⟨?_, rfl⟩
    rcases Prod.mk.inj (hrun'.symm.trans hrun) with ⟨rfl, hfinal⟩
    have hfinal : some final = some assets := (congrArg Database.assets hfinal).trans hassets
    cases hfinal
    refine ⟨assets, hassets, ?_⟩
    rw [StoreCall.asset] at hanswered
    generalize assets.lookup asset = stored at hanswered
    cases hanswered with
    | loadNone => exact .none
    | load _ stored document hdocument =>
      exact .some ⟨StoredText.contents?_of_document hdocument, rfl⟩

end Database

/-- The two kinds of row store. -/
inductive Medium where
  /-- Rows in memory. -/
  | memory
  /-- Rows in a database. -/
  | database
  deriving DecidableEq

namespace Medium

/-- What a store of this kind is. -/
abbrev State : Medium → Type
  | memory => MemoryStore
  | database => Database

/-- Its calls. -/
def calls : (medium : Medium) → RowStore medium.State
  | memory => MemoryStore.calls
  | database => Database.calls

/-- A store without rows; a database is one that was just opened. -/
def empty : (medium : Medium) → medium.State
  | memory => .empty
  | database => ⟨some Database.currentVersion, some [], some .empty⟩

/-- The row that is stored for an asset. -/
def row? : (medium : Medium) → medium.State → AssetId → Option Row
  | memory, store, asset => store.find? asset
  | database, db, asset => db.row? asset

/-- The members that are stored for an asset, value by value as texts. -/
def texts? : (medium : Medium) → medium.State → AssetId → Option (List (String × String))
  | memory, store, asset =>
    (store.find? asset).map fun row => Ordered.mapValues Json.compact row.document.fields
  | database, db, asset => db.texts? asset

/-- The text of what is stored for an asset under a key. -/
def text? (medium : Medium) (state : medium.State) (asset : AssetId) (key : String) :
    Option String :=
  (medium.texts? state asset).bind fun texts => texts.lookup key

/-- The rows as the store itself writes them. -/
def written : (medium : Medium) → RowView medium.State
  | memory => MemoryStore.view
  | database => TextView.written.rows

/-- The rows as a reader finds them. -/
def asRead : (medium : Medium) → RowView medium.State
  | memory => MemoryStore.view
  | database => TextView.asRead.rows

theorem keeps_written (medium : Medium) : medium.calls.Keeps medium.written := by
  cases medium with
  | memory => exact MemoryStore.keeps
  | database => exact Database.keeps .written

theorem keeps_asRead (medium : Medium) : medium.calls.Keeps medium.asRead := by
  cases medium with
  | memory => exact MemoryStore.keeps
  | database => exact Database.keeps .asRead

/-- Rows as the store writes them are followed whatever the call is. -/
theorem admits_written (medium : Medium) (state : medium.State) (call : StoreCall) :
    medium.written.admits state call := by
  cases medium with
  | memory => exact trivial
  | database => exact fun _ _ _ _ _ _ => trivial

variable {medium : Medium} {state after : medium.State} {asset : AssetId} {row : Option Row}

theorem row?_of_written (h : medium.written.holds state asset row) :
    medium.row? state asset = row.map (·.readBy medium.written.read) := by
  cases medium with
  | memory =>
    have hrow : MemoryStore.find? state asset = row := h
    rw [Medium.row?, hrow]
    cases row <;> rfl
  | database => exact Database.row?_of_written h

theorem texts?_of_written (h : medium.written.holds state asset row) :
    medium.texts? state asset =
      row.map fun found => Ordered.mapValues Json.compact found.document.fields := by
  cases medium with
  | memory =>
    have hrow : MemoryStore.find? state asset = row := h
    rw [texts?, hrow]
  | database => exact Database.texts?_of_written h

theorem row?_of_asRead (h : medium.asRead.holds state asset row) :
    medium.row? state asset = row := by
  cases medium with
  | memory => exact h
  | database => exact Database.row?_of_asRead h

theorem written_empty (medium : Medium) (asset : AssetId) :
    medium.written.holds medium.empty asset none := by
  cases medium with
  | memory => rfl
  | database => exact Database.holds_none_of_lookup .written rfl rfl

/-- A load that is answered has found what is stored. -/
theorem asRead_of_load (h : medium.calls.load asset state = (.ok row, after)) :
    medium.asRead.holds after asset row := by
  cases medium with
  | memory =>
    rcases Prod.mk.inj h with ⟨hrow, rfl⟩
    exact Except.ok.inj hrow
  | database => exact (Database.asRead_of_load h).1

theorem written_none_of_load (h : medium.calls.load asset state = (.ok none, after)) :
    medium.written.holds after asset none := by
  cases medium with
  | memory =>
    rcases Prod.mk.inj h with ⟨hrow, rfl⟩
    exact Except.ok.inj hrow
  | database =>
    rcases Database.asRead_of_load h with ⟨⟨assets, hassets, hrow⟩, -⟩
    refine ⟨assets, hassets, ?_⟩
    generalize assets.lookup asset = stored at hrow ⊢
    cases hrow
    exact .none

end Medium

namespace RowStore

variable {σ : Type} {store : RowStore σ} {view : RowView σ} {asset : AssetId} {row : Option Row}

/-- What a call leaves of a row: the call was refused or about another asset,
    or it changed the row. -/
theorem Keeps.holds_run (h : store.Keeps view) {call : StoreCall} (hcall : call.DistinctKeys)
    {state : σ} (hadmits : call.asset = asset → view.admits state call)
    (hrow : view.holds state asset row) :
    view.holds (call.run store state).2 asset row ∨
      call.asset = asset ∧ view.holds (call.run store state).2 asset (call.next row) := by
  by_cases hasset : call.asset = asset
  · subst hasset
    rcases h.own call state row hcall (hadmits rfl) hrow with ⟨error, hrun⟩ | ⟨after, hrun, hafter⟩
    · rw [hrun]
      exact Or.inl hrow
    · rw [hrun]
      exact Or.inr ⟨rfl, hafter⟩
  · exact Or.inl (h.other call state asset row (Ne.symm hasset) hrow)

/-- Where a view follows every call, a run leaves a row or none. -/
theorem Keeps.exists_holds_after (h : store.Keeps view)
    (hadmits : ∀ state call, view.admits state call) {calls : List StoreCall}
    (hcalls : ∀ call ∈ calls, call.DistinctKeys) {state : σ}
    (hrow : view.holds state asset row) :
    ∃ row, view.holds (store.after state calls) asset row := by
  induction calls generalizing state row with
  | nil => exact ⟨row, hrow⟩
  | cons call rest ih =>
    rcases List.forall_mem_cons.1 hcalls with ⟨hcall, hrest⟩
    rcases h.holds_run hcall (fun _ => hadmits state call) hrow with hsame | ⟨-, hnext⟩
    · exact ih hrest hsame
    · exact ih hrest hnext

end RowStore

end Fieldwork
