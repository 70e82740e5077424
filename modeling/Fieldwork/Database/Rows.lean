import Fieldwork.Database.Basic

/-!
# Rows in a Database

The row store that a database is.

Every call is one transaction. A merge looks up the stamp of the row and then
runs its statements; they share the stamp. A row that is not there is found
out by the first statement, which changes no row, and the merge ends.

A statement fails if the engine cannot read what it has to edit, or if a text
that is bound or the row that it would write is too large for the engine.

## Main definitions

* `MergeStatement.rewrite`: What a statement makes of a row.
* `MergeStatement.execute`: What a statement does to the table of assets.
* `Database.merge`, `Database.clear`, …: The calls.
* `Database.calls`: The row store.

## Theorems

* `execute_of_lookup_eq_none`: Without a row a statement does nothing.
-/

namespace Fieldwork

namespace MergeStatement

/-- Whether the engine takes what a statement binds. -/
def Bindable (statement : MergeStatement) (stamp : Stamp) (asset : AssetId) : Prop :=
  ∀ binding ∈ statement.bindings stamp asset, binding.textSize ≤ StoredText.lengthLimit

instance (statement : MergeStatement) (stamp : Stamp) (asset : AssetId) :
    Decidable (statement.Bindable stamp asset) :=
  inferInstanceAs (Decidable (∀ binding ∈ statement.bindings stamp asset,
    binding.textSize ≤ StoredText.lengthLimit))

/-- What a statement makes of the row of an asset. -/
def rewrite (statement : MergeStatement) (stamp : Stamp) (asset : AssetId) (row : StoredRow) :
    Except DatabaseError StoredRow :=
  match statement.edit? row.text with
  | none => .error .malformedJson
  | some text =>
    let after : StoredRow := ⟨text, some stamp⟩
    if after.size asset ≤ StoredText.lengthLimit then .ok after else .error .tooBig

/-- What a statement does to the table of assets, and how many rows it
    changes. -/
def execute (statement : MergeStatement) (stamp : Stamp) (asset : AssetId) (assets : AssetTable) :
    Except DatabaseError (UInt64 × AssetTable) :=
  -- Binding comes first, so it may fail although there is no row.
  if statement.Bindable stamp asset then
    match assets.lookup asset with
    | none => .ok (0, assets)
    | some row =>
      (statement.rewrite stamp asset row).map fun after => (1, Ordered.insert asset after assets)
  else .error .tooBig

/-- Runs statements in turn until one changes no row; `rows` is what the last
    one changed. -/
def executeAll (stamp : Stamp) (asset : AssetId) (rows : UInt64) :
    List MergeStatement → AssetTable → Except DatabaseError (UInt64 × AssetTable)
  | [], assets => .ok (rows, assets)
  | statement :: rest, assets =>
    match statement.execute stamp asset assets with
    | .error error => .error error
    | .ok (rows, assets) =>
      -- No row now means no row for the statements to come.
      if rows = 0 then .ok (0, assets) else executeAll stamp asset rows rest assets

/-- Without a row a statement does nothing. -/
theorem execute_of_lookup_eq_none {asset : AssetId} {assets : AssetTable}
    (h : assets.lookup asset = none) {statement : MergeStatement} {stamp : Stamp}
    (hbind : statement.Bindable stamp asset) :
    statement.execute stamp asset assets = .ok (0, assets) := by
  rw [execute, if_pos hbind, h]

end MergeStatement

namespace Database

/-- The table of assets, which a statement needs. -/
def assetTable (db : Database) : Except DatabaseError AssetTable :=
  match db.assets with
  | none => .error .missingTable
  | some assets => .ok assets

/-- The stamp of a write to an asset. -/
def stampOf (assets : AssetTable) (asset : AssetId) (now : Stamp) : Stamp :=
  nextStamp ((assets.lookup asset).bind StoredRow.stamp) now

/-- Makes an empty row unless there is one. -/
def create (asset : AssetId) (db : Database) : Except DatabaseError (Unit × Database) :=
  match db.assetTable with
  | .error error => .error error
  | .ok assets =>
    match assets.lookup asset with
    | some _ => .ok ((), db)
    | none =>
      .ok ((), { db with assets := some (Ordered.insert asset ⟨StoredText.blank, none⟩ assets) })

/-- Reads a row. -/
def load (asset : AssetId) (db : Database) : Except DatabaseError (Option Row) :=
  match db.assetTable with
  | .error error => .error error
  | .ok assets =>
    match assets.lookup asset with
    | none => .ok none
    | some row =>
      match StoredText.document row.text with
      | .error error => .error error
      | .ok document => .ok (some ⟨document, row.stamp⟩)

/-- Merges updates into a row. -/
def merge (asset : AssetId) (updates : Document) (now : Stamp) (db : Database) :
    Except DatabaseError (Receipt × Database) :=
  match MergeStatement.batch updates with
  | .error refusal => .error (.invalid refusal.reason)
  | .ok statements =>
    match db.assetTable with
    | .error error => .error error
    | .ok assets =>
      -- One look at the row before the first statement, so all of them share a
      -- stamp.
      let stamp := stampOf assets asset now
      match MergeStatement.executeAll stamp asset 0 statements assets with
      | .error error => .error error
      | .ok (rows, assets) => .ok (⟨stamp, rows⟩, { db with assets := some assets })

/-- Empties a row. -/
def clear (asset : AssetId) (now : Stamp) (db : Database) :
    Except DatabaseError (Receipt × Database) :=
  match db.assetTable with
  | .error error => .error error
  | .ok assets =>
    let stamp := stampOf assets asset now
    match assets.lookup asset with
    | none => .ok (⟨stamp, 0⟩, db)
    | some _ =>
      .ok (⟨stamp, 1⟩,
        { db with assets := some (Ordered.insert asset ⟨StoredText.blank, some stamp⟩ assets) })

/-- Takes a row out, and says whether there was one. -/
def delete (asset : AssetId) (db : Database) : Except DatabaseError (Bool × Database) :=
  match db.assetTable with
  | .error error => .error error
  | .ok assets =>
    .ok ((assets.lookup asset).isSome, { db with assets := some (Ordered.erase asset assets) })

/-- A call of the row store: a transaction whose errors are worded for
    everyone. -/
def call {α : Type} (act : Database → Except DatabaseError (α × Database)) (db : Database) :
    Except StoreError α × Database :=
  match transact act db with
  | (.ok result, db) => (.ok result, db)
  | (.error error, db) => (.error error.toStoreError, db)

/-- The row store that a database is. -/
def calls : RowStore Database where
  create asset := call (create asset)
  load asset := call fun db => (db.load asset).map (·, db)
  merge asset updates now := call (merge asset updates now)
  clear asset now := call (clear asset now)
  delete asset := call (delete asset)

end Database

end Fieldwork
