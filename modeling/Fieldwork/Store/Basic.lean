import Fieldwork.Document.Basic
import Fieldwork.Identifier

/-!
# Row Stores

Where the documents of assets are kept.

A store has one row for each asset that was created: its document and the
stamp of the last write. A write either takes effect as a whole and gives a
receipt, or fails and changes nothing. Writing to an asset without a row is no
failure: the receipt then counts no row.

Stores differ in how they keep rows, so a store is given by its calls, as
functions on a state of its own. The clock is read by the caller and handed to
each write; a stamp never goes back, whatever the clock says.

## Main definitions

* `StoreError`: Why a call fails.
* `Row`, `Receipt`: What a call gives back.
* `nextStamp`: The stamp of a write.
* `RowStore`: The calls of a store.

## Theorems

* `le_nextStamp`: A write is stamped no earlier than the one before.
-/

namespace Fieldwork

/-- Milliseconds from the epoch. -/
abbrev Stamp := Int

/-- Why a call of a store fails, with what the store says about it. -/
inductive StoreError where
  /-- Reading or writing a file failed. -/
  | file (reason : String)
  /-- What is stored is no document. -/
  | corrupt (reason : String)
  /-- The store refuses what it was asked. -/
  | invalid (reason : String)
  /-- The store itself failed. -/
  | engine (reason : String)
  deriving DecidableEq

/-- The wording of an error. -/
def StoreError.message : StoreError → String
  | file reason => "deployment store io error: " ++ reason
  | corrupt reason => "deployment store corruption: " ++ reason
  | invalid reason => "deployment store invalid data: " ++ reason
  | engine reason => "deployment store error: " ++ reason

/-- What is stored for an asset. -/
@[ext]
structure Row where
  /-- The document. -/
  document : Document
  /-- When it was last written, unless it never was. -/
  stamp : Option Stamp
  deriving DecidableEq

/-- The row of an asset that was just created. -/
def Row.blank : Row :=
  ⟨Document.empty, none⟩

/-- What a write gives back. -/
@[ext]
structure Receipt where
  /-- The stamp of the write. -/
  stamp : Stamp
  /-- How many rows it changed. -/
  rows : UInt64
  deriving DecidableEq

/-- Whether there was a row to write. -/
def Receipt.applied (receipt : Receipt) : Bool :=
  receipt.rows != 0

/-- The stamp of a write: what the clock says, unless that is earlier than the
    write before. -/
def nextStamp (previous : Option Stamp) (now : Stamp) : Stamp :=
  match previous with
  | none => now
  | some previous => max now previous

/-- A write is stamped no earlier than the one before. -/
theorem le_nextStamp {previous now : Stamp} : previous ≤ nextStamp (some previous) now :=
  Int.le_max_right now previous

/-- The calls of a store whose state is `σ`. -/
@[ext]
structure RowStore (σ : Type) where
  /-- Makes an empty row unless there is one. -/
  create : AssetId → σ → Except StoreError Unit × σ
  /-- Reads a row. -/
  load : AssetId → σ → Except StoreError (Option Row) × σ
  /-- Merges updates into a row. -/
  merge : AssetId → Document → Stamp → σ → Except StoreError Receipt × σ
  /-- Empties a row. -/
  clear : AssetId → Stamp → σ → Except StoreError Receipt × σ
  /-- Takes a row out, and says whether there was one. -/
  delete : AssetId → σ → Except StoreError Bool × σ

end Fieldwork
