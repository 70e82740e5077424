import Fieldwork.Database.Principals
import Fieldwork.Database.Stored

/-!
# Databases

A database file: a version and the tables that belong to it.

Version 1 has the table of assets. Version 2 adds the tables of principals.
Opening brings an empty file and a file of version 1 to version 2 and changes
no row; a file of any other version is refused and stays as it is. A table may
be missing, because other programs write to the same file; a statement on a
missing table fails.

Whatever changes a database runs as a transaction: it takes effect as a whole
or leaves the database as it was.

The engine takes rows up to a number of bytes, so rows have a size: that of the
record which the engine writes for them.

## Main definitions

* `StoredRow.size`: How many bytes the engine writes a row in.
* `Database`: Version and tables.
* `Database.open?`: The database after it was opened.
* `Database.transact`: Runs a transaction.

## Theorems

* `open?_eq_self`: Opening a database of the current version changes nothing.
-/

namespace Fieldwork

/-- What is stored for an asset. -/
@[ext]
structure StoredRow where
  /-- The text of the document. -/
  text : String
  /-- When it was last written, unless it never was. -/
  stamp : Option Stamp
  deriving DecidableEq

namespace StoredRow

/-- How many bytes the engine writes a count in, with seven bits to a byte. -/
def countSize (n : Nat) : Nat :=
  n.log2 / 7 + 1

/-- How many bytes the engine writes an integer in. Zero and one take none,
    because the column says so by its kind. -/
def integerSize (n : Int) : Nat :=
  if n = 0 ∨ n = 1 then 0
  else if -0x80 ≤ n ∧ n < 0x80 then 1
  else if -0x8000 ≤ n ∧ n < 0x8000 then 2
  else if -0x800000 ≤ n ∧ n < 0x800000 then 3
  else if -0x80000000 ≤ n ∧ n < 0x80000000 then 4
  else if -0x800000000000 ≤ n ∧ n < 0x800000000000 then 6
  else 8

/-- How many bytes the row of an asset takes. Its three columns have a header,
    which starts with its own length and has the kinds of the columns; the kind
    of a text says how long the text is. -/
def size (asset : AssetId) (row : StoredRow) : Nat :=
  let name := asset.name.utf8ByteSize
  let text := row.text.utf8ByteSize
  2 + countSize (2 * name + 13) + countSize (2 * text + 13) +
    name + text + (row.stamp.map integerSize).getD 0

end StoredRow

/-- Stored rows under assets. -/
abbrev AssetTable := List (AssetId × StoredRow)

/-- A database file. -/
@[ext]
structure Database where
  /-- The version that it records. -/
  version : Option Int
  /-- The table of assets. -/
  assets : Option AssetTable
  /-- The tables of principals. -/
  principals : Option PrincipalTables
  deriving DecidableEq

namespace Database

/-- A file that no one has written to. -/
def blank : Database :=
  ⟨none, none, none⟩

instance : Inhabited Database := ⟨blank⟩

/-- The version that is written. -/
def currentVersion : Int := 2

/-- The database after it was opened. -/
def open? (db : Database) : Except DatabaseError Database :=
  match db.version with
  | none =>
    .ok ⟨some currentVersion, some (db.assets.getD []), some (db.principals.getD .empty)⟩
  | some version =>
    if version = 1 then
      .ok ⟨some currentVersion, db.assets, some (db.principals.getD .empty)⟩
    -- A table that is missing all the same is found out by a statement.
    else if version = currentVersion then .ok db
    else .error (.version ("unsupported schema version: " ++ toString version))

/-- Runs a transaction: either all of it or nothing. -/
def transact {α : Type} (act : Database → Except DatabaseError (α × Database)) (db : Database) :
    Except DatabaseError α × Database :=
  match act db with
  | .ok (result, after) => (.ok result, after)
  | .error error => (.error error, db)

/-- Opening a database of the current version changes nothing. -/
theorem open?_eq_self {db : Database} (h : db.version = some currentVersion) :
    db.open? = .ok db := by
  simp [open?, h, currentVersion]

end Database

end Fieldwork
