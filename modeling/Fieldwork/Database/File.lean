import Fieldwork.Database.Basic

/-!
# Database Files

The tables of a file under their names, and the statements that open it.

A file may be shared: beside the tables of the store it has whatever others
put there, and a name of the store may be taken by a table of another shape, or
be spelled with other letters than here, because names do not tell upper case
from lower. A table is made only where its name is free, so nothing that is
there is replaced. Opening is one transaction. It makes the table of versions before it
looks at the version, and if the version is not known it takes that back with
everything else.

## Main definitions

* `FileTable`, `DatabaseFile`: Tables under names.
* `DatabaseFile.SameName`: Names that the engine takes for one.
* `DatabaseFile.table?`, `DatabaseFile.put`: The table under a name.
* `DatabaseFile.make`, `firstVersion`, `changeVersions`: The statements.
* `DatabaseFile.setUp`, `DatabaseFile.opened`: The transaction.
* `DatabaseFile.Holds`: The database that a file holds.

## Theorems

* `table?_put`: A table that is put is found, and no other changes.
* `table?_make`: A table is made where its name is free.
-/

namespace Fieldwork

/-- A table of a file, by the shape of its rows. -/
inductive FileTable where
  /-- Versions, of which the first counts. -/
  | versions (rows : List Int)
  /-- Assets. -/
  | assets (rows : AssetTable)
  /-- Principals under their keys, and the greatest key that was ever used. -/
  | principals (rows : List (Nat × PrincipalId)) (lastKey : Nat)
  /-- Details under the keys of their principals. -/
  | details (rows : List (Nat × String))
  /-- Rows of another shape. -/
  | foreign (columns : List String) (rows : List (List String))
  deriving DecidableEq

/-- The tables of a file under their names. -/
abbrev DatabaseFile := List (String × FileTable)

namespace DatabaseFile

/-- The name of the table of versions. -/
def versionName : String := "store_meta"

/-- The name of the table of assets. -/
def assetsName : String := "assets"

/-- The name of the table of principals. -/
def principalsName : String := "principals"

/-- The name of the table of details. -/
def detailsName : String := "principal_details"

/-- Names that the engine takes for one: they differ at most in the case of
    letters, and only of the unaccented ones. -/
def SameName (name other : String) : Prop :=
  name.toList.map Char.toLower = other.toList.map Char.toLower

instance (name other : String) : Decidable (SameName name other) :=
  inferInstanceAs (Decidable (_ = _))

/-- The table under a name. -/
def table? : DatabaseFile → String → Option FileTable
  | [], _ => none
  | (other, table) :: rest, name => if SameName other name then some table else table? rest name

/-- Puts a table under a name, in the place of one that is there. -/
def put (name : String) (table : FileTable) : DatabaseFile → DatabaseFile
  | [] => [(name, table)]
  | (other, old) :: rest =>
    if SameName other name then (other, table) :: rest else (other, old) :: put name table rest

/-- Makes a table unless its name is taken. -/
def make (name : String) (table : FileTable) (file : DatabaseFile) : DatabaseFile :=
  match file.table? name with
  | some _ => file
  | none => file.put name table

/-- The versions, if the table that has their name is one of versions. -/
def versions (file : DatabaseFile) : Except DatabaseError (List Int) :=
  match file.table? versionName with
  | some (.versions rows) => .ok rows
  | _ => .error (.engine elided)

/-- The first version. -/
def firstVersion (file : DatabaseFile) : Except DatabaseError (Option Int) :=
  file.versions.map List.head?

/-- Changes the versions. -/
def changeVersions (change : List Int → List Int) (file : DatabaseFile) :
    Except DatabaseError DatabaseFile :=
  file.versions.map fun rows => file.put versionName (.versions (change rows))

/-- Makes the tables of principals. -/
def makePrincipals (file : DatabaseFile) : DatabaseFile :=
  make detailsName (.details []) (make principalsName (.principals [] 0) file)

/-- The statements that bring a file to the current version. -/
def setUp (file : DatabaseFile) : Except DatabaseError DatabaseFile := do
  let file := make versionName (.versions []) file
  match ← firstVersion file with
  | none =>
    let file ← changeVersions (· ++ [Database.currentVersion]) file
    return makePrincipals (make assetsName (.assets []) file)
  | some version =>
    if version = 1 then
      changeVersions (·.map fun _ => Database.currentVersion) (makePrincipals file)
    else if version = Database.currentVersion then return file
    else throw (.version ("unsupported schema version: " ++ toString version))

/-- Opens a file: all of the statements take effect, or none. -/
def opened (file : DatabaseFile) : Except DatabaseError Unit × DatabaseFile :=
  match setUp file with
  | .ok after => (.ok (), after)
  | .error error => (.error error, file)

/-- A file holds a database: the names of the store have the tables of the
    database, and are free where it has none. -/
structure Holds (file : DatabaseFile) (db : Database) : Prop where
  /-- The one version that is recorded. -/
  version : file.table? versionName = db.version.map fun version => .versions [version]
  /-- The assets. -/
  assets : file.table? assetsName = db.assets.map .assets
  /-- The principals. -/
  principals : file.table? principalsName =
    db.principals.map fun tables => .principals tables.principals tables.lastKey
  /-- Their details. -/
  details : file.table? detailsName = db.principals.map fun tables => .details tables.details

theorem SameName.refl (name : String) : SameName name name :=
  Eq.refl (name.toList.map Char.toLower)

theorem SameName.symm {name other : String} (h : SameName name other) : SameName other name :=
  Eq.symm h

theorem SameName.trans {name other third : String} (h : SameName name other)
    (h' : SameName other third) : SameName name third :=
  Eq.trans h h'

/-- A name finds the same table in either spelling. -/
theorem table?_of_sameName {name other : String} (h : SameName name other)
    (file : DatabaseFile) : file.table? name = file.table? other := by
  induction file with
  | nil => rfl
  | cons entry rest ih =>
    have hiff : SameName entry.1 name ↔ SameName entry.1 other :=
      ⟨fun hname => hname.trans h, fun hother => hother.trans h.symm⟩
    simp only [table?, hiff, ih]

/-- A table that is put under a name is found there, and no other changes. -/
theorem table?_put (name other : String) (table : FileTable) (file : DatabaseFile) :
    (file.put name table).table? other =
      if SameName other name then some table else file.table? other := by
  induction file with
  | nil =>
    have hiff : SameName name other ↔ SameName other name := ⟨SameName.symm, SameName.symm⟩
    simp only [put, table?, hiff]
  | cons entry rest ih =>
    rcases entry with ⟨found, old⟩
    rw [put]
    by_cases hfound : SameName found name
    · -- The two entries have one name, so both are found or neither is.
      rw [if_pos hfound, table?, table?]
      by_cases h : SameName other name
      · rw [if_pos (hfound.trans h.symm), if_pos h]
      · have hother : ¬ SameName found other := fun heq => h (heq.symm.trans hfound)
        rw [if_neg hother, if_neg h, if_neg hother]
    · rw [if_neg hfound, table?, table?, ih]
      by_cases hother : SameName found other
      · have h : ¬ SameName other name := fun heq => hfound (hother.trans heq)
        rw [if_pos hother, if_neg h, if_pos hother]
      · rw [if_neg hother, if_neg hother]

/-- What is put under a name does not depend on what was put there before. -/
theorem put_put (name : String) (old table : FileTable) (file : DatabaseFile) :
    (file.put name old).put name table = file.put name table := by
  induction file with
  | nil =>
    rw [put, put, put, if_pos (SameName.refl name)]
  | cons entry rest ih =>
    rcases entry with ⟨found, first⟩
    by_cases hfound : SameName found name
    · rw [put, if_pos hfound, put, if_pos hfound, put, if_pos hfound]
    · rw [put, if_neg hfound, put, if_neg hfound, ih, put, if_neg hfound]

/-- A table is made where its name is free. -/
theorem table?_make (name other : String) (table : FileTable) (file : DatabaseFile) :
    (make name table file).table? other =
      if SameName other name then some ((file.table? name).getD table)
      else file.table? other := by
  unfold make
  split
  · rename_i found hfound
    split
    · rename_i hname
      rw [table?_of_sameName hname, hfound]
      rfl
    · rfl
  · rename_i hnone
    rw [table?_put, hnone]
    rfl

end DatabaseFile

end Fieldwork
