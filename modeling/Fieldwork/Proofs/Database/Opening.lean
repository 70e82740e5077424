import Fieldwork.Database.File
import Fieldwork.Proofs.Database.Views
import Fieldwork.Proofs.Fallible

/-!
# Opening Keeps What Is There

A file is opened, and brought to the current version, without a loss.

The statements that open a file make tables, and they change the one that
records the version. A table is made only where its name is free. So whatever
a file has under any other name it has afterwards, whoever put it there, and
this is seen statement by statement. If the file holds a database, the outcome
is the one that `Database.open?` says of that database; if it records a
version that is not known, it is refused, and the table that was made before
the version was read is gone again.

A database that was opened is at the current version, and no call changes the
version. So opening it again changes nothing, however often this is done, and
nobody who makes calls can tell where one sitting ended and the next began.

## Main definitions

* `DatabaseFile.Retains`: What was there is there.
* `Database.OfVersion`: The tables of the version that is recorded.
* `Database.sittings`: A database is opened, used and closed again and again.

## Theorems

* `retains_setUp`: What the statements leave of a file.
* `setUp_of_holds`: The outcome for a file that holds a database.
* `opened_of_unknown`: A version that is not known is refused.
* `sittings_eq`: Sittings cannot be told apart.
* `opened_migrates`: A file is brought to the current version, or refused.
-/

namespace Fieldwork

namespace DatabaseFile

/-- The names of the store. -/
def ownNames : List String :=
  [versionName, assetsName, principalsName, detailsName]

/-- What was there is there: a table stays as it was unless it records the
    version, and names that are not those of the store are left alone. -/
structure Retains (file after : DatabaseFile) : Prop where
  /-- A table stays. -/
  table : ∀ name table, ¬ SameName name versionName → file.table? name = some table →
    after.table? name = some table
  /-- Other names are left alone. -/
  other : ∀ name, (∀ own ∈ ownNames, ¬ SameName name own) →
    after.table? name = file.table? name

section Retains

variable {file middle after : DatabaseFile} {name : String}

theorem Retains.refl (file : DatabaseFile) : Retains file file :=
  ⟨fun _ _ _ h => h, fun _ _ => rfl⟩

theorem Retains.trans (h : Retains file middle) (h' : Retains middle after) :
    Retains file after :=
  ⟨fun name table hne hlookup => h'.table name table hne (h.table name table hne hlookup),
    fun name hname => (h'.other name hname).trans (h.other name hname)⟩

theorem retains_make (hname : name ∈ ownNames) (table : FileTable) (file : DatabaseFile) :
    Retains file (make name table file) := by
  constructor
  · intro other found _ hfound
    rw [table?_make]
    -- A table that is there already is not made again.
    by_cases hother : SameName other name
    · rw [if_pos hother, ← table?_of_sameName hother, hfound]
      rfl
    · rw [if_neg hother, hfound]
  · intro other hother
    rw [table?_make, if_neg (hother name hname)]

theorem retains_makePrincipals (file : DatabaseFile) : Retains file (makePrincipals file) :=
  (retains_make (by decide) _ file).trans (retains_make (by decide) _ _)

theorem retains_changeVersions {change : List Int → List Int}
    (h : changeVersions change file = .ok after) : Retains file after := by
  unfold changeVersions at h
  rcases hrows : file.versions with error | rows
  · rw [hrows] at h
    cases h
  rw [hrows] at h
  cases h
  -- The one table that is written is one of the database itself.
  constructor
  · intro name table hne hlookup
    rw [table?_put, if_neg hne, hlookup]
  · intro name hname
    rw [table?_put, if_neg (hname versionName (by decide))]

/-- What the statements leave of a file, whatever is in it. -/
theorem retains_setUp (h : setUp file = .ok after) : Retains file after := by
  -- The table of versions is made before anything is known of the file.
  have hmake : Retains file (make versionName (.versions []) file) :=
    retains_make (by decide) _ file
  refine hmake.trans ?_
  unfold setUp at h
  rcases Fallible.bind_eq_ok_iff.1 h with ⟨version?, -, h⟩
  cases version? with
  | none =>
    rcases Fallible.bind_eq_ok_iff.1 h with ⟨recorded, hrecorded, h⟩
    cases h
    exact (retains_changeVersions hrecorded).trans
      ((retains_make (by decide) _ recorded).trans (retains_makePrincipals _))
  | some version =>
    dsimp only at h
    split at h
    · exact (retains_makePrincipals _).trans (retains_changeVersions h)
    · split at h
      · cases h
        exact Retains.refl _
      · cases h

end Retains

section Holds

variable {file : DatabaseFile} {db : Database}

theorem make_of_isSome {name : String} (h : (file.table? name).isSome = true)
    (table : FileTable) : make name table file = file := by
  unfold make
  rcases hlookup : file.table? name with _ | found
  · rw [hlookup] at h
    cases h
  · rfl

theorem firstVersion_of_lookup {rows : List Int}
    (h : file.table? versionName = some (.versions rows)) :
    firstVersion file = .ok rows.head? := by
  rw [firstVersion, versions, h]
  rfl

theorem changeVersions_of_lookup {rows : List Int}
    (h : file.table? versionName = some (.versions rows)) (change : List Int → List Int) :
    changeVersions change file =
      .ok (file.put versionName (.versions (change rows))) := by
  rw [changeVersions, versions, h]
  rfl

/-- The statements on a file that records a version. -/
theorem setUp_of_lookup {version : Int} {rows : List Int}
    (h : file.table? versionName = some (.versions (version :: rows))) :
    setUp file =
      if version = 1 then
        changeVersions (·.map fun _ => Database.currentVersion) (makePrincipals file)
      else if version = Database.currentVersion then .ok file
      else .error (.version ("unsupported schema version: " ++ toString version)) := by
  unfold setUp
  dsimp only
  rw [make_of_isSome (by rw [h]; rfl), firstVersion_of_lookup h]
  rfl

/-- A version that is not known is refused, and the file stays as it was. -/
theorem opened_of_unknown {version : Int} {rows : List Int}
    (h : file.table? versionName = some (.versions (version :: rows))) (hone : version ≠ 1)
    (hcurrent : version ≠ Database.currentVersion) :
    opened file =
      (.error (.version ("unsupported schema version: " ++ toString version)), file) := by
  rw [opened, setUp_of_lookup h, if_neg hone, if_neg hcurrent]

/-- What is put under a name does not depend on a table made there before. -/
theorem put_make (name : String) (old table : FileTable) (file : DatabaseFile) :
    (make name old file).put name table = file.put name table := by
  unfold make
  split
  · rfl
  · exact put_put name old table file

/-- Without a version, the statements record one and make the tables that are
    missing. -/
theorem setUp_of_lookup_eq_none (h : file.table? versionName = none) :
    setUp file = .ok (makePrincipals (make assetsName (.assets [])
      ((make versionName (.versions []) file).put versionName
        (.versions [Database.currentVersion])))) := by
  -- The table that was just made is empty, so no version is found in it.
  have hlookup : (make versionName (.versions []) file).table? versionName =
      some (.versions []) := by
    rw [table?_make, if_pos (SameName.refl _), h]
    rfl
  unfold setUp
  dsimp only
  rw [firstVersion_of_lookup hlookup]
  dsimp only [List.head?_nil, bind, Except.bind]
  rw [changeVersions_of_lookup hlookup]
  rfl

theorem table?_makePrincipals (name : String) (file : DatabaseFile) :
    (makePrincipals file).table? name =
      if SameName name detailsName then some ((file.table? detailsName).getD (.details []))
      else if SameName name principalsName then
        some ((file.table? principalsName).getD (.principals [] 0))
      else file.table? name := by
  have hne : ¬ SameName detailsName principalsName := by decide
  rw [makePrincipals, table?_make, table?_make principalsName detailsName, if_neg hne,
    table?_make]

/-- Tables of principals that are made are empty. -/
theorem Holds.makePrincipals {recorded : Option Int} {assets : Option AssetTable}
    {principals : Option PrincipalTables} (h : Holds file ⟨recorded, assets, principals⟩) :
    Holds (makePrincipals file) ⟨recorded, assets, some (principals.getD .empty)⟩ := by
  -- Both tables of principals are made together; the other two are not touched.
  constructor
  · rw [table?_makePrincipals, if_neg (by decide), if_neg (by decide)]
    exact h.version
  · rw [table?_makePrincipals, if_neg (by decide), if_neg (by decide)]
    exact h.assets
  · rw [table?_makePrincipals, if_neg (by decide), if_pos (SameName.refl _), h.principals]
    cases principals <;> rfl
  · rw [table?_makePrincipals, if_pos (SameName.refl _), h.details]
    cases principals <;> rfl

/-- A table of assets that is made is empty. -/
theorem Holds.makeAssets {recorded : Option Int} {assets : Option AssetTable}
    {principals : Option PrincipalTables} (h : Holds file ⟨recorded, assets, principals⟩) :
    Holds (make assetsName (.assets []) file) ⟨recorded, some (assets.getD []), principals⟩ := by
  constructor
  · rw [table?_make, if_neg (by decide)]
    exact h.version
  · rw [table?_make, if_pos (SameName.refl _), h.assets]
    cases assets <;> rfl
  · rw [table?_make, if_neg (by decide)]
    exact h.principals
  · rw [table?_make, if_neg (by decide)]
    exact h.details

/-- A version is recorded whether or not there is a table for it. -/
theorem Holds.record {recorded : Option Int} {assets : Option AssetTable}
    {principals : Option PrincipalTables} (h : Holds file ⟨recorded, assets, principals⟩)
    (version : Int) :
    Holds (file.put versionName (.versions [version]))
      ⟨some version, assets, principals⟩ := by
  constructor
  · rw [table?_put, if_pos (SameName.refl _)]
    rfl
  · rw [table?_put, if_neg (by decide)]
    exact h.assets
  · rw [table?_put, if_neg (by decide)]
    exact h.principals
  · rw [table?_put, if_neg (by decide)]
    exact h.details

/-- The statements have the outcome that opening has for the database that the
    file holds. -/
theorem setUp_of_holds (h : Holds file db) :
    (∃ error, setUp file = .error error ∧ db.open? = .error error) ∨
      ∃ after opened, setUp file = .ok after ∧ db.open? = .ok opened ∧ Holds after opened := by
  rcases db with ⟨_ | version, assets, principals⟩
  · -- The table of versions that was made is written to at once.
    rw [setUp_of_lookup_eq_none h.version, put_make]
    exact Or.inr ⟨_, _, rfl, rfl, ((h.record _).makeAssets).makePrincipals⟩
  rw [setUp_of_lookup h.version]
  unfold Database.open?
  dsimp only
  -- Version 1 lacks the tables of principals; any other that is not the current one
  -- is unknown.
  by_cases hone : version = 1
  · rw [if_pos hone, if_pos hone, changeVersions_of_lookup h.makePrincipals.version]
    exact Or.inr ⟨_, _, rfl, rfl, h.makePrincipals.record _⟩
  rw [if_neg hone, if_neg hone]
  by_cases hcurrent : version = Database.currentVersion
  · rw [if_pos hcurrent, if_pos hcurrent]
    exact Or.inr ⟨file, _, rfl, rfl, h⟩
  · rw [if_neg hcurrent, if_neg hcurrent]
    exact Or.inl ⟨_, rfl, rfl⟩

end Holds

end DatabaseFile

namespace Database

/-- A database has the tables of the version that it records, or nothing at
    all. -/
def OfVersion (db : Database) : Prop :=
  db = blank ∨
    db.version = some 1 ∧ db.assets.isSome = true ∧ db.principals = none ∨
    db.version = some 2 ∧ db.assets.isSome = true ∧ db.principals.isSome = true

/-- A database is opened, used for some calls and closed, and this again and
    again. -/
def sittings : List (List StoreCall) → Database → Except DatabaseError (List StoreReply × Database)
  | [], db => .ok ([], db)
  | sitting :: rest, db => do
    let opened ← db.open?
    let (replies, final) ← sittings rest (calls.after opened sitting)
    return (calls.replies opened sitting ++ replies, final)

section Version

variable {db after opened : Database}

/-- A database that has the tables of its version keeps them when it is opened. -/
theorem open?_of_ofVersion (h : db.OfVersion) :
    db.open? =
      .ok ⟨some currentVersion, some (db.assets.getD []), some (db.principals.getD .empty)⟩ := by
  rcases db with ⟨version, assets, principals⟩
  -- A new file, one of version 1, and one of the current version.
  rcases h with h | ⟨hversion, hassets, hprincipals⟩ | ⟨hversion, hassets, hprincipals⟩
  · cases h
    rfl
  · cases hversion
    cases hprincipals
    rcases assets with _ | assets
    · cases hassets
    · rfl
  · cases hversion
    rcases assets with _ | assets
    · cases hassets
    rcases principals with _ | principals
    · cases hprincipals
    · rfl

/-- What was opened is at the current version. -/
theorem version_of_open? (h : db.open? = .ok opened) : opened.version = some currentVersion := by
  unfold open? at h
  split at h
  · cases h
    rfl
  · rename_i version hversion
    split at h
    · cases h
      rfl
    · rename_i hne
      split at h
      · rename_i hcurrent
        cases h
        rw [hversion, hcurrent]
      · cases h

theorem version_create {asset : AssetId} {result : Unit}
    (h : create asset db = .ok (result, after)) : after.version = db.version := by
  unfold create at h
  split at h
  · cases h
  · split at h
    · cases h
      rfl
    · cases h
      rfl

theorem version_merge {asset : AssetId} {updates : Document} {now : Stamp} {receipt : Receipt}
    (h : db.merge asset updates now = .ok (receipt, after)) : after.version = db.version := by
  rcases merge_eq_ok h with ⟨-, -, assets, group, groups, -, -, -, hdone⟩
  rcases hdone with ⟨-, -, rfl⟩ | ⟨row, text, -, -, -, rfl⟩
  · rfl
  · rfl

theorem version_clear {asset : AssetId} {now : Stamp} {receipt : Receipt}
    (h : db.clear asset now = .ok (receipt, after)) : after.version = db.version := by
  unfold clear at h
  split at h
  · cases h
  · dsimp only at h
    split at h
    · cases h
      rfl
    · cases h
      rfl

theorem version_delete {asset : AssetId} {result : Bool}
    (h : db.delete asset = .ok (result, after)) : after.version = db.version := by
  unfold delete at h
  split at h
  · cases h
  · cases h
    rfl

theorem version_call {α : Type} {act : Database → Except DatabaseError (α × Database)}
    (h : ∀ result after, act db = .ok (result, after) → after.version = db.version) :
    (call act db).2.version = db.version := by
  rcases hact : act db with error | ⟨result, after⟩
  · rw [call_error hact]
  · rw [call_ok hact]
    exact h result after hact

/-- No call changes the version. -/
theorem version_run (call : StoreCall) (db : Database) :
    (call.run calls db).2.version = db.version := by
  cases call with
  | create asset => exact version_call fun _ _ => version_create
  | load asset =>
    -- A read puts back the database that it was given.
    refine version_call fun result after h => ?_
    rcases hload : db.load asset with error | row
    · rw [hload] at h
      cases h
    · rw [hload] at h
      cases h
      rfl
  | merge asset updates now => exact version_call fun _ _ => version_merge
  | clear asset now => exact version_call fun _ _ => version_clear
  | delete asset => exact version_call fun _ _ => version_delete

/-- No run of calls changes the version. -/
theorem version_after (run : List StoreCall) (db : Database) :
    (calls.after db run).version = db.version := by
  induction run generalizing db with
  | nil => rfl
  | cons call rest ih => exact (ih _).trans (version_run call db)

/-- A database that was opened and used is as it was when it is opened again. -/
theorem open?_after (h : db.open? = .ok opened) (run : List StoreCall) :
    (calls.after opened run).open? = .ok (calls.after opened run) :=
  open?_eq_self ((version_after run opened).trans (version_of_open? h))

/-- Sittings cannot be told apart: the calls of all of them are answered as in
    a single one, and leave what they would leave. -/
theorem sittings_eq (h : db.open? = .ok opened) (first : List StoreCall)
    (rest : List (List StoreCall)) :
    sittings (first :: rest) db =
      .ok (calls.replies opened (first :: rest).flatten,
        calls.after opened (first :: rest).flatten) := by
  induction rest generalizing db opened first with
  | nil =>
    rw [sittings, h, List.flatten_singleton]
    change Except.ok (_ ++ [], _) = _
    rw [List.append_nil]
  | cons next rest ih =>
    -- The next sitting opens what the first one left, and finds it as it is.
    have hflatten : (first :: next :: rest).flatten = first ++ (next :: rest).flatten := rfl
    rw [sittings, h]
    change (sittings (next :: rest) (calls.after opened first) >>= _) = _
    rw [ih (open?_after h first), hflatten, RowStore.replies_append, RowStore.after_append]
    rfl

end Version

end Database

namespace DatabaseFile

/-- A file is brought to the current version without a loss, or it is refused
    and stays as it is.

    If it holds a database with the tables of its version, or none, opening
    succeeds. The database has its rows afterwards, and empty tables where it
    had none; under every name that does not record the version the file has
    what it had, and a file of the current version is not touched. Opening
    again changes nothing, and so the calls of any number of sittings are
    answered as if the file had never been closed. A file that records another
    version is refused, whatever else is in it. -/
theorem opened_migrates (file : DatabaseFile) :
    (∀ db : Database, Holds file db → db.OfVersion →
      ∃ after current, opened file = (.ok (), after) ∧ db.open? = .ok current ∧
        Holds after current ∧ current.version = some 2 ∧
        current.assets = some (db.assets.getD []) ∧
        current.principals = some (db.principals.getD .empty) ∧
        Retains file after ∧ (db.version = some 2 → after = file) ∧
        opened after = (.ok (), after) ∧
        ∀ first rest, Database.sittings (first :: rest) db =
          .ok (Database.calls.replies current (first :: rest).flatten,
            Database.calls.after current (first :: rest).flatten)) ∧
      ∀ version rows, file.table? versionName = some (.versions (version :: rows)) →
        version ≠ 1 → version ≠ 2 →
        opened file =
          (.error (.version ("unsupported schema version: " ++ toString version)), file) := by
  refine ⟨fun db h hversion => ?_, fun version rows h hone hcurrent =>
    opened_of_unknown h hone hcurrent⟩
  have hopen := Database.open?_of_ofVersion hversion
  rcases setUp_of_holds h with ⟨error, -, herror⟩ | ⟨after, current, hsetUp, hcurrent, hafter⟩
  · -- A database that has the tables of its version is not refused.
    cases hopen.symm.trans herror
  cases hopen.symm.trans hcurrent
  refine ⟨after, _, ?_, hopen, hafter, rfl, rfl, rfl, retains_setUp hsetUp, fun htwo => ?_, ?_,
    fun first rest => Database.sittings_eq hopen first rest⟩
  · rw [opened, hsetUp]
  · -- At the current version the statements stop after the look at it.
    have hlookup := h.version
    rw [htwo] at hlookup
    rw [setUp_of_lookup hlookup] at hsetUp
    cases hsetUp
    rfl
  · rw [opened, setUp_of_lookup hafter.version]
    rfl

/-- A shared file of the first version, with its names in other letters, a row
    and a table of somebody else, that is opened three times before the row is
    read; and a file of a later version. -/
theorem opened_migrates_sharedFile :
    let row : StoredRow := ⟨"\x7b\"a\":1\x7d", some 7⟩
    let notes : FileTable := .foreign ["text"] [["keep"]]
    let db : Database := ⟨some 1, some [(⟨"a"⟩, row)], none⟩
    let file : DatabaseFile :=
      [("notes", notes), ("STORE_META", .versions [1]), ("Assets", .assets [(⟨"a"⟩, row)])]
    let later : DatabaseFile := [("Store_Meta", .versions [99]), ("notes", notes)]
    (∃ after, opened file = (.ok (), after) ∧ after.table? "notes" = some notes ∧
        after.table? "assets" = some (.assets [(⟨"a"⟩, row)]) ∧
        opened after = (.ok (), after)) ∧
      Database.sittings [[], [], [.load ⟨"a"⟩]] db =
        .ok ([.loaded (.ok (some ⟨.single "a" (.ofUInt64 1), some 7⟩))],
          ⟨some 2, some [(⟨"a"⟩, row)], some .empty⟩) ∧
      opened later = (.error (.version "unsupported schema version: 99"), later) := by
  intro row notes db file later
  have hversion : file.table? versionName = some (.versions [1]) := by decide
  have hassets : file.table? assetsName = some (.assets [(⟨"a"⟩, row)]) := by decide
  have hprincipals : file.table? principalsName = none := by decide
  have hdetails : file.table? detailsName = none := by decide
  have hlater : later.table? versionName = some (.versions [99]) := by decide
  have hholds : Holds file db := ⟨hversion, hassets, hprincipals, hdetails⟩
  rcases (opened_migrates file).1 db hholds (Or.inr (Or.inl ⟨rfl, rfl, rfl⟩)) with
    ⟨after, current, hopened, hopen, -, -, -, -, hretains, -, hagain, hsittings⟩
  have hrun : (StoreCall.load ⟨"a"⟩).run Database.calls
        ⟨some 2, some [(⟨"a"⟩, row)], some .empty⟩ =
      (.loaded (.ok (some ⟨.single "a" (.ofUInt64 1), some 7⟩)),
        ⟨some 2, some [(⟨"a"⟩, row)], some .empty⟩) := by
    decide +kernel
  refine ⟨⟨after, hopened, ?_, ?_, hagain⟩, (hsittings _ _).trans ?_, ?_⟩
  · exact hretains.table "notes" notes (by decide) (by decide)
  · exact hretains.table "assets" _ (by decide) hassets
  · cases hopen
    exact congrArg (fun outcome => Except.ok ([outcome.1], outcome.2)) hrun
  · exact (opened_migrates later).2 99 [] hlater (by decide) (by decide)

end DatabaseFile

end Fieldwork
