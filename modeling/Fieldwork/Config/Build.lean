import Fieldwork.Audit.Record
import Fieldwork.Config.Basic
import Fieldwork.Database.Rows
import Fieldwork.Store.Memory

/-!
# Building from Configurations

Row stores and audit logs as a configuration asks for them.

A section is checked once more before anything is built, because it need not
have been read from a file. What then fails is the machine or the database,
never the configuration, or the program gives up. Building may leave
directories and files on the disk, also when it fails.

## Main definitions

* `BuiltStore`: A row store of either kind.
* `StoreSection.build`, `AuditSection.build`: A row store and an audit log.

## Theorems

* `build_of_check_error`: Nothing is built from a section at fault.
-/

namespace Fieldwork

/-- A row store of either kind. -/
inductive BuiltStore where
  /-- Rows in memory. -/
  | memory (store : MemoryStore)
  /-- Rows in a database. -/
  | database (db : Database)

namespace BuiltStore

/-- A call of a store of either kind. -/
def call {α : Type} (onMemory : MemoryStore → α × MemoryStore)
    (onDatabase : Database → α × Database) : BuiltStore → α × BuiltStore
  | memory store =>
    let (result, store) := onMemory store
    (result, memory store)
  | database db =>
    let (result, db) := onDatabase db
    (result, database db)

/-- The calls of a store of either kind. -/
def calls : RowStore BuiltStore where
  create asset := call (MemoryStore.calls.create asset) (Database.calls.create asset)
  load asset := call (MemoryStore.calls.load asset) (Database.calls.load asset)
  merge asset updates now :=
    call (MemoryStore.calls.merge asset updates now) (Database.calls.merge asset updates now)
  clear asset now := call (MemoryStore.calls.clear asset now) (Database.calls.clear asset now)
  delete asset := call (MemoryStore.calls.delete asset) (Database.calls.delete asset)

end BuiltStore

/-- The row store that a section asks for, or none if the program gives up. -/
def StoreSection.build (store : StoreSection) (disk : Disk) :
    Option (Except ConfigError BuiltStore) × Disk :=
  match store.check with
  | .error fault => (some (.error (.invalid fault)), disk)
  | .ok () =>
    match store.database? with
    | none => (some (.ok (.memory .empty)), disk)
    | some config =>
      match config.open? disk with
      | (none, disk) => (none, disk)
      | (some (.error error), disk) => (some (.error (.database error)), disk)
      | (some (.ok db), disk) => (some (.ok (.database db)), disk)

/-- The audit log that a section asks for. -/
def AuditSection.build (audit : AuditSection) (disk : Disk) : Except ConfigError AuditSink × Disk :=
  match audit.check with
  | .error fault => (.error (.invalid fault), disk)
  | .ok () =>
    match audit.sink, audit.path with
    | .file, some path =>
      match disk.open? path with
      | none => (.error .machine, disk)
      | some disk => (.ok (.file path), disk)
    | .nowhere, _ => (.ok .nowhere, disk)
    | _, _ => (.ok .terminal, disk)

/-- Nothing is built from a section at fault. -/
theorem StoreSection.build_of_check_error {store : StoreSection} {fault : ConfigFault}
    (h : store.check = .error fault) (disk : Disk) :
    store.build disk = (some (.error (.invalid fault)), disk) := by
  simp [build, h]

end Fieldwork
