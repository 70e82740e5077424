import Fieldwork.Config.Error
import Fieldwork.Database.Backfill.Config
import Fieldwork.Database.Config
import Fieldwork.Text.Blank

/-!
# Configurations

What can be configured, and when a configuration is sound.

There are three sections, each with defaults for all its fields. A section is
sound on its own terms: a store in memory has no path and a store in a
database needs one, a page has room and is not too large, and only a log in a
file has a path. Sections are checked in their order, and the first fault
counts.

A sound section says what to build. What it builds from is made only after
the check, so nothing is ever built from a section at fault.

## Main definitions

* `StoreSection`, `BackfillSection`, `AuditSection`: The sections.
* `Config`: All of them.
* `Config.check`: Whether it is sound.
* `StoreSection.database?`, `BackfillSection.job`: What to build from.
-/

namespace Fieldwork

/-- The kinds of row stores. -/
inductive StoreKind where
  /-- Rows in memory. -/
  | memory
  /-- Rows in a database. -/
  | database
  deriving DecidableEq, Inhabited

namespace StoreKind

/-- The word for a kind. -/
def label : StoreKind → String
  | memory => "memory"
  | database => "sqlite"

/-- The kind that a word stands for. -/
def ofLabel? (label : String) : Option StoreKind :=
  [memory, database].find? fun kind => kind.label = label

end StoreKind

/-- The kinds of audit logs. -/
inductive SinkKind where
  /-- Lines on the terminal. -/
  | terminal
  /-- Lines in a file. -/
  | file
  /-- No lines. -/
  | nowhere
  deriving DecidableEq, Inhabited

namespace SinkKind

/-- The word for a kind. -/
def label : SinkKind → String
  | terminal => "stderr"
  | file => "file"
  | nowhere => "none"

/-- The kind that a word stands for. -/
def ofLabel? (label : String) : Option SinkKind :=
  [terminal, file, nowhere].find? fun kind => kind.label = label

end SinkKind

/-- The section of the row store. -/
structure StoreSection where
  /-- Which kind it is. -/
  kind : StoreKind
  /-- Where the database is. -/
  path : Option Path
  /-- How many milliseconds to wait for another writer. -/
  busyTimeout : UInt64
  /-- How the journal is kept. -/
  journal : JournalMode
  /-- When to wait for the disk. -/
  sync : SyncMode
  deriving DecidableEq

/-- The section of the backfill. -/
structure BackfillSection where
  /-- Whether it is left out. -/
  skip : Bool
  /-- How many principals a page has at most. -/
  pageSize : UInt32
  deriving DecidableEq

/-- The section of the audit log. -/
structure AuditSection where
  /-- Which kind it is. -/
  sink : SinkKind
  /-- Where the file is. -/
  path : Option Path
  deriving DecidableEq

/-- A configuration. -/
structure Config where
  /-- The row store. -/
  store : StoreSection
  /-- The backfill. -/
  backfill : BackfillSection
  /-- The audit log. -/
  audit : AuditSection
  deriving DecidableEq

/-- Whether the path of a field can be used. -/
def PathField.check (field : PathField) (path : Path) : Except ConfigFault Unit :=
  if (Text.trim path.text.toList).isEmpty then .error (.path field .blank)
  else if path.isTooLong then .error (.path field .length)
  else if path.hasLongComponent then .error (.path field .component)
  else .ok ()

namespace StoreSection

/-- What is used unless told otherwise. -/
def default : StoreSection :=
  ⟨.memory, none, DatabaseConfig.defaultBusyTimeout, .wal, .full⟩

/-- Whether the section is sound. -/
def check (store : StoreSection) : Except ConfigFault Unit :=
  match store.kind, store.path with
  | .memory, some _ => .error .memoryPath
  | .memory, none => .ok ()
  | .database, none => .error .missingStorePath
  | .database, some path =>
    match PathField.store.check path with
    | .error fault => .error fault
    | .ok () => if store.busyTimeout = 0 then .error .zeroTimeout else .ok ()

/-- The database that the section asks for, if it asks for one. -/
def database? (store : StoreSection) : Option DatabaseConfig :=
  match store.kind, store.path with
  | .database, some path => some ⟨path, store.busyTimeout, store.journal, store.sync⟩
  | _, _ => none

end StoreSection

namespace BackfillSection

/-- What is used unless told otherwise. -/
def default : BackfillSection :=
  ⟨false, BackfillConfig.defaultPageSize⟩

/-- Whether the section is sound. -/
def check (backfill : BackfillSection) : Except ConfigFault Unit :=
  if backfill.pageSize = 0 then .error .zeroPage
  else if pageSizeLimit < backfill.pageSize then .error .largePage
  else .ok ()

/-- The backfill that the section asks for. -/
def job (backfill : BackfillSection) : Except ConfigFault BackfillConfig :=
  match backfill.check with
  | .error fault => .error fault
  | .ok () =>
    if h : backfill.pageSize = 0 then .error .zeroPage
    else .ok ⟨backfill.skip, backfill.pageSize, h⟩

end BackfillSection

namespace AuditSection

/-- What is used unless told otherwise. -/
def default : AuditSection :=
  ⟨.terminal, none⟩

/-- Whether the section is sound. -/
def check (audit : AuditSection) : Except ConfigFault Unit :=
  match audit.sink, audit.path with
  | .file, none => .error .missingAuditPath
  | .file, some path => PathField.audit.check path
  | _, some _ => .error .strayAuditPath
  | _, none => .ok ()

end AuditSection

namespace Config

/-- What is used unless told otherwise. -/
def default : Config :=
  ⟨.default, .default, .default⟩

instance : Inhabited Config := ⟨default⟩

/-- Whether every section is sound. -/
def check (config : Config) : Except ConfigFault Unit := do
  config.store.check
  config.backfill.check
  config.audit.check

end Config

end Fieldwork
