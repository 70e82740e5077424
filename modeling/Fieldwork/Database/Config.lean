import Fieldwork.Database.Address
import Fieldwork.Database.Basic
import Fieldwork.Disk.Basic
import Fieldwork.Json.Record

/-!
# Database Configuration

Where a database is and how it is opened.

A configuration is checked before anything is opened: its path has to keep
within the limits and must not lead to a directory. Opening makes the
directories above the file, then the file, then its tables. Between the last
two it sets the time to wait for another writer, and there the program gives up
if this is more than the engine can be told. No check has looked at it before.

The engine takes a path apart by its text alone: a step up cancels the step
before, whatever is on the disk.

## Main definitions

* `JournalMode`, `SyncMode`: How the engine keeps its journal and when it
  waits for the disk.
* `DatabaseConfig`: Where and how.
* `DatabaseConfig.check`: Whether a database can be at the path.
* `DatabaseConfig.open?`: A new database at the path.
-/

namespace Fieldwork

/-- How the engine keeps its journal. -/
inductive JournalMode where
  /-- Changes go to a log first. -/
  | wal
  /-- The journal is deleted when a transaction ends. -/
  | delete
  deriving DecidableEq, Inhabited

namespace JournalMode

/-- The word for a mode. -/
def label : JournalMode → String
  | wal => "wal"
  | delete => "delete"

/-- The mode that a word stands for. -/
def ofLabel? (label : String) : Option JournalMode :=
  [wal, delete].find? fun mode => mode.label = label

end JournalMode

/-- When the engine waits for the disk. -/
inductive SyncMode where
  /-- At every write that matters. -/
  | full
  /-- At the most critical moments. -/
  | normal
  deriving DecidableEq, Inhabited

namespace SyncMode

/-- The word for a mode. -/
def label : SyncMode → String
  | full => "full"
  | normal => "normal"

/-- The mode that a word stands for. -/
def ofLabel? (label : String) : Option SyncMode :=
  [full, normal].find? fun mode => mode.label = label

end SyncMode

/-- Why no database can be at a path. -/
inductive StorePathFault where
  /-- There is no path. -/
  | empty
  /-- The path is too long. -/
  | length
  /-- A component is too long. -/
  | component
  /-- A directory is there. -/
  | directory
  deriving DecidableEq

/-- The wording of a fault. -/
def StorePathFault.reason : StorePathFault → String
  | empty => "store path must not be empty"
  | length => "store path exceeds length limit"
  | component => "store path contains an overlong component"
  | directory => "store path must be a file, not a directory"

/-- Where a database is and how it is opened. -/
structure DatabaseConfig where
  /-- The path of the file. -/
  path : Path
  /-- How many milliseconds to wait for another writer. -/
  busyTimeout : UInt64
  /-- How the journal is kept. -/
  journal : JournalMode
  /-- When to wait for the disk. -/
  sync : SyncMode
  deriving DecidableEq

namespace DatabaseConfig

/-- How many milliseconds to wait unless told otherwise. -/
def defaultBusyTimeout : UInt64 := 5000

/-- What is used for a path unless told otherwise. -/
def ofPath (path : Path) : DatabaseConfig :=
  ⟨path, defaultBusyTimeout, .wal, .full⟩

/-- The names of the fields. -/
def fieldNames : List String := ["path", "busy_timeout_ms", "journal_mode", "sync_mode"]

/-- The configuration that a record holds. -/
def ofWritten? (tree : Written) : Option DatabaseConfig :=
  (tree.record? fieldNames true).bind fun fields =>
    let path? := (fields.lookup "path").bind fun tree => tree.fieldValue?.bind Json.string?
    let busy? := match fields.lookup "busy_timeout_ms" with
      | none => some defaultBusyTimeout
      | some tree => tree.fieldValue?.bind Json.uint64?
    let journal? := match fields.lookup "journal_mode" with
      | none => some JournalMode.wal
      | some tree => tree.case?.bind JournalMode.ofLabel?
    let sync? := match fields.lookup "sync_mode" with
      | none => some SyncMode.full
      | some tree => tree.case?.bind SyncMode.ofLabel?
    path?.bind fun path => busy?.bind fun busy => journal?.bind fun journal =>
      sync?.map fun sync => ⟨.ofText path, busy, journal, sync⟩

/-- The configuration of a text. -/
def parse? (text : String) : Option DatabaseConfig :=
  (Written.read? text.toList).bind ofWritten?

/-- The first fault of a path, if it has one. -/
def fault? (disk : Disk) (path : Path) : Option StorePathFault :=
  if path.bytes = [] then some .empty
  else if path.isTooLong then some .length
  else if path.hasLongComponent then some .component
  else if disk.isDirectory path then some .directory
  else none

/-- Whether a database can be at the path. -/
def check (config : DatabaseConfig) (disk : Disk) : Except DatabaseError Unit :=
  match fault? disk config.path with
  | some fault => .error (.invalid fault.reason)
  | none => .ok ()

/-- The most bytes of the path of a file, from the root on. -/
def engineLengthLimit : Nat := 504

/-- The most bytes of a path while the engine takes it apart. -/
def enginePartLimit : Nat := 511

/-- How many bytes the path of a place has. -/
def placeLength (place : Place) : Nat :=
  place.foldl (fun total name => total + (name.length + 1)) 0

/-- The place that the engine takes the name of a file for. -/
def enginePlace? (disk : Disk) (name : Path) : Option Place :=
  (name.pieces.foldlM
    (fun place piece =>
      let next := Disk.step place piece
      if placeLength next ≤ enginePartLimit then some next else none)
    (disk.start name)).filter fun place => placeLength place ≤ engineLengthLimit

/-- The disk after the engine has opened the file with a name, unless it
    cannot. -/
def openNamed? (disk : Disk) (name : Path) (make : Bool) : Option Disk :=
  (enginePlace? disk name).bind fun place =>
    if disk.hasDirectory place || !disk.hasDirectory place.dropLast then none
    else match disk.entry? place with
      | none => if make then some (disk.put place (.file .empty)) else none
      | some _ => some disk

/-- The disk after the engine has opened a database at a path, and whether the
    database may be written, unless it cannot. -/
def openFile? (disk : Disk) (path : Path) : Option (Disk × Bool) :=
  if path.bytes.contains 0 then none
  else (DatabaseAddress.ofPath? path).bind fun address =>
    match address.target with
    | .memory => some (disk, address.writable)
    | .file name make => (openNamed? disk name make).map fun disk => (disk, address.writable)

/-- The most milliseconds that the engine can be told to wait. -/
def timeoutLimit : UInt64 := 0x7FFFFFFF

/-- A new database at the path, or none if the program gives up. -/
def open? (config : DatabaseConfig) (disk : Disk) :
    Option (Except DatabaseError Database) × Disk :=
  match config.check disk with
  | .error error => (some (.error error), disk)
  | .ok () =>
    let above := config.path.components.dropLast
    let (made, disk) :=
      if above.isEmpty then (true, disk) else disk.makeDirectories config.path above
    -- Directories that were made stay, even if the file cannot be opened.
    if !made then (some (.error (.file elided)), disk)
    else match openFile? disk config.path with
      | none => (some (.error (.engine elided)), disk)
      | some (disk, writable) =>
        if timeoutLimit < config.busyTimeout then (none, disk)
        else if writable then (some Database.blank.open?, disk)
        else (some (.error (.engine elided)), disk)

end DatabaseConfig

end Fieldwork
