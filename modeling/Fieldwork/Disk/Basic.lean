import Fieldwork.Disk.Path
import Fieldwork.Ordered

/-!
# Disks

Directories and files, as far as a configuration reaches them.

A path leads to a place step by step. Every step has to start from a
directory, also one that stays where it is or goes up, so a path with a slash
at its end leads to a directory or nowhere. A path may lead to a place where
nothing is yet, if only its last component is missing.

Text goes to the end of a file. What is written to a device is gone.

## Main definitions

* `DiskEntry`: What is at a place.
* `Disk`: The places, and where relative paths start.
* `Disk.locate?`: Where a path leads.
* `Disk.makeDirectories`: Makes the directories of a path.
* `Disk.read?`, `Disk.open?`, `Disk.append`: Files.
-/

namespace Fieldwork

/-- What is at a place of a disk. -/
inductive DiskEntry where
  /-- A directory. -/
  | directory
  /-- A file with its bytes. -/
  | file (content : ByteArray)
  /-- A device, which has no bytes. -/
  | device

/-- The names of the directories from the root to a place, and its own. -/
abbrev Place := List FileName

/-- Directories and files. -/
@[ext]
structure Disk where
  /-- Where relative paths start. -/
  current : Place
  /-- What there is, other than the root. -/
  entries : List (Place × DiskEntry)

namespace Disk

/-- What is at a place. -/
def entry? (disk : Disk) : Place → Option DiskEntry
  | [] => some .directory
  | place => disk.entries.lookup place

/-- Whether there is a directory at a place. -/
def hasDirectory (disk : Disk) (place : Place) : Bool :=
  match disk.entry? place with
  | some .directory => true
  | _ => false

/-- Puts something at a place. -/
def put (disk : Disk) (place : Place) (entry : DiskEntry) : Disk :=
  { disk with entries := Ordered.insert place entry disk.entries }

/-- Where a relative path or an absolute one starts. -/
def start (disk : Disk) (path : Path) : Place :=
  if path.isAbsolute then [] else disk.current

/-- Where one component leads. -/
def step (place : Place) (component : FileName) : Place :=
  if component = [] || component = Path.here || component = Path.root then place
  else if component = Path.above then place.dropLast
  else place ++ [component]

/-- Where components lead, if every step starts from a directory. -/
def walk? (disk : Disk) (place : Place) : List FileName → Option Place
  | [] => some place
  | component :: rest =>
    if disk.hasDirectory place then walk? disk (step place component) rest else none

/-- Whether the machine takes a path at all. -/
def isUsable (path : Path) : Bool :=
  path.bytes != [] && path.bytes.length < Path.lengthLimit && !path.bytes.contains 0

/-- Where a path leads. -/
def locate? (disk : Disk) (path : Path) : Option Place :=
  if isUsable path then disk.walk? (disk.start path) path.pieces else none

/-- Whether a path leads to a directory. -/
def isDirectory (disk : Disk) (path : Path) : Bool :=
  (disk.locate? path).any disk.hasDirectory

/-- Makes a directory wherever components lead, and says whether that went
    well. What was made before a failure stays. -/
def makeAlong (disk : Disk) (place : Place) : List FileName → Bool × Disk
  | [] => (true, disk)
  | component :: rest =>
    let place := step place component
    match disk.entry? place with
    | some .directory => disk.makeAlong place rest
    -- Below a file nothing can be made.
    | some _ => (false, disk)
    | none => (disk.put place .directory).makeAlong place rest

/-- Makes the directory that a path leads to, and all above it. -/
def makeDirectories (disk : Disk) (path : Path) (components : List FileName) : Bool × Disk :=
  if isUsable path then disk.makeAlong (disk.start path) components else (false, disk)

/-- The bytes of a file. -/
def read? (disk : Disk) (path : Path) : Option ByteArray :=
  (disk.locate? path).bind fun place =>
    match disk.entry? place with
    | some (.file content) => some content
    | some .device => some .empty
    | _ => none

/-- Opens a file for writing at its end, and makes it unless it is there. -/
def open? (disk : Disk) (path : Path) : Option Disk :=
  (disk.locate? path).bind fun place =>
    match disk.entry? place with
    | none => some (disk.put place (.file .empty))
    | some .directory => none
    | some _ => some disk

/-- Writes text to the end of a file. -/
def append (disk : Disk) (path : Path) (text : String) : Disk :=
  match disk.locate? path with
  | none => disk
  | some place =>
    match disk.entry? place with
    | some (.file content) => disk.put place (.file (content ++ text.toUTF8))
    | _ => disk

end Disk

end Fieldwork
