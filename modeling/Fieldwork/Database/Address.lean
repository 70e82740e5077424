import Fieldwork.Disk.Path
import Fieldwork.Text.Hex

/-!
# Database Addresses

What the engine takes the path of a database for.

A path names a file, but the engine sees more in some paths. One name, and the
empty one, stand for a database in memory. A path that starts with `scheme` is
an address: next may come an authority, which has to be this machine; then the
name of the file; behind a question mark, options; what is behind a hash does
not count. Anywhere in it a percent sign and two hexadecimal digits spell a
byte. Such a byte is never a mark of the address, and the null byte ends the
part in which it is spelled.

The options say in which mode the file is opened, and by which part of the
engine. An option may narrow the mode and not widen it again. A database that
may only be read can be opened, but it is of no use for a new store, whose
tables have to be made.

## Main definitions

* `DatabaseTarget`, `DatabaseAddress`: In memory, or in a file.
* `octets`: The bytes that a part of an address spells.
* `AddressOptions.ofQuery?`: What the options ask for.
* `DatabaseAddress.ofPath?`: What a path is taken for.
-/

namespace Fieldwork

/-- Where the engine keeps a database. -/
inductive DatabaseTarget where
  /-- In memory, as long as it is open. -/
  | memory
  /-- In the file at a path, which is made if `make` holds and it is not
      there. -/
  | file (path : Path) (make : Bool)
  deriving DecidableEq

/-- What a path is taken for. -/
structure DatabaseAddress where
  /-- Where the database is. -/
  target : DatabaseTarget
  /-- Whether it may be written. -/
  writable : Bool
  deriving DecidableEq

/-- What may be done with the file of a database. -/
inductive FileMode where
  /-- It may be read. -/
  | read
  /-- It may also be written. -/
  | write
  /-- It may also be made. -/
  | make
  /-- There is none. -/
  | memory
  deriving DecidableEq

namespace FileMode

/-- The mode that a word stands for. -/
def ofWord? (word : List UInt8) : Option FileMode :=
  if word = bytesOf "ro" then some read
  else if word = bytesOf "rw" then some write
  else if word = bytesOf "rwc" then some make
  else if word = bytesOf "memory" then some memory
  else none

/-- Whether an option may ask for a mode after another. -/
def allows : FileMode → FileMode → Bool
  | make, _ | memory, _ | _, memory | _, read | write, write => true
  | _, _ => false

end FileMode

/-- What the options of an address ask for. -/
structure AddressOptions where
  /-- The mode. -/
  mode : FileMode
  /-- The part of the engine that opens the file. -/
  opener : Option (List UInt8)
  /-- Whether the file never changes, once that is said. -/
  isFixed : Option Bool

namespace AddressOptions

/-- Nothing is asked for. -/
def default : AddressOptions :=
  ⟨.make, none, none⟩

/-- The bytes that a part of an address spells, up to the null byte. -/
def octets : List UInt8 → List UInt8
  | 0x25 :: a :: b :: rest =>
    match Hex.digit? (Char.ofUInt8 a), Hex.digit? (Char.ofUInt8 b) with
    | some high, some low =>
      if 16 * high + low = 0 then [] else UInt8.ofNat (16 * high + low) :: octets rest
    | _, _ => 0x25 :: octets (a :: b :: rest)
  | byte :: rest => byte :: octets rest
  | [] => []

/-- A part of an address before a mark, and what is behind the mark. -/
def split (mark : UInt8) (bytes : List UInt8) : List UInt8 × List UInt8 :=
  (bytes.takeWhile (· != mark), (bytes.dropWhile (· != mark)).drop 1)

/-- Whether a word says yes. A number does unless its last byte is zero or it is
    beyond a signed word of 32 bits. -/
def saysYes (word : List UInt8) : Bool :=
  let cs := word.map Char.ofUInt8
  let digits := cs.takeWhile Char.isDigit
  if digits.isEmpty then ["on", "yes", "true"].contains (String.ofList (cs.map Char.toLower))
  else
    let n := Nat.ofDigitChars 10 digits 0
    n < 0x80000000 && n % 256 != 0

/-- The options after one more. -/
def with? (options : AddressOptions) (name value : List UInt8) : Option AddressOptions :=
  if name = bytesOf "mode" then
    ((FileMode.ofWord? value).filter options.mode.allows).map fun mode => { options with mode }
  else if name = bytesOf "cache" then
    if value = bytesOf "shared" || value = bytesOf "private" then some options else none
  else if name = bytesOf "vfs" then some { options with opener := some value }
  else if name = bytesOf "immutable" then
    some { options with isFixed := options.isFixed.or (some (saysYes value)) }
  else some options

/-- What the options of a query ask for. An option without a name is passed
    over. -/
def ofQuery? (query : List UInt8) : Option AddressOptions :=
  (query.splitOn '&'.toUInt8).foldlM
    (fun options part =>
      let (name, value) := split '='.toUInt8 part
      if octets name = [] then some options else options.with? (octets name) (octets value))
    default

/-- The part of the engine that keeps files in memory. -/
def memoryOpener : List UInt8 := bytesOf "memdb"

/-- The parts of the engine that open files. -/
def openers : List (List UInt8) :=
  ["unix", "unix-excl", "unix-dotfile", "unix-none"].map bytesOf ++ [memoryOpener]

/-- Where a database with a name is under the options, unless no part of the
    engine opens it. -/
def address? (options : AddressOptions) (name : FileName) : Option DatabaseAddress :=
  let readOnly := options.mode = .read
  if !options.opener.all openers.contains then none
  else if name = [] || name = bytesOf ":memory:" || options.mode = .memory then
    some ⟨.memory, !readOnly⟩
  else
    let target :=
      if options.opener = some memoryOpener then DatabaseTarget.memory
      else .file ⟨name⟩ (options.mode = .make)
    some ⟨target, !readOnly && options.isFixed != some true⟩

end AddressOptions

namespace DatabaseAddress

/-- What an address starts with. -/
def scheme : List UInt8 := bytesOf "file:"

/-- An address without its authority, if that is this machine. -/
def afterAuthority? : List UInt8 → Option (List UInt8)
  | 0x2F :: 0x2F :: rest =>
    let authority := rest.takeWhile (· != Path.slash)
    if authority = [] || authority = bytesOf "localhost" then some (rest.drop authority.length)
    else none
  | bytes => some bytes

/-- What a path is taken for, unless it is an address that cannot be opened. -/
def ofPath? (path : Path) : Option DatabaseAddress :=
  if scheme.isPrefixOf path.bytes then
    (afterAuthority? (path.bytes.drop scheme.length)).bind fun rest =>
      let (name, query) := AddressOptions.split '?'.toUInt8 (rest.takeWhile (· != '#'.toUInt8))
      (AddressOptions.ofQuery? query).bind fun options =>
        options.address? (AddressOptions.octets name)
  else AddressOptions.default.address? path.bytes

end DatabaseAddress

end Fieldwork
