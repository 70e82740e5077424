import Fieldwork.Audit.Event
import Fieldwork.Disk.Basic

/-!
# Audit Records

What is handed to an audit log, and what it appends.

A record is an event together with its time. The words in it are texts like
any other: a log writes down what it is handed, and does not know which words
an event may have. The time is a count without a bound, and may be more than a
number of a value can hold; its digits are written all the same. So a line is
made field by field from what the fields hold, and is read back in the same
way.

A sink says where the lines of a process go. One that writes to the terminal or
nowhere leaves no file.

## Main definitions

* `AuditRecord`: What is handed to a log.
* `AuditValue`: What a field holds.
* `AuditRecord.fields`, `AuditRecord.line`: The fields of a record and its line.
* `AuditRecord.fields?`: The fields that a line has.
* `AuditEvent.record`: An event with its time.
* `Disk.record`: Lines go to the end of a file.
* `AuditSink`: Where lines go.
-/

namespace Fieldwork

/-- What a field of a record holds. -/
inductive AuditValue where
  /-- A text. -/
  | text (value : String)
  /-- Texts in order. -/
  | texts (values : List String)
  /-- A number of things. -/
  | count (value : Nat)
  /-- A truth value. -/
  | flag (value : Bool)
  /-- Nothing. -/
  | absent
  deriving DecidableEq

namespace AuditValue

/-- A text, or nothing. -/
def ofOption (value : Option String) : AuditValue :=
  (value.map text).getD absent

/-- The body of the string that holds a text. -/
def spelled (value : String) : String :=
  String.ofList (Written.escape value.toList)

/-- How a field is written. -/
def tree : AuditValue → Written
  | text value => .string (spelled value)
  | texts values => .array (values.map fun value => .string (spelled value))
  | count value => .number (String.ofList (Nat.toDigits 10 value))
  | flag value => .bool value
  | absent => .null

/-- The text of a string. -/
def text? : Written → Option String
  | .string body => Written.unquote? body
  | _ => none

/-- What a field holds that is written in this way. -/
def ofTree? : Written → Option AuditValue
  | .null => some absent
  | .bool value => some (flag value)
  | .number spelling => (Numeral.natural? spelling.toList).map count
  | .string body => (Written.unquote? body).map text
  | .array items => (items.mapM text?).map texts
  | .object _ => none

end AuditValue

/-- What a record says beyond its name and time. -/
inductive RecordDetails where
  /-- A write to a document. -/
  | write (asset : AssetId) (keys : List String) (rows : UInt64) (outcome : String)
    (error : Option String)
  /-- The validation of a request. -/
  | query (asset : AssetId) (format : Format) (countOnly : Bool) (outcome : String)
    (field : Option String)
  /-- The run of a backfill. -/
  | backfill (skipped : Bool) (pages inserted : UInt64)
  deriving DecidableEq

/-- The fields of the details. -/
def RecordDetails.fields : RecordDetails → List (String × AuditValue)
  | write asset keys rows outcome error =>
    [("asset_uid", .text asset.name), ("keys", .texts keys), ("rows_affected", .count rows.toNat),
      ("outcome", .text outcome), ("error", .ofOption error)]
  | query asset format countOnly outcome field =>
    [("asset_uid", .text asset.name), ("format", .text format.label),
      ("count_only", .flag countOnly), ("outcome", .text outcome), ("field", .ofOption field)]
  | backfill skipped pages inserted =>
    [("skipped", .flag skipped), ("pages", .count pages.toNat),
      ("inserted", .count inserted.toNat)]

/-- What is handed to an audit log. -/
structure AuditRecord where
  /-- The name of the event. -/
  event : String
  /-- When it was, in milliseconds. -/
  time : Nat
  /-- What else there is to say. -/
  details : RecordDetails
  deriving DecidableEq

namespace AuditRecord

/-- The fields of a record. -/
def fields (record : AuditRecord) : List (String × AuditValue) :=
  ("event", .text record.event) :: ("timestamp_ms", .count record.time) :: record.details.fields

/-- How a record is written. -/
def tree (record : AuditRecord) : Written :=
  .object (record.fields.map fun field => (AuditValue.spelled field.1, field.2.tree))

/-- The line of a record, without its line break. -/
def line (record : AuditRecord) : String :=
  record.tree.text

/-- A field that is a member of an object. -/
def field? (member : String × Written) : Option (String × AuditValue) :=
  (Written.unquote? member.1).bind fun name =>
    (AuditValue.ofTree? member.2).map fun value => (name, value)

/-- The fields that a line has. -/
def fields? (line : String) : Option (List (String × AuditValue)) :=
  (Written.read? line.toList).bind fun tree =>
    match tree with
    | .object members => members.mapM field?
    | _ => none

end AuditRecord

/-- What an event says beyond its name and time, as it is handed over. -/
def AuditEvent.recordDetails : AuditEvent → RecordDetails
  | write event =>
    .write event.asset event.keys event.outcome.rows event.outcome.label event.outcome.error?
  | query event =>
    .query event.asset event.format event.countOnly event.outcome.label
      (event.outcome.parameter?.map Parameter.name)
  | backfill event => .backfill event.skipped event.pages event.inserted

/-- An event with its time. -/
def AuditEvent.record (event : AuditEvent) (time : UInt64) : AuditRecord :=
  ⟨event.name, time.toNat, event.recordDetails⟩

/-- The disk after records went to the end of a file, a line each. -/
def Disk.record (disk : Disk) (path : Path) (records : List AuditRecord) : Disk :=
  records.foldl (fun disk record => disk.append path (record.line ++ "\n")) disk

/-- Where the lines of a process go. -/
inductive AuditSink where
  /-- To the terminal. -/
  | terminal
  /-- To the end of a file. -/
  | file (path : Path)
  /-- Nowhere. -/
  | nowhere
  deriving DecidableEq

/-- The disk after records went to a sink. -/
def AuditSink.record (sink : AuditSink) (disk : Disk) (records : List AuditRecord) : Disk :=
  match sink with
  | file path => disk.record path records
  | terminal | nowhere => disk

end Fieldwork
