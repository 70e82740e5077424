import Fieldwork.Audit.Event
import Fieldwork.Json.Record

/-!
# Backfill Configuration

What a backfill is told beforehand, and what it reports afterwards.

A configuration is a closed record: it may leave fields out, and has no field
that is not known. A page without room is refused with the configuration, so
a run never meets one.

## Main definitions

* `BackfillConfig`: Whether to run, and the size of a page.
* `BackfillReport`: What a run has done.
-/

namespace Fieldwork

/-- How a backfill is to run. -/
structure BackfillConfig where
  /-- Whether it is left out. -/
  skip : Bool
  /-- How many principals a page has at most. -/
  pageSize : UInt32
  /-- A page has room for one. -/
  pageSize_ne : pageSize ≠ 0

namespace BackfillConfig

/-- How many principals a page has unless told otherwise. -/
def defaultPageSize : UInt32 := 10000

/-- What is used unless told otherwise. -/
def default : BackfillConfig :=
  ⟨false, defaultPageSize, by decide⟩

instance : Inhabited BackfillConfig := ⟨default⟩

/-- The configuration with a page size, if it has room for one. -/
def ofPageSize? (skip : Bool) (pageSize : UInt64) : Option BackfillConfig :=
  if pageSize.toNat < 0x100000000 then
    if h : pageSize.toUInt32 ≠ 0 then some ⟨skip, pageSize.toUInt32, h⟩ else none
  else none

/-- The names of the fields. -/
def fieldNames : List String := ["skip_heavy_migrations", "page_size"]

/-- The configuration that a record holds. -/
def ofWritten? (tree : Written) : Option BackfillConfig :=
  (tree.record? fieldNames true).bind fun fields =>
    let skip? :=
      match fields.lookup "skip_heavy_migrations" with
      | none => some false
      | some (.bool skip) => some skip
      | some _ => none
    let size? :=
      match fields.lookup "page_size" with
      | none => some defaultPageSize.toUInt64
      | some size => size.fieldValue?.bind Json.uint64?
    skip?.bind fun skip => size?.bind fun size => ofPageSize? skip size

/-- The configuration of a text. -/
def parse? (text : String) : Option BackfillConfig :=
  (Written.read? text.toList).bind ofWritten?

end BackfillConfig

/-- What a backfill has done. -/
structure BackfillReport where
  /-- Whether it was left out. -/
  skipped : Bool
  /-- The pages that had a key. -/
  pages : Nat
  /-- The details that were made. -/
  inserted : Nat
  deriving DecidableEq

namespace BackfillReport

/-- The report as the event of the audit log. -/
def event (report : BackfillReport) : BackfillEvent :=
  ⟨report.skipped, .ofNat report.pages, .ofNat report.inserted⟩

/-- A report as an object. -/
def toJson (report : BackfillReport) : Json :=
  .object [("skipped", .bool report.skipped), ("pages", .ofUInt64 (.ofNat report.pages)),
    ("inserted", .ofUInt64 (.ofNat report.inserted))]

end BackfillReport

end Fieldwork
