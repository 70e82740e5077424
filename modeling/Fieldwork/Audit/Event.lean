import Fieldwork.Identifier
import Fieldwork.Store.Basic
import Fieldwork.Submission.Error
import Fieldwork.Submission.Query

/-!
# Audit Events

What is worth writing down about a run.

There are three kinds of event: a write to a document, the validation of a
request, and the run of a backfill. An event names what was touched and how it
ended. It never holds a value that was written or a parameter that was sent,
so a log can be read by people who may not read the data.

## Main definitions

* `WriteEvent`, `QueryEvent`, `BackfillEvent`: The three kinds.
* `AuditEvent`: Any of them.
* `AuditEvent.toJson`: An event as an object.
-/

namespace Fieldwork

/-- The two writes to a document. -/
inductive WriteKind where
  /-- Updates were merged. -/
  | merge
  /-- The document was cleared. -/
  | clear
  deriving DecidableEq

/-- How a write ended. -/
inductive WriteOutcome where
  /-- A row was written. -/
  | applied (rows : UInt64)
  /-- There was no row. -/
  | missing
  /-- The store failed. -/
  | failed (error : StoreError)
  deriving DecidableEq

namespace WriteOutcome

/-- How a write ended, by what the store gave back. -/
def ofResult : Except StoreError Receipt → WriteOutcome
  | .ok receipt => if receipt.applied then applied receipt.rows else missing
  | .error error => failed error

/-- The word for an outcome. -/
def label : WriteOutcome → String
  | applied _ => "applied"
  | missing => "missing"
  | failed _ => "failed"

/-- The rows that were written. -/
def rows : WriteOutcome → UInt64
  | applied rows => rows
  | missing | failed _ => 0

/-- What the store said about its failure. -/
def error? : WriteOutcome → Option String
  | failed error => some error.message
  | applied _ | missing => none

end WriteOutcome

/-- A write to a document. -/
structure WriteEvent where
  /-- Which write. -/
  kind : WriteKind
  /-- The asset that the document belongs to. -/
  asset : AssetId
  /-- The top-level keys that were touched. -/
  keys : List String
  /-- How it ended. -/
  outcome : WriteOutcome
  deriving DecidableEq

/-- How a validation ended. -/
inductive QueryOutcome where
  /-- A query came of it. -/
  | accepted
  /-- A parameter was refused. -/
  | rejected (parameter : Parameter)
  /-- The principal could not be resolved. -/
  | fault
  deriving DecidableEq

namespace QueryOutcome

/-- How a validation ended, by its result. -/
def ofResult : Except QueryError Query → QueryOutcome
  | .ok _ => accepted
  | .error (.client error) => rejected error.parameter
  | .error (.authorization _) => fault

/-- The word for an outcome. -/
def label : QueryOutcome → String
  | accepted => "accepted"
  | rejected _ => "rejected"
  | fault => "fault"

/-- The parameter that was refused. -/
def parameter? : QueryOutcome → Option Parameter
  | rejected parameter => some parameter
  | accepted | fault => none

end QueryOutcome

/-- The validation of a request. -/
structure QueryEvent where
  /-- The asset whose submissions were asked for. -/
  asset : AssetId
  /-- How they were to be returned. -/
  format : Format
  /-- Whether they were to be counted. -/
  countOnly : Bool
  /-- How it ended. -/
  outcome : QueryOutcome
  deriving DecidableEq

/-- The run of a backfill. -/
structure BackfillEvent where
  /-- Whether it was skipped. -/
  skipped : Bool
  /-- The pages that it went through. -/
  pages : UInt64
  /-- The rows that it inserted. -/
  inserted : UInt64
  deriving DecidableEq

/-- An event, without the time at which it is recorded. -/
inductive AuditEvent where
  /-- A write to a document. -/
  | write (event : WriteEvent)
  /-- The validation of a request. -/
  | query (event : QueryEvent)
  /-- The run of a backfill. -/
  | backfill (event : BackfillEvent)
  deriving DecidableEq

namespace AuditEvent

/-- The name of an event. -/
def name : AuditEvent → String
  | write event =>
    match event.kind with
    | .merge => "deployment_merge"
    | .clear => "deployment_clear"
  | query _ => "submission_query"
  | backfill _ => "principal_detail_backfill"

/-- A text, or `null`. -/
def optionalString (text : Option String) : Json :=
  (text.map Json.string).getD .null

/-- What an event says beyond its name and time. -/
def details : AuditEvent → List (String × Json)
  | write event =>
    [("asset_uid", event.asset.toJson), ("keys", .array (event.keys.map Json.string)),
      ("rows_affected", .ofUInt64 event.outcome.rows), ("outcome", .string event.outcome.label),
      ("error", optionalString event.outcome.error?)]
  | query event =>
    [("asset_uid", event.asset.toJson), ("format", .string event.format.label),
      ("count_only", .bool event.countOnly), ("outcome", .string event.outcome.label),
      ("field", optionalString (event.outcome.parameter?.map Parameter.name))]
  | backfill event =>
    [("skipped", .bool event.skipped), ("pages", .ofUInt64 event.pages),
      ("inserted", .ofUInt64 event.inserted)]

/-- An event that was recorded at a time, as an object. -/
def toJson (event : AuditEvent) (time : UInt64) : Json :=
  .object (("event", .string event.name) :: ("timestamp_ms", .ofUInt64 time) :: event.details)

end AuditEvent

end Fieldwork
