import Fieldwork.Backend.Basic

/-!
# Record Lists

The plainest backend: a list of records in memory.

A record is a JSON value whose id is the unsigned number under `_id`. A
request is validated first. Then the records are taken in their order: those
whose ids are asked for, or all when no id is, without as many as are to be
skipped, and no more than are allowed.

## Main definitions

* `RecordList`: The records of an asset.
* `RecordList.select`: The records that a query asks for.
* `RecordList.list`: The answer to a request.
-/

namespace Fieldwork

/-- The records of an asset. -/
abbrev RecordList := List Json

namespace RecordList

/-- The member that holds the id of a record. -/
def idKey : String := "_id"

/-- The id of a record, zero if it has none. -/
def idOf (record : Json) : UInt64 :=
  ((record.member? idKey).bind Json.uint64?).getD 0

/-- Whether a query asks for a record. -/
def isWanted (scope : Scope) (record : Json) : Bool :=
  scope.instanceIds.isEmpty || scope.instanceIds.any fun id => id.number == idOf record

/-- The records that a query asks for. -/
def select (query : Query) (records : RecordList) : RecordList :=
  let wanted := records.filter (isWanted query.scope)
  match query.listing? with
  | none => wanted
  | some listing =>
    let rest := wanted.drop listing.start.toNat
    match listing.limit with
    | none => rest
    | some limit => rest.take limit.count.toNat

/-- A record as a text. -/
def instanceText (record : Json) : String :=
  "<instance id=\"" ++ toString (idOf record).toNat ++ "\"/>"

/-- A record as it is returned in a format. -/
def render (format : Format) (record : Json) : SubmissionRecord :=
  match format with
  | .structured => .structured record
  | .text => .text (instanceText record)

/-- The answer to a request. -/
def list {σ : Type} (permissions : PermissionProvider (StateM σ)) (records : RecordList)
    (r : Request) (state : σ) : Answer σ (Except BackendError (List SubmissionRecord)) :=
  let validated := Request.audited permissions { r with mode := .list } state
  match validated.result with
  | .error error => { validated with result := .error (.query error) }
  | .ok query => { validated with result := .ok ((select query records).map (render r.format)) }

/-- How many records a query asks for. -/
def count (query : Query) (records : RecordList) : UInt64 :=
  .ofNat (records.filter (isWanted query.scope)).length

end RecordList

end Fieldwork
