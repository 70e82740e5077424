import Fieldwork.Extended.Encode
import Fieldwork.Identifier

/-!
# Submission Queries

What a backend is asked once a request is found valid.

Every query has a scope: the filter, the submissions to choose from and the
constraint that the permissions of the principal put on it. A count has
nothing else. A list adds where to start, how many to return, in which order
and which fields; these do not exist for a count, so no count can depend on
them.

## Main definitions

* `Format`: How submissions are returned.
* `Scope`: Which submissions are meant.
* `Listing`: What a list of them looks like.
* `Query`: A count or a list.
* `Query.toJson`: A query as JSON.
-/

namespace Fieldwork

/-- How submissions are returned. -/
inductive Format where
  /-- As records of JSON. -/
  | structured
  /-- As texts of XML. -/
  | text
  deriving DecidableEq

namespace Format

instance : Inhabited Format := ⟨structured⟩

/-- The word for a format. -/
def label : Format → String
  | structured => "json"
  | text => "xml"

/-- The format that a word stands for. -/
def ofLabel? (label : String) : Option Format :=
  [structured, text].find? fun format => format.label = label

/-- The word for a format stands for it. -/
theorem ofLabel?_label (format : Format) : ofLabel? format.label = some format := by
  cases format <;> rfl

end Format

/-- The field that holds the number of a submission. -/
def SubmissionId.fieldName : String := "_id"

/-- The direction of an order. -/
inductive Direction where
  /-- From the least on. -/
  | ascending
  /-- From the greatest on. -/
  | descending
  deriving DecidableEq

/-- The number for a direction. -/
def Direction.number : Direction → Int64
  | ascending => 1
  | descending => -1

/-- One field of an order. -/
structure SortKey where
  /-- The field. -/
  field : String
  /-- The direction. -/
  direction : Direction
  deriving DecidableEq

/-- A bound on how many submissions are returned. -/
@[ext]
structure PageLimit where
  /-- The bound. -/
  count : UInt64
  /-- It lets at least one through. -/
  count_ne_zero : count ≠ 0
  deriving DecidableEq

/-- The bound of a number other than zero. -/
def PageLimit.ofCount? (count : UInt64) : Option PageLimit :=
  if h : count ≠ 0 then some ⟨count, h⟩ else none

/-- Which submissions are meant. -/
@[ext]
structure Scope where
  /-- The filter. -/
  filter : Extended
  /-- The submissions to choose from, all if there are none. -/
  instanceIds : List SubmissionId
  /-- The constraint that permissions put on the query. -/
  permission : Json

/-- What a list of submissions looks like. -/
@[ext]
structure Listing where
  /-- How many to skip. -/
  start : UInt64
  /-- How many to return at most. -/
  limit : Option PageLimit
  /-- The order, first key first. -/
  sort : List SortKey
  /-- The fields to return, all if there are none. -/
  fields : List String
  deriving DecidableEq

/-- A count or a list of submissions. -/
inductive Query where
  /-- How many there are. -/
  | count (scope : Scope)
  /-- Which there are. -/
  | list (scope : Scope) (listing : Listing)

/-- The constraint of a principal who may see everything. -/
def Scope.unconstrained : Json :=
  .object []

namespace Query

/-- Which submissions are meant. -/
def scope : Query → Scope
  | count scope => scope
  | list scope _ => scope

/-- What a list looks like. -/
def listing? : Query → Option Listing
  | count _ => none
  | list _ listing => some listing

/-- Whether the query is a count. -/
def isCount : Query → Bool
  | count _ => true
  | list _ _ => false

/-- An order as an object of directions. -/
def sortJson (sort : List SortKey) : Json :=
  .object (sort.map fun key => (key.field, .ofInt64 key.direction.number))

/-- The submissions to choose from, as an array of numbers. -/
def instanceIdsJson (scope : Scope) : Json :=
  .array (scope.instanceIds.map SubmissionId.toJson)

/-- A query as JSON. Only a list has the members of a list, and a list without
    bound has no limit. -/
def toJson : Query → Json
  | count scope =>
    .object [("query", scope.filter.toJson), ("instance_ids", instanceIdsJson scope),
      ("permission_filters", scope.permission)]
  | list scope listing =>
    .object (("query", scope.filter.toJson) :: ("start", .ofUInt64 listing.start) ::
      (listing.limit.map fun limit => ("limit", Json.ofUInt64 limit.count)).toList ++
      [("sort", sortJson listing.sort), ("fields", .array (listing.fields.map Json.string)),
        ("instance_ids", instanceIdsJson scope), ("permission_filters", scope.permission)])

end Query

end Fieldwork
