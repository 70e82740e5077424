import Fieldwork.Identifier
import Fieldwork.Json.Record

/-!
# Submission Parameters

What a client sends to ask for stored submissions.

There are seven parameters. A parameter may be absent, and that is not the
same as being sent as `null`; nothing here looks at a value beyond that. The
set is a map from parameters to what was sent, so a rule that holds of each
parameter is stated once.

The set comes in two ways: as a record in JSON, where a parameter may hold any
value and may not be named twice, and as pairs of strings such as a URL has,
where the last value of a name counts. A record that is a value already cannot
name a parameter twice, and it may nest deeper than a text.

## Main definitions

* `Parameter`: The seven parameters.
* `Params`: What was sent for each of them.
* `Params.ofPairs`, `Params.parse?`: The two ways in.
* `Params.ofJson?`: The parameters of a record that is a value already.
* `Params.toJson`: The record of what was sent.

## Theorems

* `ofName?_name`: A name gives its parameter.
* `value?_set`: What a parameter holds after one is set.
-/

namespace Fieldwork

/-- The parameters of a request for submissions. -/
inductive Parameter where
  /-- A count, which is never supported. -/
  | count
  /-- How many submissions to skip. -/
  | start
  /-- How many submissions to return at most. -/
  | limit
  /-- The order of submissions. -/
  | sort
  /-- The fields to return. -/
  | fields
  /-- The filter. -/
  | query
  /-- The submissions to choose from. -/
  | instanceIds
  deriving DecidableEq

namespace Parameter

/-- The name that a client uses. -/
def name : Parameter → String
  | count => "count"
  | start => "start"
  | limit => "limit"
  | sort => "sort"
  | fields => "fields"
  | query => "query"
  | instanceIds => "instance_ids"

/-- All parameters, in the order of the record. -/
def all : List Parameter :=
  [count, start, limit, sort, fields, query, instanceIds]

/-- The parameter of a name. -/
def ofName? (name : String) : Option Parameter :=
  all.find? fun parameter => parameter.name = name

/-- A name gives its parameter. -/
theorem ofName?_name (parameter : Parameter) : ofName? parameter.name = some parameter := by
  cases parameter <;> rfl

/-- Two parameters have two names. -/
theorem name_inj {parameter other : Parameter} (h : parameter.name = other.name) :
    parameter = other := by
  have hfound := congrArg ofName? h
  rw [ofName?_name, ofName?_name] at hfound
  exact Option.some.inj hfound

end Parameter

/-- What was sent for each parameter. -/
@[ext]
structure Params where
  /-- The value of a parameter, unless it is absent. -/
  value? : Parameter → Option Json

namespace Params

/-- Nothing was sent. -/
def empty : Params :=
  ⟨fun _ => none⟩

instance : Inhabited Params := ⟨empty⟩

/-- The set with one parameter sent, in place of what it had. -/
def set (params : Params) (parameter : Parameter) (value : Json) : Params :=
  ⟨fun other => if other = parameter then some value else params.value? other⟩

/-- What a parameter holds after one is set. -/
theorem value?_set (params : Params) (parameter other : Parameter) (value : Json) :
    (params.set parameter value).value? other =
      if other = parameter then some value else params.value? other := rfl

/-- Sends a string, unless the name is not known. -/
def setNamed (params : Params) (name value : String) : Params :=
  match Parameter.ofName? name with
  | some parameter => params.set parameter (.string value)
  | none => params

/-- The parameters of pairs of strings. Names that are not known are passed
    over, and the last value of a name counts. -/
def ofPairs (pairs : List (String × String)) : Params :=
  pairs.foldl (fun params pair => params.setNamed pair.1 pair.2) empty

/-- The set restricted to these submissions. -/
def withInstanceIds (params : Params) (ids : List SubmissionId) : Params :=
  params.set .instanceIds (.array (ids.map SubmissionId.toJson))

/-- The members of the record: the parameters that were sent, in order. -/
def members (params : Params) : List (String × Json) :=
  Parameter.all.filterMap fun parameter =>
    (params.value? parameter).map fun value => (parameter.name, value)

/-- The record of what was sent. -/
def toJson (params : Params) : Json :=
  .object params.members

/-- The parameters of an object of values. -/
def ofMembers (members : List (String × Json)) : Params :=
  ⟨fun parameter => members.lookup parameter.name⟩

/-- The parameters of a record as a value, which may also be an array of the
    first parameters. -/
def ofJson? : Json → Option Params
  | .object members => some (ofMembers members)
  | .array items =>
    if items.length ≤ Parameter.all.length then
      some (ofMembers ((Parameter.all.map Parameter.name).zip items))
    else none
  | _ => none

/-- The values of the fields of a record. -/
def fieldValues? : List (String × Written) → Option (List (String × Json))
  | [] => some []
  | (name, tree) :: rest => do
    let value ← tree.fieldValue?
    let values ← fieldValues? rest
    some ((name, value) :: values)

/-- The parameters of a record as written. -/
def ofWritten? (tree : Written) : Option Params := do
  let fields ← tree.record? (Parameter.all.map Parameter.name) false
  let values ← fieldValues? fields
  some (ofMembers values)

/-- The parameters of a JSON text. -/
def parse? (text : String) : Option Params :=
  (Written.read? text.toList).bind ofWritten?

end Params

end Fieldwork
