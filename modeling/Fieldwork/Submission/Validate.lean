import Fieldwork.Submission.Error
import Fieldwork.Submission.Query
import Fieldwork.Text.Blank

/-!
# Validating Submission Requests

From untrusted parameters to a query.

The checks have an order, and the first that fails is the answer. A count is
refused first, then, for a list in XML, an order and a choice of fields. Then
come the filter and the submissions to choose from, which every query needs.
Only a request that is sound so far makes the provider resolve the principal;
it is asked once. What only a list needs is looked at last, and a count never
looks at it.

The provider acts in a monad of its own, so that a caller can give it a state,
and a proof can watch when it is asked.

## Main definitions

* `Request`: Who asks for what, and how.
* `coerce?`: The number that a parameter stands for.
* `filterOf`, `instanceIdsOf`, `sortOf`, `startOf`, `limitOf`, `fieldsOf`: The
  check of each parameter.
* `Request.validate`: All checks in order.

## Theorems

* `validate_of_screen_error`: A refusal before the provider asks nothing of it.
-/

namespace Fieldwork

/-- Whether submissions are counted or listed. -/
inductive Mode where
  /-- They are counted. -/
  | count
  /-- They are listed. -/
  | list
  deriving DecidableEq

/-- Who asks for what, and how. -/
structure Request where
  /-- The asset whose submissions are asked for. -/
  asset : AssetId
  /-- Whoever asks. -/
  principal : PrincipalId
  /-- How submissions are to be returned. -/
  format : Format
  /-- Whether they are counted or listed. -/
  mode : Mode
  /-- What was sent. -/
  params : Params

/-- Resolves a principal to the constraint that its permissions put on queries
    for an asset. -/
abbrev PermissionProvider (m : Type → Type) :=
  AssetId → PrincipalId → m (Except AuthorizationError Json)

namespace Submission

/-- The number that an integer or a numeral with blanks around stands for. -/
def coerce? : Json → Option UInt64
  | .number value => value.uint64?
  | .string text =>
    -- A word of 128 bits has room for every number and for the sign of one.
    (Numeral.int128? (Text.trim text.toList)).bind Checked.toUInt64?
  | _ => none

/-- A value that may also be sent as its JSON text. -/
def extendedOf (parameter : Parameter) (value : Json) : Except ClientError Extended :=
  let decoded := match value with
    | .string text => Extended.parse text
    | value => Extended.decode value
  decoded.mapError (.invalidJson parameter)

/-- The filter, which lets everything through if it is absent or `null`. -/
def filterOf : Option Json → Except ClientError Extended
  | none | some .null => .ok .empty
  | some value => extendedOf .query value

/-- The numbers of a list, all of which have to be numbers. -/
def instanceIdsOfItems : List Json → Except ClientError (List SubmissionId)
  | [] => .ok []
  | item :: rest =>
    match coerce? item with
    | none => .error .invalidInstanceId
    | some n => (instanceIdsOfItems rest).map (⟨n⟩ :: ·)

/-- The submissions to choose from. Sent as `null` they are no list. -/
def instanceIdsOf : Option Json → Except ClientError (List SubmissionId)
  | none => .ok []
  | some (.array items) => instanceIdsOfItems items
  | some _ => .error .instanceIdsNotList

/-- A text with its ASCII capitals made small. -/
def lowerCase (text : String) : String :=
  String.ofList (text.toList.map Char.toLower)

/-- The direction that a number or a word stands for. -/
def direction? (value : Extended) : Option Direction :=
  match value.int64? with
  | some n => if n = 1 then some .ascending else if n = -1 then some .descending else none
  | none =>
    match value.string?.map lowerCase with
    | some word =>
      if word = "asc" ∨ word = "ascending" then some .ascending
      else if word = "desc" ∨ word = "descending" then some .descending
      else none
    | none => none

/-- The keys of an order, all of which have to have a direction. -/
def sortOfMembers : List (String × Extended) → Except ClientError (List SortKey)
  | [] => .ok []
  | (field, value) :: rest =>
    match direction? value with
    | none => .error .invalidSort
    | some direction => (sortOfMembers rest).map (⟨field, direction⟩ :: ·)

/-- The order, which is none if it is absent or `null`. -/
def sortOf : Option Json → Except ClientError (List SortKey)
  | none | some .null => .ok []
  | some value => do
    match (← extendedOf .sort value).object? with
    | some members => sortOfMembers members
    | none => .error .invalidSort

/-- How many to skip, none if that is absent. -/
def startOf : Option Json → Except ClientError UInt64
  | none => .ok 0
  | some value =>
    match coerce? value with
    | some n => .ok n
    | none => .error (.notAPositiveInteger .start)

/-- How many to return at most, without bound if that is absent or `null`. -/
def limitOf : Option Json → Except ClientError (Option PageLimit)
  | none | some .null => .ok none
  | some value =>
    match (coerce? value).bind PageLimit.ofCount? with
    | some limit => .ok (some limit)
    | none => .error (.notAPositiveInteger .limit)

/-- The names of a list, all of which have to be texts. -/
def fieldsOfItems : List Extended → Except ClientError (List String)
  | [] => .ok []
  | item :: rest =>
    match item.string? with
    | none => .error .invalidFields
    | some name => (fieldsOfItems rest).map (name :: ·)

/-- The fields to return, all if that is absent or `null`. -/
def fieldsOf : Option Json → Except ClientError (List String)
  | none | some .null => .ok []
  | some value => do
    match (← extendedOf .fields value).array? with
    | some items => fieldsOfItems items
    | none => .error .invalidFields

end Submission

namespace Request

open Submission

/-- A count is never supported, and XML has neither order nor choice of
    fields. -/
def screenSupport (r : Request) : Except ClientError Unit :=
  if (r.params.value? .count).isSome then .error .countNotSupported
  -- A count has no form, so it may carry both and they are never looked at.
  else if r.mode = .list ∧ r.format = .text then
    if (r.params.value? .sort).isSome then .error .sortNotSupportedInText
    else if (r.params.value? .fields).isSome then .error .fieldsNotSupportedInText
    else .ok ()
  else .ok ()

/-- The checks before the provider is asked. They give the filter and the
    submissions to choose from. -/
def screen (r : Request) : Except ClientError (Extended × List SubmissionId) := do
  r.screenSupport
  let filter ← filterOf (r.params.value? .query)
  let instanceIds ← instanceIdsOf (r.params.value? .instanceIds)
  .ok (filter, instanceIds)

/-- The checks of what only a list needs. -/
def listing (r : Request) : Except ClientError Listing := do
  let sort ← sortOf (r.params.value? .sort)
  let start ← startOf (r.params.value? .start)
  let limit ← limitOf (r.params.value? .limit)
  let fields ← fieldsOf (r.params.value? .fields)
  .ok ⟨start, limit, sort, fields⟩

/-- The query of a request whose scope is known. -/
def complete (r : Request) (scope : Scope) : Except ClientError Query :=
  match r.mode with
  | .count => .ok (.count scope)
  | .list => r.listing.map (.list scope)

/-- All checks in order, with the provider asked between them. -/
def validate {m : Type → Type} [Monad m] (provider : PermissionProvider m) (r : Request) :
    m (Except QueryError Query) :=
  match r.screen with
  | .error e => pure (.error (.client e))
  | .ok (filter, instanceIds) => do
    -- Asking may cost something and may be logged, so it comes after every check
    -- that could spare it.
    match ← provider r.asset r.principal with
    | .error e => pure (.error (.authorization e))
    | .ok permission =>
      pure ((r.complete ⟨filter, instanceIds, permission⟩).mapError .client)

/-- A refusal before the provider asks nothing of it. -/
theorem validate_of_screen_error {m : Type → Type} [Monad m] (provider : PermissionProvider m)
    {r : Request} {e : ClientError} (h : r.screen = .error e) :
    r.validate provider = pure (.error (.client e)) := by
  simp [validate, h]

end Request

end Fieldwork
