import Fieldwork.Json.Basic

/-!
# Identifiers

The names of assets, principals and submissions.

Each is a type of its own, so that a name of one kind is never taken for one
of another. Assets and principals have texts for names, which nothing here
looks into; a principal's name may also be malformed, which only whoever
resolves it can tell. Submissions are numbered.

## Main definitions

* `AssetId`: The form that a deployment belongs to.
* `PrincipalId`: Whoever makes a request.
* `SubmissionId`: The number of a stored submission.
-/

namespace Fieldwork

/-- The form that a deployment belongs to. -/
@[ext]
structure AssetId where
  /-- The name. -/
  name : String
  deriving DecidableEq, Inhabited

/-- Whoever makes a request. -/
@[ext]
structure PrincipalId where
  /-- The name. -/
  name : String
  deriving DecidableEq, Inhabited

/-- The number of a stored submission. -/
@[ext]
structure SubmissionId where
  /-- The number. -/
  number : UInt64
  deriving DecidableEq, Inhabited

namespace AssetId

/-- An asset is written as its name. -/
def toJson (asset : AssetId) : Json :=
  .string asset.name

/-- The asset that a string names. -/
def ofJson? (value : Json) : Option AssetId :=
  value.string?.map AssetId.mk

end AssetId

namespace PrincipalId

/-- A principal is written as its name. -/
def toJson (principal : PrincipalId) : Json :=
  .string principal.name

/-- The principal whose name is a number. -/
def ofNumber (n : UInt64) : PrincipalId :=
  ⟨toString n.toNat⟩

end PrincipalId

namespace SubmissionId

/-- A submission is written as its number. -/
def toJson (submission : SubmissionId) : Json :=
  .ofUInt64 submission.number

/-- The submission that an unsigned word numbers. -/
def ofJson? (value : Json) : Option SubmissionId :=
  value.uint64?.map SubmissionId.mk

end SubmissionId

end Fieldwork
