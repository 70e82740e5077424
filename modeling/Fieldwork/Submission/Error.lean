import Fieldwork.Extended.Error
import Fieldwork.Submission.Params

/-!
# Errors of Submission Requests

Why a request for submissions is refused.

A client error is blamed on one parameter and says what that parameter should
have been. Its wording never repeats what the client sent; only the detail of
an invalid JSON value says more, and it is kept apart. An authorization error
is no fault of the parameters: the principal could not be resolved.

## Main definitions

* `ClientError`: What is wrong with a parameter.
* `AuthorizationError`: The principal could not be resolved.
* `QueryError`: Either of the two.
-/

namespace Fieldwork

/-- What is wrong with a parameter. -/
inductive ClientError where
  /-- A count was asked for. -/
  | countNotSupported
  /-- An order was given for XML. -/
  | sortNotSupportedInText
  /-- Fields were chosen for XML. -/
  | fieldsNotSupportedInText
  /-- A value is no extended JSON. -/
  | invalidJson (parameter : Parameter) (error : ExtendedError)
  /-- The submissions are no list. -/
  | instanceIdsNotList
  /-- A submission is no number. -/
  | invalidInstanceId
  /-- A bound is no number, or a zero that makes no sense. -/
  | notAPositiveInteger (parameter : Parameter)
  /-- An order does not map fields to directions. -/
  | invalidSort
  /-- The fields are no list of names. -/
  | invalidFields
  deriving DecidableEq

namespace ClientError

/-- The parameter that is blamed. -/
def parameter : ClientError → Parameter
  | countNotSupported => .count
  | sortNotSupportedInText | invalidSort => .sort
  | fieldsNotSupportedInText | invalidFields => .fields
  | invalidJson parameter _ => parameter
  | instanceIdsNotList | invalidInstanceId => .instanceIds
  | notAPositiveInteger parameter => parameter

/-- What the parameter should have been. -/
def text : ClientError → String
  | countNotSupported =>
    "This param is not implemented. Use `count` property of the response instead."
  | sortNotSupportedInText => "This param is not supported in `XML` format"
  | fieldsNotSupportedInText => "This is not supported in `XML` format"
  | invalidJson _ _ => "Value must be valid JSON."
  | instanceIdsNotList => "Value must be a list."
  | invalidInstanceId => "Value must be a list of non-negative integers."
  | notAPositiveInteger _ => "A positive integer is required."
  | invalidSort => "Value must map field names to 1 or -1."
  | invalidFields => "Value must be a list of field names."

/-- The wording of an error. -/
def message (error : ClientError) : String :=
  error.parameter.name ++ ": " ++ error.text

/-- What is wrong with an invalid JSON value, which the wording leaves out. -/
def detail? : ClientError → Option String
  | invalidJson _ error => some error.message
  | _ => none

/-- The blamed parameter with what it should be, as clients are told. -/
def toFieldMap (error : ClientError) : Json :=
  .object [(error.parameter.name, .string error.text)]

end ClientError

/-- The principal of a request could not be resolved. -/
structure AuthorizationError where
  /-- Why. -/
  reason : String
  deriving DecidableEq

/-- The wording of an error. -/
def AuthorizationError.message (error : AuthorizationError) : String :=
  "invalid requesting principal: " ++ error.reason

/-- Why a request is refused. -/
inductive QueryError where
  /-- The client can mend the request. -/
  | client (error : ClientError)
  /-- The client cannot. -/
  | authorization (error : AuthorizationError)
  deriving DecidableEq

namespace QueryError

/-- The wording of an error. -/
def message : QueryError → String
  | client error => "invalid submission parameters: " ++ error.message
  | authorization error => error.message

/-- The parameter that is blamed, if one is. -/
def parameter? : QueryError → Option Parameter
  | client error => some error.parameter
  | authorization _ => none

end QueryError

end Fieldwork
