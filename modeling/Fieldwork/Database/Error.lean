import Fieldwork.Message
import Fieldwork.Store.Basic

/-!
# Database Errors

Why an operation on a database fails.

A database answers two kinds of caller. Whoever maintains it sees its own
errors. Whoever only wants rows sees the errors that all row stores share, and
for them a wrong version is a failure of the engine like any other.

## Main definitions

* `DatabaseError`: Why an operation fails.
* `DatabaseError.toStoreError`: The same failure, as a row store words it.
-/

namespace Fieldwork

/-- Why an operation on a database fails, with what is said about it. -/
inductive DatabaseError where
  /-- Reading or writing the file failed. -/
  | file (reason : String)
  /-- The engine refused a statement. -/
  | engine (reason : String)
  /-- What is stored cannot be decoded. -/
  | corrupt (reason : String)
  /-- The tables have a version that is not known. -/
  | version (reason : String)
  /-- What was asked for is not allowed. -/
  | invalid (reason : String)
  deriving DecidableEq

namespace DatabaseError

/-- The wording of an error. -/
def message : DatabaseError → String
  | file reason => "sqlite store io error: " ++ reason
  | engine reason => "sqlite store db error: " ++ reason
  | corrupt reason => "sqlite store corruption: " ++ reason
  | version reason => "sqlite store version mismatch: " ++ reason
  | invalid reason => "sqlite store invalid data: " ++ reason

/-- The error as a row store words it. -/
def toStoreError : DatabaseError → StoreError
  | file reason => .file reason
  | engine reason | version reason => .engine reason
  | corrupt reason => .corrupt reason
  | invalid reason => .invalid reason

/-- What the engine says about a text that should be JSON and is not. -/
def malformedJson : DatabaseError :=
  engine "malformed JSON"

/-- The engine refuses a text or a row that is too large for it. -/
def tooBig : DatabaseError :=
  engine elided

/-- The engine refuses a statement on a table that is not there. -/
def missingTable : DatabaseError :=
  engine elided

end DatabaseError

end Fieldwork
