import Fieldwork.Database.Basic

/-!
# Roster

The principals that a database knows.

A principal is registered once, however often it is asked for. Its detail is a
text that only has to be JSON; one that is not is found out when it is read.

## Main definitions

* `Database.register`: Registers a principal.
* `Database.detail`: The detail of a principal.
-/

namespace Fieldwork

namespace Database

/-- The tables of principals, which a statement needs. -/
def principalTables (db : Database) : Except DatabaseError PrincipalTables :=
  match db.principals with
  | none => .error .missingTable
  | some tables => .ok tables

/-- Registers a principal. -/
def register (principal : PrincipalId) (db : Database) : Except DatabaseError Database :=
  db.principalTables.map fun tables =>
    { db with principals := some (tables.register principal) }

/-- The detail of a principal. -/
def detail (principal : PrincipalId) (db : Database) : Except DatabaseError (Option Json) :=
  match db.principalTables with
  | .error error => .error error
  | .ok tables =>
    match tables.detail? principal with
    | none => .ok none
    | some text =>
      match Json.parse? text with
      | none => .error (.corrupt ("principal detail decode failed: " ++ elided))
      | some value => .ok (some value)

end Database

end Fieldwork
