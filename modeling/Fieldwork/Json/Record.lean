import Fieldwork.Json.Text

/-!
# Records in JSON

Objects with a known set of fields.

A record is written as an object, whose fields may come in any order, or as an
array of its first fields in their order. It is read from the text as written,
because a value no longer shows whether a field was named twice, which is an
error. A field that is not known is refused by a closed record and passed over
by an open one. What is passed over has to be JSON, but it may hold numbers
and nesting that a value could not.

## Main definitions

* `Written.record?`: The fields that are there, as written.
* `Written.fieldValue?`: The value of a field of a record.
* `Written.case?`: The name of a case of an enumeration.
-/

namespace Fieldwork

namespace Written

/-- The fields of an object. -/
def recordMembers? (names : List String) (closed : Bool) (done : List (String × Written)) :
    List (String × Written) → Option (List (String × Written))
  | [] => some done
  | (key, tree) :: rest =>
    (unquote? key).bind fun key =>
      if names.contains key then
        if (done.lookup key).isSome then none
        else recordMembers? names closed (done ++ [(key, tree)]) rest
      else if closed then none
      else recordMembers? names closed done rest

/-- The fields of a record, as written. -/
def record? (names : List String) (closed : Bool) : Written → Option (List (String × Written))
  | object members => recordMembers? names closed [] members
  | array items => if items.length ≤ names.length then some (names.zip items) else none
  | _ => none

/-- The value of a field of a record. The record itself is one level of
    nesting. -/
def fieldValue? (tree : Written) : Option Json :=
  tree.json? (Json.depthLimit - 1)

/-- The name of a case of an enumeration: a string, or an object with the name
    as its only key and `null` under it. -/
def case? : Written → Option String
  | string body => unquote? body
  | object [(key, null)] => unquote? key
  | _ => none

end Written

end Fieldwork
