import Fieldwork.Document.Dotted
import Fieldwork.Json.Text

/-!
# Deployment Documents

The document of one asset: values under top-level keys.

A document is changed only by merging updates into it or by clearing it. A
merge replaces whole values; it never looks inside of one, so what an update
sends under a key is exactly what a later read finds there. Reads go deeper
than writes: a dotted path walks through nested objects.

Updates are documents themselves, and documents have different keys, so there
is one type for both.

## Main definitions

* `Document`: Values under different keys, in order.
* `Document.merge`, `Document.clear`: The two changes.
* `Document.lookup`, `Document.get`: The value at a path, and the value at a
  path unless it counts as absent.
* `Status`: Whether a backend agrees with its asset.

## Theorems

* `get_eq_default_or_lookup`: A read gives what is there or the default.
-/

namespace Fieldwork

/-- Values under different keys, in the order in which the keys first came. -/
@[ext]
structure Document where
  /-- The keys and values. -/
  fields : List (String × Json)
  /-- No key occurs twice. -/
  distinct : Ordered.Distinct fields
  deriving DecidableEq

namespace Document

/-- The document without keys. -/
def empty : Document :=
  ⟨[], List.nodup_nil⟩

instance : Inhabited Document := ⟨empty⟩

/-- The document of a list of keys and values; a key keeps its first place and
    has its last value. -/
def ofList (fields : List (String × Json)) : Document :=
  ⟨Ordered.ofList fields, Ordered.distinct_ofList fields⟩

/-- The document that an object holds. -/
def ofJson? : Json → Option Document
  | .object members => some (ofList members)
  | _ => none

/-- The document that a value holds, empty unless it is an object. -/
def ofJson (value : Json) : Document :=
  (ofJson? value).getD empty

/-- A document as an object. -/
def toJson (document : Document) : Json :=
  .object document.fields

/-- The document of a text. -/
def parse? (text : String) : Option Document :=
  (Json.parse? text).bind ofJson?

/-- The keys in order. -/
def keys (document : Document) : List String :=
  Ordered.keys document.fields

/-- Whether there is no key. -/
def isEmpty (document : Document) : Bool :=
  document.fields.isEmpty

/-- Puts each value of `updates` under its key. -/
def merge (document updates : Document) : Document :=
  ⟨Ordered.merge document.fields updates.fields, Ordered.distinct_merge document.distinct⟩

/-- Takes out every key. -/
def clear (_ : Document) : Document :=
  empty

/-- The value at a dotted path. -/
def lookup (document : Document) (path : String) : Option Json :=
  Dotted.walk document.toJson (Dotted.keys path)

/-- The value at a dotted path, or the default if nothing is there or what is
    there counts as absent. Without a path, or with the empty one, the whole
    document is read as it is. -/
def get (document : Document) (path : Option String) (default : Json) : Json :=
  match path with
  | none => document.toJson
  | some path =>
    if path.isEmpty then document.toJson
    else match document.lookup path with
      -- A walk may end at a value that counts as absent; it is not walked past.
      | some value => if value.isFalsy then default else value
      | none => default

/-- The document with one value under a key. -/
def single (key : String) (value : Json) : Document :=
  ⟨[(key, value)], by simp [Ordered.Distinct, Ordered.keys]⟩

/-- A read at a path gives the value that is there, which is then not falsy,
    or the default. -/
theorem get_eq_default_or_lookup (document : Document) {path : String} (default : Json)
    (h : path.isEmpty = false) :
    document.get (some path) default = default ∨
      ∃ value, document.lookup path = some value ∧ value.isFalsy = false ∧
        document.get (some path) default = value := by
  simp only [get, h]
  cases hl : document.lookup path with
  | none => simp
  | some value =>
    cases hf : value.isFalsy
    · exact Or.inr ⟨value, rfl, hf, by simp [hf]⟩
    · simp [hf]

end Document

/-- Whether a backend agrees with its asset. -/
inductive Status where
  /-- The backend has what the asset has. -/
  | synced
  /-- The backend is behind the asset. -/
  | notSynced
  deriving DecidableEq

namespace Status

/-- The word for a status. -/
def label : Status → String
  | synced => "synced"
  | notSynced => "not-synced"

/-- The status that a word stands for. -/
def ofLabel? (label : String) : Option Status :=
  [synced, notSynced].find? fun status => status.label = label

end Status

namespace Document

/-- The key of the backend's label. -/
def backendKey : String := "backend"

/-- The key of the name that the backend gave the deployment. -/
def identifierKey : String := "identifier"

/-- The key of the flag that submissions are taken. -/
def activeKey : String := "active"

/-- The key of the version that is deployed. -/
def versionKey : String := "version"

/-- The key of the status. -/
def statusKey : String := "status"

end Document

end Fieldwork
