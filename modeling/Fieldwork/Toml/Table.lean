import Fieldwork.Toml.Basic

/-!
# TOML Tables

How the tables of a file come together.

A file writes its tables in pieces: under headers, through dotted keys, as
elements of a list of tables, and inline. Which of them may still be added to
depends on how they came about. A table that only stands above a header may
get its own header later; one that has had its header may not get another;
one that came about through dotted keys grows through dotted keys; a table or
array that was written as a value is complete.

A header leads through the last element of a list of tables.

## Main definitions

* `TableNode`: A value under a key, with how it came about.
* `TableNode.openTable`, `TableNode.openElement`: A header and the header of an
  element.
* `TableNode.assign`: A key with its value.
* `TableNode.complete`: The finished table.
-/

namespace Fieldwork

namespace Toml

/-- How a table came about. -/
inductive TableKind where
  /-- It stands above a header. -/
  | implied
  /-- It has had its header. -/
  | headed
  /-- It stands above the last of some dotted keys. -/
  | dotted
  deriving DecidableEq

/-- What is under a key while the file is read. -/
inductive TableNode where
  /-- A complete value. -/
  | leaf (value : Toml)
  /-- A table that may still grow. -/
  | table (kind : TableKind) (entries : List (String × TableNode))
  /-- The elements of a list of tables, the last first. -/
  | elements (tables : List (List (String × TableNode)))
  deriving Inhabited

/-- The entries of a table that may still grow. -/
abbrev Entries := List (String × TableNode)

namespace TableNode

/-- Changes the table that the keys of a header lead to. -/
def descend (change : Entries → Option Entries) : List String → Entries → Option Entries
  | [], entries => change entries
  | key :: rest, entries =>
    match entries.lookup key with
    | none =>
      (descend change rest []).map fun inner => Ordered.insert key (table .implied inner) entries
    | some (table kind inner) =>
      (descend change rest inner).map fun inner => Ordered.insert key (table kind inner) entries
    | some (elements (last :: others)) =>
      (descend change rest last).map fun last =>
        Ordered.insert key (elements (last :: others)) entries
    | some (elements []) | some (leaf _) => none

/-- Gives a table its header. -/
def openTable (key : String) (entries : Entries) : Option Entries :=
  match entries.lookup key with
  | none => some (Ordered.insert key (table .headed []) entries)
  | some (table .implied inner) => some (Ordered.insert key (table .headed inner) entries)
  | some _ => none

/-- Gives a list of tables one more element. -/
def openElement (key : String) (entries : Entries) : Option Entries :=
  match entries.lookup key with
  | none => some (Ordered.insert key (elements [[]]) entries)
  | some (elements tables) => some (Ordered.insert key (elements ([] :: tables)) entries)
  | some _ => none

/-- Puts a value under dotted keys, none of which may lead to a table that
    came about in another way. -/
def assign (value : Toml) : List String → Entries → Option Entries
  | [], _ => none
  | [key], entries =>
    match entries.lookup key with
    | none => some (Ordered.insert key (leaf value) entries)
    | some _ => none
  | key :: rest, entries =>
    match entries.lookup key with
    | none =>
      (assign value rest []).map fun inner => Ordered.insert key (table .dotted inner) entries
    | some (table .dotted inner) =>
      (assign value rest inner).map fun inner => Ordered.insert key (table .dotted inner) entries
    | some _ => none

mutual

/-- The value under a key once the file is read. -/
def complete : TableNode → Toml
  | leaf value => value
  | table _ entries => .table (completeEntries entries)
  | elements tables => .array (completeElements tables).reverse

/-- The finished entries of a table. -/
def completeEntries : List (String × TableNode) → List (String × Toml)
  | [] => []
  | (key, node) :: rest => (key, complete node) :: completeEntries rest

/-- The finished elements of a list of tables. -/
def completeElements : List (List (String × TableNode)) → List Toml
  | [] => []
  | entries :: rest => .table (completeEntries entries) :: completeElements rest

end

end TableNode

end Toml

end Fieldwork
