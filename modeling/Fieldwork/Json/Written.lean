/-!
# JSON as Written

The structure of a JSON text, with its scalars as they are spelled.

A `Written` value is what the grammar of JSON alone says about a text: numbers
and strings are still the characters that were written, and an object may name
a key twice. Two readers start from it. One decides what the spellings stand
for and gives a JSON value. The other edits the text: it replaces some members
and must hand back all others with their spelling untouched.

Rendering is compact. It puts no blank between two tokens and spells every
scalar as it was.

## Main definitions

* `Written`: A JSON text as a tree.
* `Written.render`: The compact text of a tree.
* `Written.depth`: How deep it nests.
* `Written.isSame`: Whether two trees are one.
-/

namespace Fieldwork

/-- A JSON text as a tree whose leaves are spelled as they were written. -/
inductive Written where
  /-- The literal `null`. -/
  | null
  /-- One of the two truth values. -/
  | bool (value : Bool)
  /-- The characters of a number. -/
  | number (spelling : String)
  /-- What stands between the quotes of a string, escapes included. -/
  | string (body : String)
  /-- The items between brackets. -/
  | array (items : List Written)
  /-- The members between braces, keys spelled as string bodies. -/
  | object (members : List (String × Written))
  deriving Inhabited

namespace Written

/-- A string body between its quotes. -/
def quoted (body : String) : List Char :=
  '"' :: body.toList ++ ['"']

mutual

/-- The compact text of a tree. -/
def render : Written → List Char
  | null => ['n', 'u', 'l', 'l']
  | bool true => ['t', 'r', 'u', 'e']
  | bool false => ['f', 'a', 'l', 's', 'e']
  | number spelling => spelling.toList
  | string body => quoted body
  | array [] => ['[', ']']
  | array (item :: rest) => '[' :: render item ++ renderItems rest
  | object [] => ['{', '}']
  | object ((key, value) :: rest) =>
    '{' :: quoted key ++ ':' :: render value ++ renderMembers rest

/-- The items after the first, up to the closing bracket. -/
def renderItems : List Written → List Char
  | [] => [']']
  | item :: rest => ',' :: render item ++ renderItems rest

/-- The members after the first, up to the closing brace. -/
def renderMembers : List (String × Written) → List Char
  | [] => ['}']
  | (key, value) :: rest => ',' :: quoted key ++ ':' :: render value ++ renderMembers rest

end

/-- The compact text as a string. -/
def text (tree : Written) : String :=
  String.ofList tree.render

mutual

/-- How deep arrays and objects nest. -/
def depth : Written → Nat
  | array items => depthOfItems items + 1
  | object members => depthOfMembers members + 1
  | _ => 0

/-- The greatest depth of a list of trees. -/
def depthOfItems : List Written → Nat
  | [] => 0
  | item :: rest => max item.depth (depthOfItems rest)

/-- The greatest depth of the values of a list of members. -/
def depthOfMembers : List (String × Written) → Nat
  | [] => 0
  | (_, value) :: rest => max value.depth (depthOfMembers rest)

end

mutual

/-- Whether two trees are one. -/
def isSame : Written → Written → Bool
  | null, null => true
  | bool a, bool b => a == b
  | number a, number b => a == b
  | string a, string b => a == b
  | array as, array bs => isSameItems as bs
  | object as, object bs => isSameMembers as bs
  | _, _ => false

/-- Whether two lists of trees are one. -/
def isSameItems : List Written → List Written → Bool
  | [], [] => true
  | a :: as, b :: bs => a.isSame b && isSameItems as bs
  | _, _ => false

/-- Whether two lists of members are one. -/
def isSameMembers : List (String × Written) → List (String × Written) → Bool
  | [], [] => true
  | (key, a) :: as, (other, b) :: bs => key == other && a.isSame b && isSameMembers as bs
  | _, _ => false

end

mutual

theorem isSame_iff (a b : Written) : a.isSame b = true ↔ a = b := by
  match a with
  | null | bool _ | number _ | string _ => cases b <;> simp [isSame]
  | array items => cases b <;> simp [isSame, isSameItems_iff items]
  | object members => cases b <;> simp [isSame, isSameMembers_iff members]

theorem isSameItems_iff (as bs : List Written) : isSameItems as bs = true ↔ as = bs := by
  match as with
  | [] => cases bs <;> simp [isSameItems]
  | a :: rest => cases bs <;> simp [isSameItems, isSame_iff a, isSameItems_iff rest]

theorem isSameMembers_iff (as bs : List (String × Written)) :
    isSameMembers as bs = true ↔ as = bs := by
  match as with
  | [] => cases bs <;> simp [isSameMembers]
  | (key, a) :: rest =>
    cases bs <;> simp [isSameMembers, isSame_iff a, isSameMembers_iff rest, Prod.ext_iff]

end

instance : DecidableEq Written := fun a b => decidable_of_iff _ (isSame_iff a b)

end Written

end Fieldwork
