import Fieldwork.Database.Statement
import Fieldwork.Json.Relaxed.Reader

/-!
# Stored Documents

The text of a document in the database, and how a statement changes it.

A stored document is a text. The engine sets a member in the text as it is
written: the values of the other members keep their spelling, and a key that
is there keeps its place and its spelling. It neither knows nor cares whether
a number fits a word, and it nests deeper than a reader of documents does. A
stored text that is no object has no members to set, and setting one leaves it
alone. To the engine a null character ends a key, also one that is spelled as
an escape, so of two keys that differ only behind it the first is set.

The engine also takes relaxed JSON, which other programs may have stored. A
reader of documents refuses it, until a statement has set a member: what the
engine writes back is strict.

## Main definitions

* `Written.beforeNull`: What of a key counts.
* `Written.set`: Sets a member of a text as written.
* `StoredText.read?`: How the engine reads a text.
* `MergeStatement.edit?`: What a statement makes of a stored text.
* `StoredText.document`: The document that a stored text holds.

## Theorems

* `beforeNull_of_notMem`: Without escapes all of a key counts.
-/

namespace Fieldwork

namespace Written

/-- The body of a string up to the escape of the null character. A backslash
    that is escaped itself starts no escape. -/
def beforeNull : List Char → List Char
  | '\\' :: 'u' :: '0' :: '0' :: '0' :: '0' :: _ => []
  | '\\' :: c :: rest => '\\' :: c :: beforeNull rest
  | c :: rest => c :: beforeNull rest
  | [] => []

/-- The key that the engine takes the body of a string for. -/
def keyOf? (body : String) : Option String :=
  (unescape? (beforeNull body.toList)).map String.ofList

/-- Sets a member: the first one with the key, or a new one at the end. -/
def setMember (key : String) (value : Written) : List (String × Written) → List (String × Written)
  | [] => [(key, value)]
  | (spelling, old) :: rest =>
    if keyOf? spelling = some key then (spelling, value) :: rest
    else (spelling, old) :: setMember key value rest

/-- Sets a member of an object; anything else stays as it is. -/
def set (tree : Written) (key : String) (value : Written) : Written :=
  match tree with
  | object members => object (setMember key value members)
  | tree => tree

/-- Without escapes all of a key counts. -/
theorem beforeNull_of_notMem {cs : List Char} (h : '\\' ∉ cs) : beforeNull cs = cs := by
  induction cs with
  | nil => rfl
  | cons c rest ih =>
    obtain ⟨hc, hrest⟩ := not_or.1 (fun e => h (List.mem_cons.2 e))
    rw [beforeNull, ih hrest]
    · intro _ e; exact absurd e.symm hc
    · intro _ _ e; exact absurd e.symm hc

end Written

namespace StoredText

/-- The text of a document without keys. -/
def blank : String := "\x7b\x7d"

/-- How many arrays and objects the engine lets nest. -/
def depthLimit : Nat := 1000

/-- How many bytes a text or a row may have for the engine. -/
def lengthLimit : Nat := 1000000000

/-- How the engine reads a text that is not strict: up to the null character,
    which ends a text for it. -/
def readRelaxed? (cs : List Char) : Option Written :=
  Written.readRelaxed? (cs.takeWhile (· != '\x00'))

/-- How the engine reads a text. -/
def read? (text : String) : Option Written :=
  ((Written.read? text.toList).orElse fun _ => readRelaxed? text.toList).filter fun tree =>
    tree.depth ≤ depthLimit

/-- The document that a stored text holds. -/
def document (text : String) : Except DatabaseError Document :=
  match Json.parse? text with
  | none => .error (.corrupt ("deployment document decode failed: " ++ elided))
  | some value =>
    match Document.ofJson? value with
    | none => .error (.corrupt "deployment document is not a json object")
    | some document => .ok document

end StoredText

namespace MergeStatement

/-- Sets the member that a path leads to. -/
def setPair (tree : Written) (pair : String × String) : Option Written :=
  (MemberPath.key? pair.1).bind fun key =>
    (StoredText.read? pair.2).map fun value => tree.set key value

/-- What a statement makes of a stored text. -/
def edit? (statement : MergeStatement) (text : String) : Option String :=
  -- Such a statement only stamps, and the engine does not read the text.
  if statement.pairs.isEmpty then some text
  else (StoredText.read? text).bind fun tree =>
    (statement.pairs.foldlM setPair tree).map Written.text

end MergeStatement

end Fieldwork
