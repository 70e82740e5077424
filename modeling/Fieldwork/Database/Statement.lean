import Fieldwork.Database.Error
import Fieldwork.Document.Basic
import Fieldwork.Text.Blank

/-!
# Merge Statements

How a merge is put to the database.

The database itself sets the keys of a stored document, so that no writer has
to read the document first. A statement binds, for each key, a path that leads
to the member and the text of its new value. The engine takes only so many
arguments, so a large merge becomes several statements, each with a few keys.
Without keys there is still one statement, which stamps the row.

A path quotes the key as it is. A key with a character that the engine would
read as something else is refused, and so is a merge whose values are too
large; of two faults the one that comes first in the order of the keys counts.

## Main definitions

* `MemberPath.ofKey?`: The path to a member.
* `MergeStatement`: Paths and values that are set together.
* `MergeStatement.batch`: The statements of a merge.

## Theorems

* `flatten_chunks`: Chunks leave nothing out.
* `length_le_of_mem_chunks`, `length_pos_of_mem_chunks`: A chunk is not longer than
  asked, and never empty.
-/

namespace Fieldwork

namespace MemberPath

/-- Whether a character could be read as something else within a quoted
    key. -/
def isRefused (c : Char) : Bool :=
  c == '"' || c == '\\' || Text.isControl c

/-- The path to the member under a key, if the key can be quoted. -/
def ofKey? (key : String) : Option String :=
  if key.toList.any isRefused then none
  else some (String.ofList ('$' :: '.' :: '"' :: key.toList ++ ['"']))

/-- The key that a path leads to. -/
def key? (path : String) : Option String :=
  match path.toList with
  | '$' :: '.' :: '"' :: rest =>
    if rest.getLast? = some '"' then some (String.ofList rest.dropLast) else none
  | _ => none

/-- A path leads to the key that it was made for. -/
theorem key?_of_ofKey? {key path : String} (h : ofKey? key = some path) : key? path = some key := by
  unfold ofKey? at h
  split at h
  · simp at h
  · rw [← Option.some.inj h]
    simp [key?]

end MemberPath

/-- The most bytes that the encoded values of a merge have together. -/
def updateLimit : Nat := 4 * 1024 * 1024

/-- Why a merge is refused before it reaches the database. -/
inductive MergeRefusal where
  /-- A key cannot be quoted. -/
  | key
  /-- The values are too large together. -/
  | size
  deriving DecidableEq

/-- The wording of a refusal. -/
def MergeRefusal.reason : MergeRefusal → String
  | key => "deployment document keys must not contain quotes, backslashes, or control characters"
  | size => "merge payload exceeds size limit (max " ++ toString updateLimit ++ " bytes)"

/-- What is bound to a placeholder of a statement. -/
inductive Binding where
  /-- A text. -/
  | text (value : String)
  /-- An integer. -/
  | integer (value : Int)
  deriving DecidableEq

/-- How many bytes a text that is bound has. -/
def Binding.textSize : Binding → Nat
  | text value => value.utf8ByteSize
  | integer _ => 0

/-- Paths and encoded values that are set together. -/
@[ext]
structure MergeStatement where
  /-- A path and an encoded value for each key. -/
  pairs : List (String × String)
  deriving DecidableEq

namespace MergeStatement

/-- How many keys a statement sets at most. -/
def chunkKeys : Nat := 50

/-- The paths and encoded values of a list of members, where `total` bytes are
    already used. -/
def encode (total : Nat) : List (String × Json) → Except MergeRefusal (List (String × String))
  | [] => .ok []
  | (key, value) :: rest =>
    match MemberPath.ofKey? key with
    | none => .error .key
    | some path =>
      let encoded := value.compact
      let total := total + encoded.utf8ByteSize
      -- Only values count; a key of any length is free.
      if updateLimit < total then .error .size
      else (encode total rest).map ((path, encoded) :: ·)

/-- A list cut into pieces of `size`, the last of which may be shorter. -/
def chunks {α : Type} (size : Nat) : List α → List (List α)
  | [] => []
  | x :: rest => (x :: rest.take (size - 1)) :: chunks size (rest.drop (size - 1))
termination_by items => items.length
decreasing_by rw [List.length_drop, List.length_cons]; omega

/-- The statements of a merge. -/
def batch (updates : Document) : Except MergeRefusal (List MergeStatement) :=
  (encode 0 updates.fields).map fun pairs =>
    if pairs.isEmpty then [⟨[]⟩] else (chunks chunkKeys pairs).map MergeStatement.mk

/-- What a statement binds to its placeholders: the paths and values, then the
    stamp and the asset. -/
def bindings (statement : MergeStatement) (stamp : Stamp) (asset : AssetId) : List Binding :=
  statement.pairs.flatMap (fun pair => [.text pair.1, .text pair.2]) ++
    [.integer stamp, .text asset.name]

/-- Chunks leave nothing out and keep the order. -/
theorem flatten_chunks {α : Type} (size : Nat) (items : List α) :
    (chunks size items).flatten = items := by
  fun_induction chunks size items with
  | case1 => rfl
  | case2 x rest ih => simp [ih]

/-- A chunk is not longer than asked. -/
theorem length_le_of_mem_chunks {α : Type} {size : Nat} (hs : 0 < size) {items chunk : List α}
    (h : chunk ∈ chunks size items) : chunk.length ≤ size := by
  fun_induction chunks size items with
  | case1 => simp at h
  | case2 x rest ih =>
    rcases List.mem_cons.1 h with rfl | h
    · simp only [List.length_cons, List.length_take]
      omega
    · exact ih h

/-- A chunk is never empty. -/
theorem length_pos_of_mem_chunks {α : Type} {size : Nat} {items chunk : List α}
    (h : chunk ∈ chunks size items) : 0 < chunk.length := by
  fun_induction chunks size items with
  | case1 => exact absurd h List.not_mem_nil
  | case2 x rest ih =>
    rcases List.mem_cons.1 h with rfl | h
    · exact Nat.succ_pos _
    · exact ih h

end MergeStatement

end Fieldwork
