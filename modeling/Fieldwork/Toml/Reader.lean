import Fieldwork.Toml.Quoted
import Fieldwork.Toml.Scalar
import Fieldwork.Toml.Table

/-!
# Reading TOML

From a file to its table.

A file is a sequence of lines with a header or with a key and its value, and
of lines that are empty but for a comment. Arrays and inline tables may go
over several lines, with comments in them, and may end with a comma. They nest
no deeper than `depthLimit`. Dotted keys stay on their line, and have at most
`keyLimit` parts.

The readers of values take fuel, because a value may hold others. Every two
steps take a character away, so twice the length of the file and two more is
always enough.

## Main definitions

* `layout?`, `lineEnd?`: What may stand between two lines and behind one.
* `keyPath?`: Dotted keys.
* `value?`: A value.
* `Toml.parse?`: The table of a file.
-/

namespace Fieldwork

namespace Toml

/-- How deep arrays and inline tables nest in a file. -/
def depthLimit : Nat := 80

/-- How many parts a dotted key has at most. -/
def keyLimit : Nat := 80

/-- Takes blanks, line breaks and comments away, unless a comment holds what
    no comment may hold. -/
def layout? (inComment : Bool) : List Char → Option (List Char)
  | [] => some []
  | c :: rest =>
    if c = '\n' then layout? false rest
    else if c = '\r' then
      if rest.head? = some '\n' then layout? inComment rest else none
    else if inComment then if isPrinted c then layout? true rest else none
    else if isSpace c then layout? false rest
    else if c = '#' then layout? true rest
    else some (c :: rest)

/-- Takes the end of a line away, with a comment before it. -/
def lineEnd? (inComment : Bool) : List Char → Option (List Char)
  | [] => some []
  | c :: rest =>
    if c = '\n' then some rest
    else if c = '\r' then
      if rest.head? = some '\n' then lineEnd? inComment rest else none
    else if inComment then if isPrinted c then lineEnd? true rest else none
    else if isSpace c then lineEnd? false rest
    else if c = '#' then lineEnd? true rest
    else none

/-- Takes the blanks of a line away. -/
def spaces (cs : List Char) : List Char :=
  cs.dropWhile isSpace

/-- Whether a character may stand in a key without marks. -/
def isBare (c : Char) : Bool :=
  c.isAlphanum || c == '_' || c == '-'

/-- A key. -/
def key? : List Char → Option (String × List Char)
  | '"' :: rest => basic? rest
  | '\'' :: rest => literal? rest
  | cs =>
    let bare := cs.takeWhile isBare
    if bare.isEmpty then none else some (String.ofList bare, cs.drop bare.length)

/-- At most `parts` keys with points between them, and the blanks behind
    them. -/
def keysUpTo? (parts : Nat) (cs : List Char) : Option (List String × List Char) :=
  match parts with
  | 0 => none
  | parts + 1 =>
    (key? cs).bind fun (key, rest) =>
      match spaces rest with
      | '.' :: rest => (keysUpTo? parts (spaces rest)).map fun (keys, rest) => (key :: keys, rest)
      | rest => some ([key], rest)

/-- A dotted key, and the blanks behind it. -/
def keyPath? (cs : List Char) : Option (List String × List Char) :=
  keysUpTo? keyLimit cs

/-- Whether a character goes on with a value without marks. Whether it means
    anything there is for the scalar to say. -/
def isScalarChar (c : Char) : Bool :=
  !(isSpace c || ['\n', '\r', '#', '=', ',', '[', ']', '{', '}'].contains c)

/-- Whether a text goes on with a blank and the hours of a time. -/
def goesOnWithTime : List Char → Bool
  | ' ' :: a :: b :: ':' :: _ => a.isDigit && b.isDigit
  | _ => false

/-- A value without marks. A date and a time may have a blank between them. -/
def bareValue? (cs : List Char) : Option (Toml × List Char) :=
  let first := cs.takeWhile isScalarChar
  let rest := cs.drop first.length
  let token :=
    -- Only after a whole date can a blank be part of a value.
    if Scalar.afterDate? first = some [] && goesOnWithTime rest then
      first ++ ' ' :: (rest.drop 1).takeWhile isScalarChar
    else first
  (scalar? token).map fun value => (value, cs.drop token.length)

mutual

/-- A value. -/
def value? (depth fuel : Nat) (cs : List Char) : Option (Toml × List Char) :=
  match fuel with
  | 0 => none
  | fuel + 1 =>
    match cs with
    | '[' :: rest => if depth = 0 then none else items? (depth - 1) fuel [] rest
    | '{' :: rest => if depth = 0 then none else members? (depth - 1) fuel [] rest
    | '"' :: _ | '\'' :: _ => (quoted? cs).map fun (text, rest) => (.string text, rest)
    | cs => bareValue? cs

/-- The rest of an array, `done` being the items so far, the last first. -/
def items? (depth fuel : Nat) (done : List Toml) (cs : List Char) : Option (Toml × List Char) :=
  match fuel with
  | 0 => none
  | fuel + 1 =>
    (layout? false cs).bind fun cs =>
      match cs with
      | ']' :: rest => some (.array done.reverse, rest)
      | cs =>
        (value? depth fuel cs).bind fun (item, rest) =>
          (layout? false rest).bind fun rest =>
            match rest with
            | ',' :: rest => items? depth fuel (item :: done) rest
            | ']' :: rest => some (.array (item :: done).reverse, rest)
            | _ => none

/-- The rest of an inline table. -/
def members? (depth fuel : Nat) (entries : Entries) (cs : List Char) :
    Option (Toml × List Char) :=
  match fuel with
  | 0 => none
  | fuel + 1 =>
    (layout? false cs).bind fun cs =>
      match cs with
      | '}' :: rest => some (.table (TableNode.completeEntries entries), rest)
      | cs =>
        (member? depth fuel cs).bind fun (keys, value, rest) =>
          (TableNode.assign value keys entries).bind fun entries =>
            (layout? false rest).bind fun rest =>
              match rest with
              | ',' :: rest => members? depth fuel entries rest
              | '}' :: rest => some (.table (TableNode.completeEntries entries), rest)
              | _ => none

/-- A key of an inline table and its value. Either may start on a new line. -/
def member? (depth fuel : Nat) (cs : List Char) : Option (List String × Toml × List Char) :=
  match fuel with
  | 0 => none
  | fuel + 1 =>
    (keyPath? cs).bind fun (keys, rest) =>
      (layout? false rest).bind fun rest =>
        match rest with
        | '=' :: rest =>
          (layout? false rest).bind fun rest =>
            (value? depth fuel rest).map fun (value, rest) => (keys, value, rest)
        | _ => none

end

/-- A file that is read up to some line. -/
structure Draft where
  /-- The table so far. -/
  root : Entries
  /-- The keys of the header that is in force. -/
  header : List String

namespace Draft

/-- Nothing is read yet. -/
def empty : Draft :=
  ⟨[], []⟩

/-- A header, behind its opening marks; `marks` are the closing ones. -/
def withHeader? (draft : Draft) (open? : String → Entries → Option Entries) (marks : List Char)
    (cs : List Char) : Option (Draft × List Char) :=
  (keyPath? (spaces cs)).bind fun (keys, rest) =>
    if rest.take marks.length = marks then
      keys.getLast?.bind fun last =>
        (TableNode.descend (open? last) keys.dropLast draft.root).map fun root =>
          (⟨root, keys⟩, rest.drop marks.length)
    else none

/-- A key and its value. -/
def withValue? (draft : Draft) (fuel : Nat) (cs : List Char) : Option (Draft × List Char) :=
  (keyPath? cs).bind fun (keys, rest) =>
    match rest with
    | '=' :: rest =>
      (value? depthLimit fuel (spaces rest)).bind fun (value, rest) =>
        (TableNode.descend (TableNode.assign value keys) draft.header draft.root).map fun root =>
          ({ draft with root }, rest)
    | _ => none

/-- A line that is not empty. -/
def withLine? (draft : Draft) (fuel : Nat) : List Char → Option (Draft × List Char)
  | '[' :: '[' :: rest => draft.withHeader? TableNode.openElement [']', ']'] rest
  | '[' :: rest => draft.withHeader? TableNode.openTable [']'] rest
  | cs => draft.withValue? fuel cs

/-- All lines of a file. -/
def withLines? (draft : Draft) (fuel : Nat) (cs : List Char) : Option Draft :=
  match fuel with
  | 0 => none
  | fuel + 1 =>
    (layout? false cs).bind fun cs =>
      if cs.isEmpty then some draft
      else
        (draft.withLine? fuel cs).bind fun (draft, rest) =>
          (lineEnd? false rest).bind fun rest => withLines? draft fuel rest

end Draft

/-- A text without the mark of its encoding. -/
def dropMark : List Char → List Char
  | '\ufeff' :: rest => rest
  | cs => cs

/-- The table of a file. -/
def parse? (text : String) : Option (List (String × Toml)) :=
  let cs := dropMark text.toList
  (Draft.empty.withLines? (2 * cs.length + 2) cs).map fun draft =>
    TableNode.completeEntries draft.root

end Toml

end Fieldwork
