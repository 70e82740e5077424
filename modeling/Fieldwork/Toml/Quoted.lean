import Fieldwork.Text.Hex
import Fieldwork.Toml.Basic

/-!
# TOML Strings

The four ways to write a text in a TOML file.

A basic string stands between quotes and has escapes; a literal string stands
between apostrophes and has none. Both have a form between three of their
marks, which may go over several lines. A line break right after the opening
marks does not count, and one or two marks may stand before the closing ones.
In the basic form a backslash at the end of a line takes all blanks and line
breaks after it away.

Each reader starts behind the opening mark and gives the text and the rest of
the file.

## Main definitions

* `basic?`, `literal?`: The forms on one line.
* `lines?`, `literalLines?`: The forms on several lines.
* `quoted?`: Any of the four.
-/

namespace Fieldwork

namespace Toml

/-- The blanks within a line. -/
def isSpace (c : Char) : Bool :=
  c == ' ' || c == '\t'

/-- The characters that stand for themselves in a file: all but the controls
    below the space, other than the tab, and the delete. -/
def isPrinted (c : Char) : Bool :=
  c == '\t' || (0x20 ≤ c.toNat && c.toNat != 0x7f)

/-- What a letter after a backslash stands for. -/
def ofEscape? (c : Char) : Option Char :=
  if c = '"' || c = '\\' then some c
  else if c = 'b' then some '\x08'
  else if c = 't' then some '\t'
  else if c = 'n' then some '\n'
  else if c = 'f' then some '\x0c'
  else if c = 'r' then some '\r'
  else if c = 'e' then some '\x1b'
  else none

/-- The character with a hexadecimal number, if there is one. -/
def ofHex? (digits : List Char) : Option Char :=
  (digits.foldlM (fun n c => (Hex.digit? c).map (16 * n + ·)) 0).bind fun n =>
    if n.isValidChar then some (Char.ofNat n) else none

/-- An escape without its backslash: the character, and how many characters it
    takes. -/
def escape? : List Char → Option (Char × Nat)
  | [] => none
  | c :: rest =>
    let digits (count : Nat) : Option (Char × Nat) :=
      if rest.length < count then none
      else (ofHex? (rest.take count)).map fun found => (found, count + 1)
    if c = 'x' then digits 2
    else if c = 'u' then digits 4
    else if c = 'U' then digits 8
    else (ofEscape? c).map fun found => (found, 1)

/-- The rest of a basic string, where `skip` characters belong to an escape
    that is already read. -/
def basicFrom? (skip : Nat) (done : List Char) : List Char → Option (String × List Char)
  | [] => none
  | c :: rest =>
    match skip with
    | skip + 1 => basicFrom? skip done rest
    | 0 =>
      if c = '"' then some (String.ofList done.reverse, rest)
      else if c = '\\' then
        (escape? (rest.take 9)).bind fun found => basicFrom? found.2 (found.1 :: done) rest
      else if isPrinted c then basicFrom? 0 (c :: done) rest
      else none

/-- A basic string on one line. -/
def basic? (cs : List Char) : Option (String × List Char) :=
  basicFrom? 0 [] cs

/-- The rest of a literal string. -/
def literalFrom? (done : List Char) : List Char → Option (String × List Char)
  | [] => none
  | c :: rest =>
    if c = '\'' then some (String.ofList done.reverse, rest)
    else if isPrinted c then literalFrom? (c :: done) rest
    else none

/-- A literal string on one line. -/
def literal? (cs : List Char) : Option (String × List Char) :=
  literalFrom? [] cs

/-- The closing marks of a string on several lines, with the marks before them
    that belong to the text. -/
def closing? (mark : Char) (cs : List Char) : Option (List Char × List Char) :=
  let marks := (cs.take 5).takeWhile (· == mark)
  if marks.length < 3 then none else some (marks.drop 3, cs.drop marks.length)

/-- A text without a line break at its start. -/
def dropLineBreak : List Char → List Char
  | '\n' :: rest => rest
  | '\r' :: '\n' :: rest => rest
  | cs => cs

/-- Whether a character may stand in a string on several lines, before
    `rest`. -/
def isLinesChar (c : Char) (rest : List Char) : Bool :=
  isPrinted c || c == '\n' || (c == '\r' && rest.head? == some '\n')

/-- The rest of a literal string on several lines. -/
def literalLinesFrom? (done : List Char) : List Char → Option (String × List Char)
  | [] => none
  | c :: rest =>
    match closing? '\'' (c :: rest) with
    | some (more, rest) => some (String.ofList (done.reverse ++ more), rest)
    | none => if isLinesChar c rest then literalLinesFrom? (c :: done) rest else none

/-- A literal string on several lines. -/
def literalLines? (cs : List Char) : Option (String × List Char) :=
  literalLinesFrom? [] (dropLineBreak cs)

/-- What a string on several lines does with the next character. -/
inductive LinesPhase where
  /-- It is part of the text. -/
  | text
  /-- It is part of an escape that is already read, and so are `more`
      others. -/
  | escaped (more : Nat)
  /-- It comes after a backslash at the end of a line, before the break. -/
  | lineEnd
  /-- It comes after the break, and is taken away if it is blank. -/
  | lineStart

/-- The rest of a basic string on several lines. -/
def linesFrom? (phase : LinesPhase) (done : List Char) : List Char → Option (String × List Char)
  | [] => none
  | c :: rest =>
    match phase with
    | .escaped 0 => linesFrom? .text done rest
    | .escaped (more + 1) => linesFrom? (.escaped more) done rest
    | .lineEnd =>
      if c = '\n' then linesFrom? .lineStart done rest
      else if isSpace c || (c = '\r' && rest.head? == some '\n') then linesFrom? .lineEnd done rest
      else none
    | phase =>
      let inStart := match phase with
        | .lineStart => true
        | _ => false
      if inStart && (isSpace c || c == '\n' || (c == '\r' && rest.head? == some '\n')) then
        linesFrom? .lineStart done rest
      else match closing? '"' (c :: rest) with
        | some (more, rest) => some (String.ofList (done.reverse ++ more), rest)
        | none =>
          if c = '\\' then
            match escape? (rest.take 9) with
            | some (found, count) => linesFrom? (.escaped (count - 1)) (found :: done) rest
            -- No escape: the backslash has to end its line.
            | none => linesFrom? .lineEnd done rest
          else if isLinesChar c rest then linesFrom? .text (c :: done) rest
          else none

/-- A basic string on several lines. -/
def lines? (cs : List Char) : Option (String × List Char) :=
  linesFrom? .text [] (dropLineBreak cs)

/-- A string in any of the four forms, from its opening mark. -/
def quoted? : List Char → Option (String × List Char)
  | '"' :: '"' :: '"' :: rest => lines? rest
  | '"' :: rest => basic? rest
  | '\'' :: '\'' :: '\'' :: rest => literalLines? rest
  | '\'' :: rest => literal? rest
  | _ => none

end Toml

end Fieldwork
