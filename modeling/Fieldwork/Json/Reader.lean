import Fieldwork.Json.Number
import Fieldwork.Json.Written
import Fieldwork.Text.Hex

/-!
# Reading JSON

The grammar of JSON as a machine that takes one character at a time.

The machine keeps the arrays and objects that are still open on a stack, with
what each holds so far, and a phase that says what the next character may be.
One character makes one step, so reading is a fold over the text: it ends, it
needs no bound on nesting, and reading two texts one after the other is
reading the first and going on from the state it left.

A number or a word ends at the first character that cannot continue it. That
character is then looked at again as what comes after a value, so a step never
has to hand a character back.

The grammar is the strict one. Blanks are the space, the tab and the two line
breaks. A string holds no character below the space as it is, and only the
known escapes; whether `\u` escapes pair up is left to whoever decodes it.

## Main definitions

* `Frame`: An array or object that is still open.
* `Phase`: What has been read since the last complete token.
* `State`, `step`: The machine.
* `read?`: The tree of a whole text.

## Theorems

* `run_append`: Reading two texts in turn.
-/

namespace Fieldwork

namespace Written

/-- An array or object that is still open, what it holds last first. -/
inductive Frame where
  /-- An array with the items read so far. -/
  | items (done : List Written)
  /-- An object with the members read so far, where a key comes next. -/
  | members (done : List (String × Written))
  /-- An object where the value of `key` comes next. -/
  | value (done : List (String × Written)) (key : String)
  deriving Inhabited

/-- What has been read since the last complete token. -/
inductive Phase where
  /-- A value has to follow. -/
  | value
  /-- A value or the end of the array has to follow. -/
  | firstItem
  /-- A key or the end of the object has to follow. -/
  | firstMember
  /-- A key has to follow. -/
  | member
  /-- A colon has to follow. -/
  | colon
  /-- A complete value; what it belongs to goes on or ends. -/
  | after (tree : Written)
  /-- Within a string: what it holds so far, last first. -/
  | string (isKey : Bool) (body : List Char)
  /-- Within a string, after a backslash. -/
  | escape (isKey : Bool) (body : List Char)
  /-- Within a string, with `left` digits of an escape to come. -/
  | hex (isKey : Bool) (left : Nat) (body : List Char)
  /-- Within a number: its characters so far, last first. -/
  | number (spelling : List Char)
  /-- Within a word: its letters so far, last first. -/
  | word (letters : List Char)
  deriving Inhabited

/-- The machine between two characters. -/
structure State where
  /-- The open arrays and objects, innermost first. -/
  stack : List Frame
  /-- What the innermost one waits for. -/
  phase : Phase
  deriving Inhabited

/-- The blanks that may stand between two tokens. -/
def isSpace (c : Char) : Bool :=
  c == ' ' || c == '\t' || c == '\n' || c == '\r'

/-- The characters that numbers are made of. -/
def isNumberChar (c : Char) : Bool :=
  c.isDigit || c == '-' || c == '+' || c == '.' || c == 'e' || c == 'E'

/-- The characters that stand after a backslash for themselves or for a
    control character. -/
def isEscaped (c : Char) : Bool :=
  c == '"' || c == '\\' || c == '/' || c == 'b' || c == 'f' || c == 'n' || c == 'r' || c == 't'

/-- The value of a word. -/
def ofWord? : List Char → Option Written
  | ['n', 'u', 'l', 'l'] => some null
  | ['t', 'r', 'u', 'e'] => some (bool true)
  | ['f', 'a', 'l', 's', 'e'] => some (bool false)
  | _ => none

/-- The value of the characters of a number. -/
def ofNumber? (spelling : List Char) : Option Written :=
  (NumberToken.ofChars? spelling).map fun _ => number (String.ofList spelling)

namespace State

/-- The state before the first character. -/
def initial : State :=
  ⟨[], .value⟩

/-- The first character of a value. -/
def openValue (stack : List Frame) (c : Char) : Option State :=
  if isSpace c then some ⟨stack, .value⟩
  else if c = '"' then some ⟨stack, .string false []⟩
  else if c = '[' then some ⟨.items [] :: stack, .firstItem⟩
  else if c = '{' then some ⟨.members [] :: stack, .firstMember⟩
  else if c = '-' || c.isDigit then some ⟨stack, .number [c]⟩
  else if c.isLower then some ⟨stack, .word [c]⟩
  else none

/-- The first character of a key. -/
def openKey (stack : List Frame) (phase : Phase) (c : Char) : Option State :=
  if isSpace c then some ⟨stack, phase⟩
  else if c = '"' then some ⟨stack, .string true []⟩
  else none

/-- A character after a complete value. -/
def close (stack : List Frame) (tree : Written) (c : Char) : Option State :=
  if isSpace c then some ⟨stack, .after tree⟩
  else match stack, c with
    | .items done :: outer, ',' => some ⟨.items (tree :: done) :: outer, .value⟩
    | .items done :: outer, ']' => some ⟨outer, .after (array (tree :: done).reverse)⟩
    | .value done key :: outer, ',' => some ⟨.members ((key, tree) :: done) :: outer, .member⟩
    | .value done key :: outer, '}' => some ⟨outer, .after (object ((key, tree) :: done).reverse)⟩
    | _, _ => none

/-- The end of a string: a key waits for its colon, any other string is a
    value. -/
def endString (stack : List Frame) (isKey : Bool) (body : List Char) : Option State :=
  let text := String.ofList body.reverse
  if isKey then
    match stack with
    | .members done :: outer => some ⟨.value done text :: outer, .colon⟩
    | _ => none
  else some ⟨stack, .after (string text)⟩

/-- One character. -/
def step (s : State) (c : Char) : Option State :=
  match s.phase with
  | .value => openValue s.stack c
  | .firstItem =>
    match s.stack, c with
    -- An empty array closes here; after a comma the phase is `value`, so no
    -- comma stands before a bracket.
    | .items _ :: outer, ']' => some ⟨outer, .after (array [])⟩
    | stack, c => if isSpace c then some s else openValue stack c
  | .firstMember =>
    match s.stack, c with
    | .members _ :: outer, '}' => some ⟨outer, .after (object [])⟩
    | stack, c => openKey stack .firstMember c
  | .member => openKey s.stack .member c
  | .colon =>
    if isSpace c then some s else if c = ':' then some ⟨s.stack, .value⟩ else none
  | .after tree => close s.stack tree c
  | .string isKey body =>
    if c = '"' then endString s.stack isKey body
    else if c = '\\' then some ⟨s.stack, .escape isKey body⟩
    else if c.toNat < 0x20 then none
    else some ⟨s.stack, .string isKey (c :: body)⟩
  | .escape isKey body =>
    if isEscaped c then some ⟨s.stack, .string isKey (c :: '\\' :: body)⟩
    else if c = 'u' then some ⟨s.stack, .hex isKey 3 ('u' :: '\\' :: body)⟩
    else none
  | .hex isKey left body =>
    if (Hex.digit? c).isNone then none
    else match left with
      | 0 => some ⟨s.stack, .string isKey (c :: body)⟩
      | left + 1 => some ⟨s.stack, .hex isKey left (c :: body)⟩
  | .number spelling =>
    if isNumberChar c then some ⟨s.stack, .number (c :: spelling)⟩
    -- Only now is the number complete; the character itself comes after it.
    else (ofNumber? spelling.reverse).bind fun tree => close s.stack tree c
  | .word letters =>
    if c.isLower then some ⟨s.stack, .word (c :: letters)⟩
    else (ofWord? letters.reverse).bind fun tree => close s.stack tree c

/-- The characters of a text in turn. -/
def run (s : State) (cs : List Char) : Option State :=
  cs.foldlM step s

/-- The value that is complete when the text ends here. -/
def finish? (s : State) : Option Written :=
  match s.stack, s.phase with
  | [], .after tree => some tree
  | [], .number spelling => ofNumber? spelling.reverse
  | [], .word letters => ofWord? letters.reverse
  | _, _ => none

/-- Reading two texts in turn. -/
theorem run_append (s : State) (xs ys : List Char) :
    s.run (xs ++ ys) = (s.run xs).bind fun t => t.run ys := by
  simp only [run, List.foldlM_append]
  rfl

end State

/-- The tree of a whole text, if it is one JSON value with blanks around. -/
def read? (cs : List Char) : Option Written :=
  (State.initial.run cs).bind State.finish?

end Written

end Fieldwork
