import Fieldwork.Json.Basic
import Fieldwork.Json.Reader

/-!
# JSON Text

From text to values and back.

Reading goes through the tree of the text as written. The tree is a value if
its numbers can be represented, the escapes of its strings pair up, and no
more than `depthLimit` arrays and objects nest. The limit belongs to reading
alone: a value of any depth can be written. When a text names a key twice, the
key keeps its first place and has its last value.

Writing is compact. A string escapes the quote, the backslash and the
characters below the space, the common ones by a letter and the others by four
hexadecimal digits; all else stands for itself.

## Main definitions

* `escape`, `unescape?`: String bodies to text and back.
* `Json.toWritten`: The spelling of a value.
* `Written.json?`: The value of a tree.
* `Json.parse?`, `Json.compact`: From text and to text.

## Theorems

* `unescape?_escape`: An escaped text reads back.
* `toWritten_object`: An object is spelled member by member.
-/

namespace Fieldwork

namespace Written

/-- The character that stands after a backslash for another, if there is one. -/
def escapeLetter? (c : Char) : Option Char :=
  if c = '"' then some '"'
  else if c = '\\' then some '\\'
  else if c = '\x08' then some 'b'
  else if c = '\x0c' then some 'f'
  else if c = '\n' then some 'n'
  else if c = '\r' then some 'r'
  else if c = '\t' then some 't'
  else none

/-- What a character after a backslash stands for. -/
def ofEscapeLetter? (c : Char) : Option Char :=
  if c = '"' || c = '\\' || c = '/' then some c
  else if c = 'b' then some '\x08'
  else if c = 'f' then some '\x0c'
  else if c = 'n' then some '\n'
  else if c = 'r' then some '\r'
  else if c = 't' then some '\t'
  else none

/-- One character of a string body. -/
def escapeChar (c : Char) : List Char :=
  match escapeLetter? c with
  | some letter => ['\\', letter]
  | none =>
    if c.toNat < 0x20 then
      ['\\', 'u', '0', '0', Hex.digitOf (c.toNat / 16), Hex.digitOf (c.toNat % 16)]
    else [c]

/-- The body of the string that holds a text. -/
def escape (cs : List Char) : List Char :=
  cs.flatMap escapeChar

/-- The number of four hexadecimal digits. -/
def codeUnit? (a b c d : Char) : Option Nat := do
  let a ← Hex.digit? a
  let b ← Hex.digit? b
  let c ← Hex.digit? c
  let d ← Hex.digit? d
  some (((a * 16 + b) * 16 + c) * 16 + d)

/-- A code unit that has to be the first of a pair. -/
def isHighSurrogate (n : Nat) : Bool :=
  0xd800 ≤ n && n < 0xdc00

/-- A code unit that has to be the second of a pair. -/
def isLowSurrogate (n : Nat) : Bool :=
  0xdc00 ≤ n && n < 0xe000

/-- Decodes a string body after what is already decoded, last first. `high` is
    the first half of a pair whose second half has to come next. -/
def unescapeFrom (high : Option Nat) (done : List Char) : List Char → Option (List Char)
  | [] => if high.isSome then none else some done.reverse
  | '\\' :: 'u' :: a :: b :: c :: d :: rest => do
    let unit ← codeUnit? a b c d
    match high with
    -- A second half alone stands for nothing, and neither does a first half that
    -- is followed by anything else.
    | some first =>
      if isLowSurrogate unit then
        unescapeFrom none
          (Char.ofNat (0x10000 + (first - 0xd800) * 0x400 + (unit - 0xdc00)) :: done) rest
      else none
    | none =>
      if isHighSurrogate unit then unescapeFrom (some unit) done rest
      else if isLowSurrogate unit then none
      else unescapeFrom none (Char.ofNat unit :: done) rest
  | '\\' :: c :: rest =>
    if high.isSome then none
    else (ofEscapeLetter? c).bind fun decoded => unescapeFrom none (decoded :: done) rest
  | c :: rest => if high.isSome then none else unescapeFrom none (c :: done) rest

/-- The text that a string body holds, if its surrogates pair up. -/
def unescape? (body : List Char) : Option (List Char) :=
  unescapeFrom none [] body

/-- The text of a string body, as a string. -/
def unquote? (body : String) : Option String :=
  (unescape? body.toList).map String.ofList

mutual

/-- The value of a tree, if no more than `depth` arrays and objects nest. -/
def json? (depth : Nat) : Written → Option Json
  | null => some .null
  | bool value => some (.bool value)
  | number spelling =>
    ((NumberToken.ofChars? spelling.toList).bind Number.ofToken?).map Json.number
  | string body => (unquote? body).map Json.string
  | array items =>
    if depth = 0 then none else (jsonItems? (depth - 1) [] items).map Json.array
  | object members =>
    if depth = 0 then none else (jsonMembers? (depth - 1) [] members).map Json.object

/-- The values of a list of trees, after those already known, last first. -/
def jsonItems? (depth : Nat) (done : List Json) : List Written → Option (List Json)
  | [] => some done.reverse
  | item :: rest => (json? depth item).bind fun value => jsonItems? depth (value :: done) rest

/-- The members of a list of members, put one after the other into those
    already known. -/
def jsonMembers? (depth : Nat) (done : List (String × Json)) :
    List (String × Written) → Option (List (String × Json))
  | [] => some done
  | (key, tree) :: rest =>
    (unquote? key).bind fun key => (json? depth tree).bind fun value =>
      jsonMembers? depth (Ordered.insert key value done) rest

end

end Written

namespace Json

mutual

/-- The spelling of a value. -/
def toWritten : Json → Written
  | null => .null
  | bool value => .bool value
  | number value => .number (String.ofList value.text)
  | string value => .string (String.ofList (Written.escape value.toList))
  | array items => .array (toWrittenItems items)
  | object members => .object (toWrittenMembers members)

/-- The spellings of a list of values. -/
def toWrittenItems : List Json → List Written
  | [] => []
  | item :: rest => item.toWritten :: toWrittenItems rest

/-- The spellings of a list of members. -/
def toWrittenMembers : List (String × Json) → List (String × Written)
  | [] => []
  | (key, value) :: rest =>
    (String.ofList (Written.escape key.toList), value.toWritten) :: toWrittenMembers rest

end

/-- How many arrays and objects may nest in a text that is read. -/
def depthLimit : Nat := 127

/-- The value of a text. -/
def parse? (text : String) : Option Json :=
  (Written.read? text.toList).bind (Written.json? depthLimit)

/-- The compact text of a value. -/
def compact (value : Json) : String :=
  value.toWritten.text

/-- An object is spelled member by member. -/
theorem toWritten_object (members : List (String × Json)) :
    (object members).toWritten = .object (toWrittenMembers members) := by
  rw [toWritten]

end Json

namespace Written

/-- A character spelled by a letter decodes to itself. -/
theorem ofEscapeLetter?_escapeLetter? {c letter : Char} (h : escapeLetter? c = some letter) :
    ofEscapeLetter? letter = some c ∧ letter ≠ 'u' := by
  unfold escapeLetter? at h
  repeat' split at h
  all_goals first
    | (cases h; subst_vars; decide)
    | cases h

/-- Two zeros and two digits are the number of a byte. -/
theorem codeUnit?_digitOf {n : Nat} (h : n < 256) :
    codeUnit? '0' '0' (Hex.digitOf (n / 16)) (Hex.digitOf (n % 16)) = some n := by
  have hzero : Hex.digit? '0' = some 0 := by decide
  simp only [codeUnit?, hzero, Hex.digit?_digitOf (show n / 16 < 16 by omega),
    Hex.digit?_digitOf (show n % 16 < 16 by omega), Option.bind_eq_bind, Option.bind_some,
    Option.some.injEq]
  omega

/-- However a character is spelled, it is decoded to itself. -/
theorem unescapeFrom_escapeChar (done : List Char) (c : Char) (rest : List Char) :
    unescapeFrom none done (escapeChar c ++ rest) = unescapeFrom none (c :: done) rest := by
  unfold escapeChar
  split
  · rename_i letter hletter
    rcases ofEscapeLetter?_escapeLetter? hletter with ⟨hdecoded, hu⟩
    rw [List.cons_append, List.singleton_append, unescapeFrom]
    · rw [hdecoded]
      rfl
    · -- The letter is none that is followed by digits.
      intro _ _ _ _ _ heq _
      exact hu heq
  · rename_i hletter
    split
    · rename_i hcontrol
      -- A control character is no half of a pair.
      have hhigh : isHighSurrogate c.toNat = false := by
        simp only [isHighSurrogate, Bool.and_eq_false_iff, decide_eq_false_iff_not]
        omega
      have hlow : isLowSurrogate c.toNat = false := by
        simp only [isLowSurrogate, Bool.and_eq_false_iff, decide_eq_false_iff_not]
        omega
      simp only [List.cons_append, List.nil_append]
      rw [unescapeFrom, codeUnit?_digitOf (by omega)]
      simp only [Option.bind_eq_bind, Option.bind_some, hhigh, hlow, Bool.false_eq_true, if_false,
        Char.ofNat_toNat]
    · have hslash : c ≠ '\\' := by
        rintro rfl
        cases hletter
      rw [List.singleton_append, unescapeFrom]
      · rfl
      · intro _ _ _ _ _ heq
        exact absurd heq hslash
      · intro _ _ heq
        exact absurd heq hslash

/-- A text decodes back from its string body, character by character. -/
theorem unescapeFrom_escape (done cs : List Char) :
    unescapeFrom none done (escape cs) = some (done.reverse ++ cs) := by
  induction cs generalizing done with
  | nil =>
    rw [escape, List.flatMap_nil, unescapeFrom, List.append_nil]
    rfl
  | cons c rest ih =>
    rw [escape, List.flatMap_cons, ← escape, unescapeFrom_escapeChar, ih, List.reverse_cons,
      List.append_assoc, List.singleton_append]

/-- An escaped text reads back. -/
theorem unescape?_escape (cs : List Char) : unescape? (escape cs) = some cs := by
  simp [unescape?, unescapeFrom_escape]

end Written

end Fieldwork
