import Fieldwork.Json.Text
import Fieldwork.Text.Blank

/-!
# Tokens of Relaxed JSON

The pieces that a relaxed JSON text is made of.

People write JSON by hand with comments, with single quotes, with keys that
have no quotes and with numbers that a strict reader refuses. A text of this
kind is cut into tokens here, and each token is spelled the strict way at
once: whoever puts the tokens together never sees that a spelling was relaxed.

Between two tokens stand blanks and comments. The blanks are those of Unicode
and the mark of an encoding, but not the control character U+0085. A name is a
key without quotes; the words of values are no names, so `null` is never a
key.

## Main definitions

* `RelaxedToken`: A scalar, a name or a mark.
* `gap?`: What may stand between two tokens.
* `body?`: The strict body of a quoted string.
* `number?`: The strict spelling of a number.
* `token?`: The first token of a text.
-/

namespace Fieldwork

/-- One piece of a relaxed JSON text. -/
inductive RelaxedToken where
  /-- A value without parts. -/
  | scalar (tree : Written)
  /-- A key without quotes, as the body of a string. -/
  | name (body : String)
  /-- A bracket, a brace, a comma or a colon. -/
  | mark (c : Char)
  deriving Inhabited

namespace RelaxedToken

/-- The blanks between two tokens. -/
def isBlank (c : Char) : Bool :=
  c == '\ufeff' || (Text.isBlank c && c != '\u0085')

/-- The characters that end a line. -/
def isLineEnd (c : Char) : Bool :=
  c == '\n' || c == '\r' || c == '\u2028' || c == '\u2029'

/-- What a character between two tokens is part of. -/
inductive Gap where
  /-- Blanks. -/
  | blanks
  /-- A comment up to the end of the line. -/
  | line
  /-- A comment between its marks. -/
  | block

/-- Takes blanks and comments away, unless a comment has no end. -/
def gap? : Gap → List Char → Option (List Char)
  | .blanks, '/' :: '/' :: rest => gap? .line rest
  | .blanks, '/' :: '*' :: rest => gap? .block rest
  | .blanks, c :: rest => if isBlank c then gap? .blanks rest else some (c :: rest)
  | .line, c :: rest => gap? (if isLineEnd c then .blanks else .line) rest
  | .block, '*' :: '/' :: rest => gap? .blanks rest
  | .block, _ :: rest => gap? .block rest
  | .block, [] => none
  | _, [] => some []

/-- The strict spelling of what a backslash and a character stand for in a
    string, before the character `next`. The end of a line stands for nothing.
    A zero before another digit would look like a number, and is refused. -/
def escaped? (c : Char) (next : Option Char) : Option (List Char) :=
  if Written.isEscaped c then some ['\\', c]
  else if c = '\'' then some [c]
  else if c = 'v' then some (Written.escapeChar '\x0b')
  else if c = '0' then if next.any Char.isDigit then none else some (Written.escapeChar '\x00')
  else if isLineEnd c then some []
  else none

/-- Whether all characters are hexadecimal digits. -/
def areHex (cs : List Char) : Bool :=
  cs.all fun c => (Hex.digit? c).isSome

/-- The strict body of a string up to its closing quote, after the part that
    is known, last first. -/
def body? (quote : Char) (done : List Char) : List Char → Option (String × List Char)
  | [] => none
  | '\\' :: '\r' :: '\n' :: rest => body? quote done rest
  | '\\' :: 'x' :: a :: b :: rest =>
    if areHex [a, b] then body? quote (b :: a :: '0' :: '0' :: 'u' :: '\\' :: done) rest else none
  | '\\' :: 'u' :: a :: b :: c :: d :: rest =>
    if areHex [a, b, c, d] then body? quote (d :: c :: b :: a :: 'u' :: '\\' :: done) rest
    else none
  | '\\' :: c :: rest =>
    (escaped? c rest.head?).bind fun spelling => body? quote (spelling.reverse ++ done) rest
  | c :: rest =>
    -- The other kind of quote stands for itself and is escaped like a control.
    if c = quote then some (String.ofList done.reverse, rest)
    else body? quote ((Written.escapeChar c).reverse ++ done) rest

/-- The spelling of a number beyond all numbers. -/
def boundless : List Char := ['9', 'e', '9', '9', '9']

/-- A hexadecimal numeral, behind its mark. One that fits no word is spelled
    as a number beyond all numbers. -/
def hex? (cs : List Char) : Option (List Char × List Char) :=
  let digits := cs.takeWhile fun c => (Hex.digit? c).isSome
  if digits.isEmpty then none
  else
    let n := digits.foldl (fun n c => 16 * n + (Hex.digit? c).getD 0) 0
    some
      (if n < 0x10000000000000000 then Nat.toDigits 10 n else ['9', '.', '0', 'e', '9', '9', '9'],
        cs.drop digits.length)

/-- The exponent of a decimal, if there is one. -/
def exponent? : List Char → Option (List Char × List Char)
  | c :: rest =>
    if c = 'e' || c = 'E' then
      let sign := rest.takeWhile fun c => c == '+' || c == '-'
      let digits := (rest.drop sign.length).takeWhile Char.isDigit
      if 1 < sign.length || digits.isEmpty then none
      else some (c :: sign ++ digits, rest.drop (sign.length + digits.length))
    else some ([], c :: rest)
  | [] => some ([], [])

/-- A decimal without sign. On one side of its point the digits may be left
    out; the strict spelling has a zero there. -/
def decimal? (cs : List Char) : Option (List Char × List Char) :=
  let whole := cs.takeWhile Char.isDigit
  let rest := cs.drop whole.length
  let (point, rest) := match rest with
    | '.' :: rest => (true, rest)
    | rest => (false, rest)
  let fraction := if point then rest.takeWhile Char.isDigit else []
  let filled (digits : List Char) : List Char := if digits.isEmpty then ['0'] else digits
  if whole.isEmpty && fraction.isEmpty then none
  -- As in strict JSON, no zero stands in front of a digit.
  else if whole.head? = some '0' && 1 < whole.length then none
  else (exponent? (rest.drop fraction.length)).map fun (exponent, rest) =>
    (filled whole ++ (if point then '.' :: filled fraction else []) ++ exponent, rest)

/-- A number without sign. -/
def magnitude? : List Char → Option (List Char × List Char)
  | '0' :: x :: rest =>
    -- Without digits behind it the mark is none, and the zero stands alone.
    let hex := if x = 'x' || x = 'X' then hex? rest else none
    hex.or (decimal? ('0' :: x :: rest))
  | cs => decimal? cs

/-- The rest behind the word for infinity, in either length. -/
def infinity? (cs : List Char) : Option (List Char) :=
  let starts (word : List Char) : Bool := (cs.take word.length).map Char.toLower == word
  if starts ['i', 'n', 'f', 'i', 'n', 'i', 't', 'y'] then some (cs.drop 8)
  else if starts ['i', 'n', 'f'] then some (cs.drop 3)
  else none

/-- The number behind a sign. -/
def afterSign? (cs : List Char) : Option (List Char × List Char) :=
  ((infinity? cs).map fun rest => (boundless, rest)).or (magnitude? cs)

/-- The strict spelling of a number: it has no plus sign in front. -/
def number? : List Char → Option (List Char × List Char)
  | '+' :: cs => afterSign? cs
  | '-' :: cs => (afterSign? cs).map fun (spelling, rest) => ('-' :: spelling, rest)
  | cs => magnitude? cs

/-- The value of a word. -/
def ofWord? (word : List Char) : Option Written :=
  (Written.ofWord? word).or
    (match String.ofList (word.map Char.toLower) with
    | "inf" | "infinity" => some (.number (String.ofList boundless))
    | "nan" | "qnan" | "snan" => some .null
    | _ => none)

/-- Whether a character may stand in a name; a digit does not come first. -/
def isNameChar (first : Bool) (c : Char) : Bool :=
  c.isAlpha || (!first && c.isDigit) || c == '_' || c == '$' || (0x80 ≤ c.toNat && !isBlank c)

/-- The characters of a name, after those that are known, last first. A name
    may hold the numbers of characters. -/
def spanName (done : List Char) : List Char → List Char × List Char
  | '\\' :: 'u' :: a :: b :: c :: d :: rest =>
    if areHex [a, b, c, d] then spanName (d :: c :: b :: a :: 'u' :: '\\' :: done) rest
    else (done.reverse, '\\' :: 'u' :: a :: b :: c :: d :: rest)
  | c :: rest =>
    if isNameChar done.isEmpty c then spanName (c :: done) rest else (done.reverse, c :: rest)
  | [] => (done.reverse, [])

/-- A word that stands for a value, or else a name. -/
def wordOrName? (cs : List Char) : Option (RelaxedToken × List Char) :=
  let word := cs.takeWhile Char.isAlphanum
  match ofWord? word with
  | some tree => some (.scalar tree, cs.drop word.length)
  | none =>
    let (body, rest) := spanName [] cs
    if body.isEmpty then none else some (.name (String.ofList body), rest)

/-- The first token of a text that starts with one. -/
def token? : List Char → Option (RelaxedToken × List Char)
  | [] => none
  | c :: rest =>
    if c = '[' || c = ']' || c = '{' || c = '}' || c = ',' || c = ':' then some (.mark c, rest)
    else if c = '"' || c = '\'' then
      (body? c [] rest).map fun (body, rest) => (.scalar (.string body), rest)
    else if c = '+' || c = '-' || c = '.' || c.isDigit then
      (number? (c :: rest)).map fun (spelling, rest) =>
        (.scalar (.number (String.ofList spelling)), rest)
    else wordOrName? (c :: rest)

end RelaxedToken

end Fieldwork
