import Fieldwork.Moment.Date
import Fieldwork.Toml.Basic

/-!
# TOML Scalars

The values that are written without marks: truth values, numbers, and dates
and times.

Digits may be grouped by underscores, each of which has a digit on both sides;
a sign in front passes for one. A decimal number does not start with a zero
unless it is zero; a whole number may also be written in one of three other
bases. A time may leave out its seconds.

A whole number is told by how it begins. Behind its first underscore only what
stands beside an underscore is looked at, and behind the mark of a base there
may be nothing: such a value is in order as long as nobody wants its number.

## Main definitions

* `ungroup?`: A number without its underscores.
* `whole?`, `isFloat`, `isMoment`: The kinds of scalars.
* `scalar?`: The value of a token.
-/

namespace Fieldwork

namespace Toml

namespace Scalar

/-- A number without its underscores. `before` says whether what is in front
    of it passes for a digit. -/
def ungroup? (isDigit : Char → Bool) (before : Bool) : List Char → Option (List Char)
  | [] => some []
  | c :: rest =>
    if c = '_' then
      if before && rest.head?.any isDigit then ungroup? isDigit false rest else none
    else (ungroup? isDigit (isDigit c) rest).map (c :: ·)

/-- A token behind its sign, and whether it has one. -/
def afterSign : List Char → Bool × List Char
  | '-' :: rest | '+' :: rest => (true, rest)
  | cs => (false, cs)

/-- Whether a character marks an exponent. -/
def isExponentMark (c : Char) : Bool :=
  c == 'e' || c == 'E'

/-- A whole number behind the mark of its base. -/
def inBase? (base : Nat) (digits : List Char) : Option Whole :=
  if digits.all fun c => isDigitOf base c || c == '_' then
    (ungroup? (isDigitOf base) false digits).map fun spelling => ⟨base, spelling⟩
  else none

/-- A whole number without the mark of a base: digits, and whatever follows
    their first underscore if it does not make the number one with a
    fraction. -/
def decimal? (token : List Char) : Option Whole :=
  let (signed, digits) := afterSign token
  let rest := digits.dropWhile Char.isDigit
  let isOther := rest.any fun c => c == '.' || c == ' ' || isExponentMark c
  if digits.isEmpty || isOther || (digits.head? = some '0' && 1 < digits.length) then none
  else if rest.isEmpty || rest.head? = some '_' then
    -- The digits of any base pass beside an underscore.
    (ungroup? (isDigitOf 16) signed digits).map fun spelling =>
      ⟨10, token.take (token.length - digits.length) ++ spelling⟩
  else none

/-- A whole number. -/
def whole? : List Char → Option Whole
  | '0' :: 'x' :: digits => inBase? 16 digits
  | '0' :: 'o' :: digits => inBase? 8 digits
  | '0' :: 'b' :: digits => inBase? 2 digits
  | token => decimal? token

/-- The rest of a token behind digits and underscores, of which at least one
    is a digit. A zero comes before other digits only if `padded`. -/
def afterDigits? (padded : Bool) (cs : List Char) : Option (List Char) :=
  let run := cs.takeWhile fun c => c.isDigit || c == '_'
  let count := run.countP Char.isDigit
  if count = 0 || (!padded && run.head? = some '0' && 1 < count) then none
  else some (cs.drop run.length)

/-- The rest of a token behind a fraction, if there is one. -/
def afterFraction? : List Char → Option (List Char)
  | '.' :: rest => afterDigits? true rest
  | cs => some cs

/-- The rest of a token behind an exponent, if there is one. -/
def afterExponent? : List Char → Option (List Char)
  | c :: rest => if isExponentMark c then afterDigits? true (afterSign rest).2 else some (c :: rest)
  | [] => some []

/-- Whether a token is a number with a fraction or an exponent, or none of the
    finite ones. -/
def isFloat (token : List Char) : Bool :=
  let (signed, digits) := afterSign token
  if digits = ['i', 'n', 'f'] || digits = ['n', 'a', 'n'] then true
  else
    ((afterDigits? false digits).bind fun rest =>
      if rest.isEmpty then none else (afterFraction? rest).bind afterExponent?) = some [] &&
    (ungroup? Char.isDigit signed digits).isSome

/-- The number of two digits. -/
def pair? : List Char → Option (Nat × List Char)
  | a :: b :: rest =>
    if a.isDigit && b.isDigit then some (inBase 10 [a, b], rest) else none
  | _ => none

/-- The rest of a token after a date that the calendar has. -/
def afterDate? (cs : List Char) : Option (List Char) :=
  let year := cs.take 4
  if year.length = 4 && year.all Char.isDigit then
    match cs.drop 4 with
    | '-' :: rest =>
      (pair? rest).bind fun (month, rest) =>
        match rest with
        | '-' :: rest =>
          (pair? rest).bind fun (day, rest) =>
            if (⟨inBase 10 year, month, day⟩ : Date).IsReal then some rest else none
        | _ => none
    | _ => none
  else none

/-- The rest of a token after the seconds of a time, if it has any. -/
def afterSeconds? : List Char → Option (List Char)
  | ':' :: rest =>
    (pair? rest).bind fun (second, rest) =>
      if 60 < second then none
      else match rest with
        | '.' :: rest =>
          let fraction := rest.takeWhile Char.isDigit
          if fraction.isEmpty then none else some (rest.drop fraction.length)
        | rest => some rest
  | cs => some cs

/-- The rest of a token after hours and minutes. -/
def afterMinutes? (cs : List Char) : Option (List Char) :=
  (pair? cs).bind fun (hour, rest) =>
    match rest with
    | ':' :: rest =>
      (pair? rest).bind fun (minute, rest) =>
        if hour < 24 && minute < 60 then some rest else none
    | _ => none

/-- The rest of a token after a time of day. -/
def afterTime? (cs : List Char) : Option (List Char) :=
  (afterMinutes? cs).bind afterSeconds?

/-- Whether what is left of a token is an offset from universal time. -/
def isOffset : List Char → Bool
  | [] | ['Z'] | ['z'] => true
  | '+' :: rest | '-' :: rest => afterMinutes? rest = some []
  | _ => false

/-- Whether a character stands between a date and a time. -/
def isTimeMark (c : Char) : Bool :=
  c == 'T' || c == 't' || c == ' '

/-- Whether a token is a date, a time or both. -/
def isMoment (cs : List Char) : Bool :=
  match afterDate? cs with
  | some [] => true
  | some (mark :: rest) => isTimeMark mark && (afterTime? rest).any isOffset
  | none => afterTime? cs = some []

end Scalar

/-- The value of a token without marks. -/
def scalar? (token : List Char) : Option Toml :=
  match token with
  | ['t', 'r', 'u', 'e'] => some (boolean true)
  | ['f', 'a', 'l', 's', 'e'] => some (boolean false)
  | _ =>
    match Scalar.whole? token with
    | some number => some (integer number)
    | none =>
      if Scalar.isFloat token then some (float (String.ofList token))
      else if Scalar.isMoment token then some (moment (String.ofList token))
      else none

end Toml

end Fieldwork
