/-!
# Text Layout

Texts and numbers set in columns.

Widths count characters. A text that is wider than its column keeps its width;
a shorter one is filled up on the side that its alignment leaves open, and
when it is centred the odd character of filling goes to the right.

## Main definitions

* `Align`: Where a text stands in its column.
* `column`: A text filled up to a width.
* `clip`: The first characters of a text.
* `zeroFilled`, `signed`: Two forms of a number.
-/

namespace Fieldwork

namespace Layout

/-- Where a text stands in its column. -/
inductive Align where
  /-- At the left edge. -/
  | left
  /-- In the middle. -/
  | centre
  /-- At the right edge. -/
  | right
  deriving DecidableEq

/-- A text filled up to a width. -/
def column (align : Align) (fill : Char) (width : Nat) (text : List Char) : List Char :=
  let missing := width - text.length
  let before := match align with
    | .left => 0
    | .centre => missing / 2
    | .right => missing
  List.replicate before fill ++ text ++ List.replicate (missing - before) fill

/-- The first characters of a text. -/
def clip (count : Nat) (text : List Char) : List Char :=
  text.take count

/-- A number with zeros in front up to a width. -/
def zeroFilled (width n : Nat) : List Char :=
  column .right '0' width (Nat.toDigits 10 n)

/-- A number with its sign, also when it is positive. -/
def signed (n : Nat) : List Char :=
  '+' :: Nat.toDigits 10 n

end Layout

end Fieldwork
