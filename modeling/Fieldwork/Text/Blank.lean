/-!
# Blank and Control Characters

Two classes of characters that the library tells apart from ordinary text.

Blanks are the characters of the Unicode property White_Space. They surround a
numeral or a path that somebody typed, and `trim` takes them off both ends
before the text is looked at. The zero-width characters (U+200B, U+FEFF) and
U+180E are not in the property, so they stay.

Controls are the two blocks of the Unicode category Cc, below the space and
after the tilde. A document key may not hold one.

## Main definitions

* `isBlank`: The Unicode property White_Space.
* `isControl`: The Unicode category Cc.
* `trimLeft`, `trim`: A text without the blanks before, or around it.
-/

namespace Fieldwork

namespace Text

/-- The Unicode property White_Space. -/
def isBlank (c : Char) : Bool :=
  let n := c.toNat
  (0x09 ≤ n && n ≤ 0x0d) || n == 0x20 || n == 0x85 || n == 0xa0 || n == 0x1680 ||
    (0x2000 ≤ n && n ≤ 0x200a) || n == 0x2028 || n == 0x2029 || n == 0x202f ||
    n == 0x205f || n == 0x3000

/-- The Unicode category Cc: the characters below the space, and those from
    delete to the end of the second control block. -/
def isControl (c : Char) : Bool :=
  c.toNat ≤ 0x1f || (0x7f ≤ c.toNat && c.toNat ≤ 0x9f)

/-- The text from its first character that is no blank. -/
def trimLeft (cs : List Char) : List Char :=
  cs.dropWhile isBlank

/-- The text without the blanks at its two ends. -/
def trim (cs : List Char) : List Char :=
  (trimLeft (trimLeft cs).reverse).reverse

end Text

end Fieldwork
