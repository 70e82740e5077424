import Fieldwork.Moment.Basic

/-!
# Moments as Text

The date and time format of RFC 3339.

A text is a date of four, two and two digits, any one ASCII character, a time
of day with an optional fraction, and an offset that is `Z` or hours and
minutes with a sign. Digits of the fraction after the ninth are dropped. A
second of sixty is a leap second: the clock has no such reading, so it becomes
the last nanosecond of the minute, and it is accepted only where UTC can have
one, at the end of a month.

Writing gives `T` and `Z`, a fraction without zeros at its end, and no
fraction if it is zero. A year outside of four digits has no text.

## Main definitions

* `digits?`: A fixed count of digits and the rest.
* `Moment.ofText?`: Reading.
* `Moment.text?`: Writing.

## Theorems

* `digits?_padded`: A padded number reads back.
-/

namespace Fieldwork

namespace Moment

/-- The value of the first `count` characters, all of them digits, and the
    rest. -/
def digits? (count : Nat) (cs : List Char) : Option (Nat × List Char) :=
  let digits := cs.take count
  if digits.length = count ∧ digits.all Char.isDigit then
    some (Nat.ofDigitChars 10 digits 0, cs.drop count)
  else none

/-- A number with zeros in front up to a width. -/
def padded (width n : Nat) : List Char :=
  let digits := Nat.toDigits 10 n
  List.replicate (width - digits.length) '0' ++ digits

/-- The rest after one character that has to come next. -/
def char? (expected : Char) : List Char → Option (List Char)
  | c :: rest => if c = expected then some rest else none
  | [] => none

/-- The nanoseconds of an optional fraction of a second, and the rest. -/
def fraction? : List Char → Option (Nat × List Char)
  | '.' :: cs =>
    match cs.takeWhile Char.isDigit with
    | [] => none
    | digits =>
      some (Nat.ofDigitChars 10 ((digits ++ List.replicate 9 '0').take 9) 0,
        cs.dropWhile Char.isDigit)
  | cs => some (0, cs)

/-- The minutes of an offset, which ends the text. -/
def offset? : List Char → Option Int
  | ['Z'] => some 0
  | ['z'] => some 0
  | sign :: cs => do
    let negative ← if sign = '+' then some false else if sign = '-' then some true else none
    let (hour, cs) ← digits? 2 cs
    let cs ← char? ':' cs
    let (minute, cs) ← digits? 2 cs
    if hour < 24 ∧ minute < 60 ∧ cs = [] then
      let minutes : Int := hour * 60 + minute
      some (if negative then -minutes else minutes)
    else none
  | [] => none

/-- Whether a UTC clock shows the last second of a month. -/
def endsMonth (m : Moment) : Bool :=
  let minutes := m.unixMinutes
  let utc := Date.ofDays (minutes / 1440)
  minutes % 1440 == 1439 && m.second == 59 && utc.day == Date.daysInMonth utc.year utc.month

/-- The moment with these parts, if the clock can show them. -/
def ofParts? (date : Date) (hour minute second nanosecond : Nat) (offset : Int) : Option Moment :=
  if date.IsReal ∧ hour < 24 ∧ minute < 60 then
    if second < 60 then some ⟨date, hour, minute, second, nanosecond, offset⟩
    else if second = 60 then
      -- The fraction of a leap second is dropped with it.
      let last : Moment := ⟨date, hour, minute, 59, 999999999, offset⟩
      if last.endsMonth then some last else none
    else none
  else none

/-- Reads a moment. -/
def ofText? (cs : List Char) : Option Moment := do
  let (year, cs) ← digits? 4 cs
  let cs ← char? '-' cs
  let (month, cs) ← digits? 2 cs
  let cs ← char? '-' cs
  let (day, cs) ← digits? 2 cs
  let cs ← match cs with
    | separator :: rest => if separator.toNat < 128 then some rest else none
    | [] => none
  let (hour, cs) ← digits? 2 cs
  let cs ← char? ':' cs
  let (minute, cs) ← digits? 2 cs
  let cs ← char? ':' cs
  let (second, cs) ← digits? 2 cs
  let (nanosecond, cs) ← fraction? cs
  let offset ← offset? cs
  ofParts? ⟨year, month, day⟩ hour minute second nanosecond offset

/-- The fraction of a second, without zeros at its end. -/
def fractionText (nanosecond : Nat) : List Char :=
  if nanosecond = 0 then []
  else '.' :: ((padded 9 nanosecond).reverse.dropWhile (· == '0')).reverse

/-- The offset of a clock. -/
def offsetText (offset : Int) : List Char :=
  if offset = 0 then ['Z']
  else
    (if offset < 0 then '-' else '+') ::
      padded 2 (offset.natAbs / 60) ++ ':' :: padded 2 (offset.natAbs % 60)

/-- Writes a moment whose year has four digits. -/
def text? (m : Moment) : Option (List Char) :=
  if 0 ≤ m.date.year ∧ m.date.year ≤ 9999 then
    some (padded 4 m.date.year.toNat ++ '-' :: padded 2 m.date.month ++ '-' ::
      padded 2 m.date.day ++ 'T' :: padded 2 m.hour ++ ':' :: padded 2 m.minute ++ ':' ::
      padded 2 m.second ++ fractionText m.nanosecond ++ offsetText m.offset)
  else none

/-- A padded number has the width it is padded to, if it fits. -/
theorem length_padded {width n : Nat} (hw : 0 < width) (h : n < Nat.pow 10 width) :
    (padded width n).length = width := by
  have := (Nat.length_toDigits_le_iff (b := 10) (n := n) (by decide) hw).2 h
  simp only [padded, List.length_append, List.length_replicate]
  omega

/-- A padded number reads back, whatever follows it. -/
theorem digits?_padded {width n : Nat} (hw : 0 < width) (h : n < Nat.pow 10 width)
    (rest : List Char) :
    digits? width (padded width n ++ rest) = some (n, rest) := by
  have hlen := length_padded hw h
  have htake : (padded width n ++ rest).take width = padded width n := by
    rw [List.take_append_of_le_length (by omega), List.take_of_length_le (by omega)]
  have hdrop : (padded width n ++ rest).drop width = rest := by
    rw [List.drop_append, List.drop_of_length_le (by omega), hlen]
    simp
  have hdigits : (padded width n).all Char.isDigit = true := by
    rw [List.all_eq_true]
    intro c hc
    simp only [padded, List.mem_append, List.mem_replicate] at hc
    rcases hc with ⟨-, rfl⟩ | hc
    · decide
    · exact Nat.isDigit_of_mem_toDigits (by decide) (by decide) hc
  have hvalue : Nat.ofDigitChars 10 (padded width n) 0 = n := by
    simp [padded, Nat.ofDigitChars_append, Nat.ofDigitChars_replicate_zero]
  simp only [digits?, htake, hdrop, hlen, hdigits, hvalue]
  simp

end Moment

end Fieldwork
