import Fieldwork.Moment.Date

/-!
# Moments

Points in time with the local clock on which they were read.

A moment is a local date and time of day to the nanosecond, and the offset of
that clock from UTC in minutes. Two moments of one instant on different clocks
are different moments: the offset is part of what was written, and is written
again.

The instant is a count of nanoseconds from the epoch. Counting goes from the
clock to the instant for every moment; the way back is defined for whole
milliseconds and gives a clock that shows UTC.

## Main definitions

* `Moment`: A local clock reading and its offset.
* `Moment.unixNanos`, `Moment.unixMillis`: The instant.
* `Moment.ofUnixMillis?`: The UTC clock at an instant.

## Theorems

* `unixMillis_ofUnixMillis`: The UTC clock at an instant shows that instant.
-/

namespace Fieldwork

/-- A reading of a local clock. -/
@[ext]
structure Moment where
  /-- The local date. -/
  date : Date
  /-- The hour of the day. -/
  hour : Nat
  /-- The minute of the hour. -/
  minute : Nat
  /-- The second of the minute. -/
  second : Nat
  /-- The nanosecond of the second. -/
  nanosecond : Nat
  /-- The minutes that the clock is ahead of UTC. -/
  offset : Int
  deriving DecidableEq, Inhabited

namespace Moment

/-- The minutes from the epoch, in UTC. -/
def unixMinutes (m : Moment) : Int :=
  m.date.toDays * 1440 + m.hour * 60 + m.minute - m.offset

/-- The nanoseconds from the epoch. -/
def unixNanos (m : Moment) : Int :=
  (m.unixMinutes * 60 + m.second) * 1000000000 + m.nanosecond

/-- The milliseconds from the epoch; a part of one is dropped. -/
def unixMillis (m : Moment) : Int :=
  m.unixNanos.tdiv 1000000

/-- The years that a moment can have. -/
def yearRange : Int × Int :=
  (-9999, 9999)

/-- The UTC clock at an instant. -/
def ofUnixMillis (millis : Int) : Moment :=
  let ofDay := millis % 86400000
  { date := Date.ofDays (millis / 86400000)
    hour := (ofDay / 3600000).toNat
    minute := (ofDay / 60000 % 60).toNat
    second := (ofDay / 1000 % 60).toNat
    nanosecond := (ofDay % 1000 * 1000000).toNat
    offset := 0 }

/-- The UTC clock at an instant whose year is in range. -/
def ofUnixMillis? (millis : Int) : Option Moment :=
  let m := ofUnixMillis millis
  if yearRange.1 ≤ m.date.year ∧ m.date.year ≤ yearRange.2 then some m else none

/-- The UTC clock at an instant shows that instant. -/
theorem unixMillis_ofUnixMillis (millis : Int) : (ofUnixMillis millis).unixMillis = millis := by
  -- The parts of the day put the day together again, whatever its date.
  have nanos : (ofUnixMillis millis).unixNanos = millis * 1000000 := by
    simp only [unixNanos, unixMinutes, ofUnixMillis, Date.toDays_ofDays]
    omega
  rw [unixMillis, nanos]
  exact Int.mul_tdiv_cancel _ (by decide)

end Moment

end Fieldwork
