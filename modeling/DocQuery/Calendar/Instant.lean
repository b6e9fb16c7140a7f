import DocQuery.Calendar.Date

/-!
# Times and instants

A time of day with nanoseconds, and a point in time counted in seconds from the start of
1970 in universal time.

## Main Definitions

* `TimeOfDay` — hour, minute, second and nanosecond
* `Instant` — seconds since 1970-01-01 and nanoseconds
* `Instant.ofParts`, `Instant.date`, `Instant.time` — from and to a date and a time
* `Instant.render` — the form used in documents
* `Instant.renderLiteral` — the form used in expressions

## Design Notes

A leap second is the second before it with a nanosecond count of one thousand million or
more.  It is shown as second 60 of its minute, and moving it by whole minutes keeps it
one.
-/

namespace DocQuery.Calendar

/-- A time of day.  In a leap second `nanosecond` is at least `10 ^ 9`. -/
structure TimeOfDay where
  hour : Nat
  minute : Nat
  second : Nat
  nanosecond : Nat
deriving Repr, DecidableEq

/-- A point in time.  In a leap second `nanos` is at least `10 ^ 9`. -/
structure Instant where
  seconds : Int
  nanos : Nat
deriving Repr, DecidableEq

namespace Instant

/-- The point in time of a date and a time of day in universal time. -/
def ofParts (d : Date) (t : TimeOfDay) : Instant :=
  ⟨d.dayNumber * 86400 + t.hour * 3600 + t.minute * 60 + t.second, t.nanosecond⟩

/-- Midnight of a date in universal time. -/
def ofDate (d : Date) : Instant :=
  ofParts d ⟨0, 0, 0, 0⟩

/-- The number of the day that holds a point in time. -/
def dayNumber (i : Instant) : Int :=
  Int.fdiv i.seconds 86400

/-- The day that holds a point in time. -/
def date (i : Instant) : Date :=
  Date.ofDayNumber i.dayNumber

/-- The time of day of a point in time. -/
def time (i : Instant) : TimeOfDay :=
  let s := (Int.fmod i.seconds 86400).toNat
  ⟨s / 3600, s / 60 % 60, s % 60, i.nanos⟩

/-- The point in time with given parts, if it lies in the calendar.  Nanoseconds of a leap
second are only accepted in the last second of a minute. -/
def ofSeconds? (seconds : Int) (nanos : Nat) : Option Instant :=
  let i : Instant := ⟨seconds, nanos⟩
  if nanos < 2000000000 && (nanos < 1000000000 || Int.fmod seconds 60 == 59) &&
      inCalendar i.dayNumber then
    some i
  else none

/-- The same reading of the clock at an offset east of universal time, given in seconds. -/
def shift? (i : Instant) (offset : Int) : Option Instant :=
  let moved : Instant := ⟨i.seconds - offset, i.nanos⟩
  if inCalendar moved.dayNumber then some moved else none

end Instant

/-! ### Written forms -/

/-- `HH:MM:SS`, a leap second being second 60. -/
def TimeOfDay.render (t : TimeOfDay) : String :=
  let second := if t.nanosecond < 1000000000 then t.second else t.second + 1
  padded 2 t.hour ++ ":" ++ padded 2 t.minute ++ ":" ++ padded 2 second

/-- The fraction of a second: nothing, or a point and three, six or nine digits. -/
def renderFraction (nanosecond : Nat) : String :=
  let n := nanosecond % 1000000000
  if n == 0 then ""
  else if n % 1000000 == 0 then "." ++ padded 3 (n / 1000000)
  else if n % 1000 == 0 then "." ++ padded 6 (n / 1000)
  else "." ++ padded 9 n

/-- `YYYY-MM-DDTHH:MM:SS.mmmZ`, cut to milliseconds. -/
def Instant.render (i : Instant) : String :=
  i.date.render ++ "T" ++ i.time.render ++ "." ++
    padded 3 (i.nanos % 1000000000 / 1000000) ++ "Z"

/-- `YYYY-MM-DD HH:MM:SS` and the fraction of the second. -/
def Instant.renderLiteral (i : Instant) : String :=
  i.date.render ++ " " ++ i.time.render ++ renderFraction i.nanos

end DocQuery.Calendar
