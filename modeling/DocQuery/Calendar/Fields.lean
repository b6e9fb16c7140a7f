import DocQuery.Calendar.Instant

/-!
# Fields read from a written date

Reading a written date collects fields one by one; afterwards they are put together.  A
field may be read twice if both readings agree.

## Main Definitions

* `Fields` — what has been read so far
* `Fields.setYear` and its siblings — store a field, refusing values out of range or in
  conflict
* `Fields.date?`, `Fields.time?` — the date and the time of day the fields determine
* `Fields.local?`, `Fields.instant?` — the clock reading, and the point in time when an
  offset was read

## Design Notes

The hour is kept as its half of the day and its place in that half, so that a 24-hour
reading and a 12-hour reading with am or pm fill the same two fields.
-/

namespace DocQuery.Calendar

/-- The fields read so far. -/
structure Fields where
  year : Option Int := none
  yearOfCentury : Option Nat := none
  month : Option Nat := none
  day : Option Nat := none
  ordinal : Option Nat := none
  weekday : Option Nat := none
  halfDay : Option Nat := none
  hourOfHalf : Option Nat := none
  minute : Option Nat := none
  second : Option Nat := none
  nanosecond : Option Nat := none
  offset : Option Int := none

/-- A field that takes a value: unset before, or set to the same value. -/
def agree {α : Type} [BEq α] (old : Option α) (new : α) : Option (Option α) :=
  match old with
  | none => some (some new)
  | some value => if value == new then some (some new) else none

/-- A number within bounds. -/
def within (low high n : Nat) : Option Nat :=
  if low ≤ n && n ≤ high then some n else none

namespace Fields

def setYear (f : Fields) (n : Int) : Option Fields := do
  if n < -2147483648 || 2147483648 ≤ n then none
  return { f with year := ← agree f.year n }

def setYearOfCentury (f : Fields) (n : Nat) : Option Fields := do
  return { f with yearOfCentury := ← agree f.yearOfCentury (← within 0 99 n) }

def setMonth (f : Fields) (n : Nat) : Option Fields := do
  return { f with month := ← agree f.month (← within 1 12 n) }

def setDay (f : Fields) (n : Nat) : Option Fields := do
  return { f with day := ← agree f.day (← within 1 31 n) }

def setOrdinal (f : Fields) (n : Nat) : Option Fields := do
  return { f with ordinal := ← agree f.ordinal (← within 1 366 n) }

def setWeekday (f : Fields) (n : Nat) : Option Fields := do
  return { f with weekday := ← agree f.weekday n }

def setHalfDay (f : Fields) (n : Nat) : Option Fields := do
  return { f with halfDay := ← agree f.halfDay n }

def setHour (f : Fields) (n : Nat) : Option Fields := do
  let n ← within 0 23 n
  return { f with
    halfDay := ← agree f.halfDay (n / 12)
    hourOfHalf := ← agree f.hourOfHalf (n % 12) }

def setHour12 (f : Fields) (n : Nat) : Option Fields := do
  let n ← within 1 12 n
  return { f with hourOfHalf := ← agree f.hourOfHalf (n % 12) }

def setMinute (f : Fields) (n : Nat) : Option Fields := do
  return { f with minute := ← agree f.minute (← within 0 59 n) }

def setSecond (f : Fields) (n : Nat) : Option Fields := do
  return { f with second := ← agree f.second (← within 0 60 n) }

def setNanosecond (f : Fields) (n : Nat) : Option Fields := do
  return { f with nanosecond := ← agree f.nanosecond n }

def setOffset (f : Fields) (n : Int) : Option Fields := do
  return { f with offset := ← agree f.offset n }

/-- The year: the full one, which a two-digit one must then fit, or the two-digit one read
as a year from 1970 to 2069. -/
def resolvedYear? (f : Fields) : Option Int :=
  match f.year, f.yearOfCentury with
  | some y, none => some y
  | some y, some r => if 0 ≤ y && y % 100 == r then some y else none
  | none, some r => some (if r < 70 then 2000 + r else 1900 + r)
  | none, none => none

/-- Whether a date fits the fields that name its parts. -/
def fits (f : Fields) (d : Date) : Bool :=
  f.month.all (· == d.month) && f.day.all (· == d.day) && f.ordinal.all (· == d.ordinal) &&
    f.weekday.all (· == d.weekday)

/-- The date: from year, month and day, or else from year and day of the year. -/
def date? (f : Fields) : Option Date := do
  let year ← f.resolvedYear?
  let d ←
    match f.month, f.day, f.ordinal with
    | some month, some day, _ => Date.ofYmd? year month day
    | _, _, some ordinal => Date.ofOrdinal? year ordinal
    | _, _, _ => none
  if f.fits d then some d else none

/-- The time of day: hour and minute are needed, and a fraction needs its second.  Second
60 is a leap second. -/
def time? (f : Fields) : Option TimeOfDay := do
  let half ← f.halfDay
  let hour ← f.hourOfHalf
  let minute ← f.minute
  if f.nanosecond.isSome && f.second.isNone then none
  let (second, leap) := if f.second == some 60 then (59, 1000000000) else (f.second.getD 0, 0)
  return ⟨half * 12 + hour, minute, second, leap + f.nanosecond.getD 0⟩

/-- The clock reading, as a point in universal time. -/
def local? (f : Fields) : Option Instant := do
  return Instant.ofParts (← f.date?) (← f.time?)

/-- The point in time, which needs an offset of less than a day. -/
def instant? (f : Fields) : Option Instant := do
  let offset ← f.offset
  let reading ← f.local?
  if 86400 ≤ offset.natAbs then none
  reading.shift? offset

end Fields

end DocQuery.Calendar
