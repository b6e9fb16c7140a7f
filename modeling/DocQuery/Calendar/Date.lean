/-!
# Dates

Days of the proleptic Gregorian calendar, and their number counted from 1970-01-01.

## Main Definitions

* `Date` — year, month and day
* `Date.ofYmd?`, `Date.ofOrdinal?` — the day with given parts, if it exists
* `Date.dayNumber`, `Date.ofDayNumber` — the count of days since 1970-01-01
* `Date.ordinal`, `Date.weekday` — the place of a day in its year and in its week
* `Date.render` — `YYYY-MM-DD`

## Design Notes

Years run over a bounded range, so a date that can be written can also be shifted by an
offset only if it stays in that range.
-/

namespace DocQuery.Calendar

/-- A day of the Gregorian calendar. -/
structure Date where
  year : Int
  month : Nat
  day : Nat
deriving Repr, DecidableEq

/-- The least year of the calendar. -/
def minYear : Int := -262143

/-- The greatest year of the calendar. -/
def maxYear : Int := 262142

/-- Whether a year has 366 days. -/
def isLeapYear (year : Int) : Bool :=
  year % 4 == 0 && (year % 100 != 0 || year % 400 == 0)

/-- The number of days of a month, months counted from one. -/
def daysInMonth (year : Int) : Nat → Nat
  | 2 => if isLeapYear year then 29 else 28
  | 4 | 6 | 9 | 11 => 30
  | _ => 31

def daysInYear (year : Int) : Nat :=
  if isLeapYear year then 366 else 365

/-- Days of the year before a month begins. -/
def daysBeforeMonth (year : Int) : Nat → Nat
  | 0 => 0
  | 1 => 0
  | month + 1 => daysBeforeMonth year month + daysInMonth year month

/-- Days from the first of January of the year 0 to the first of January of a year. -/
def daysBeforeYear (year : Int) : Int :=
  let y := year - 1
  365 * year + Int.fdiv y 4 - Int.fdiv y 100 + Int.fdiv y 400 + 1

/-- The number of the first of January 1970, counted from the first of January of the year
0. -/
def epoch : Int := 719528

namespace Date

/-- The day with the given parts, if there is one within the years of the calendar. -/
def ofYmd? (year : Int) (month day : Nat) : Option Date :=
  if minYear ≤ year && year ≤ maxYear && 1 ≤ month && month ≤ 12 && 1 ≤ day &&
      day ≤ daysInMonth year month then
    some ⟨year, month, day⟩
  else none

/-- The place of a day in its year, counted from one. -/
def ordinal (d : Date) : Nat :=
  daysBeforeMonth d.year d.month + d.day

/-- The month that holds the `n`-th day of a year, searched upwards from `month`. -/
def monthOfOrdinal (year : Int) (n : Nat) : (fuel month : Nat) → Nat
  | 0, month => month
  | fuel + 1, month =>
    if n ≤ daysBeforeMonth year (month + 1) then month
    else monthOfOrdinal year n fuel (month + 1)

/-- The `n`-th day of a year, for `n` within the year. -/
def ofOrdinal (year : Int) (n : Nat) : Date :=
  let month := monthOfOrdinal year n 11 1
  ⟨year, month, n - daysBeforeMonth year month⟩

/-- The `n`-th day of a year, if there is one within the years of the calendar. -/
def ofOrdinal? (year : Int) (n : Nat) : Option Date :=
  if minYear ≤ year && year ≤ maxYear && 1 ≤ n && n ≤ daysInYear year then
    some (ofOrdinal year n)
  else none

/-- Days since 1970-01-01. -/
def dayNumber (d : Date) : Int :=
  daysBeforeYear d.year + d.ordinal - 1 - epoch

/-- The day with a given number.  The year is estimated from the mean length of a year,
and is right or one too large. -/
def ofDayNumber (n : Int) : Date :=
  let days := n + epoch
  let guess := Int.fdiv (400 * days) 146097 + 1
  let year :=
    if daysBeforeYear guess ≤ days then guess
    else if daysBeforeYear (guess - 1) ≤ days then guess - 1 else guess - 2
  ofOrdinal year ((days - daysBeforeYear year).toNat + 1)

/-- The place of a day in its week, Monday being zero. -/
def weekday (d : Date) : Nat :=
  ((d.dayNumber + 3) % 7).toNat

end Date

/-- Whether a day number belongs to a year of the calendar. -/
def inCalendar (n : Int) : Bool :=
  daysBeforeYear minYear - epoch ≤ n && n < daysBeforeYear (maxYear + 1) - epoch

/-! ### Written form -/

/-- A number with zeros in front, up to a width. -/
def padded (width n : Nat) : String :=
  let digits := Nat.toDigits 10 n
  String.ofList (List.replicate (width - digits.length) '0' ++ digits)

/-- A year: four digits, and a sign in front when it lies outside `0 … 9999`. -/
def renderYear (year : Int) : String :=
  if 0 ≤ year && year ≤ 9999 then padded 4 year.toNat
  else (if year < 0 then "-" else "+") ++ padded 4 year.natAbs

/-- `YYYY-MM-DD`. -/
def Date.render (d : Date) : String :=
  renderYear d.year ++ "-" ++ padded 2 d.month ++ "-" ++ padded 2 d.day

end DocQuery.Calendar
