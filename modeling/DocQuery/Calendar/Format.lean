import DocQuery.Calendar.Fields
import DocQuery.Text.Basic

/-!
# Formats of written dates

A format is a list of items; each item reads a part of the text and stores a field.

## Main Definitions

* `Item`, `Format` — what a format consists of
* `Item.read`, `Format.read` — reading
* `Format.instant?`, `Format.local?`, `Format.date?` — a whole text read as a point in
  time, a clock reading or a date
* `internet?` — the strict date and time of the internet protocols

## Design Notes

Numbers may be preceded by blanks and may have fewer digits than their width.  Only a year
may carry a sign, and with a sign it may have any number of digits.
-/

namespace DocQuery.Calendar

open DocQuery.Text

/-- A part of a format. -/
inductive Item where
  /-- A character that stands for itself. -/
  | literal (c : Char)
  /-- A blank, which stands for any number of blanks. -/
  | blank (c : Char)
  | year
  | yearOfCentury
  | month
  | monthShort
  | monthLong
  | day
  | ordinal
  | hour
  | hour12
  | minute
  | second
  /-- Nothing, or a point and digits. -/
  | fraction
  /-- Exactly as many digits of the fraction. -/
  | fractionDigits (count : Nat)
  | halfDay
  | weekdayShort
  | weekdayLong
  | offset
deriving Repr, DecidableEq

/-- A format is read item by item. -/
abbrev Format := List Item

/-! ### Reading parts -/

/-- The number of up to `width` digits at the front, which must be at least `least`. -/
def readDigits (least width : Nat) (cs : List Char) : Option (Nat × List Char) :=
  let ds := (cs.take width).takeWhile Char.isDigit
  if ds.length < least || 9223372036854775808 ≤ Nat.ofDigitChars 10 ds 0 then none
  else some (Nat.ofDigitChars 10 ds 0, cs.drop ds.length)

def readNumber (width : Nat) (cs : List Char) : Option (Nat × List Char) :=
  readDigits 1 width (dropBlanks cs)

/-- A year after blanks: up to four digits, or a sign and any number of them. -/
def readYear (cs : List Char) : Option (Int × List Char) :=
  match dropBlanks cs with
  | '-' :: rest => (readDigits 1 rest.length rest).map fun (n, rest) => (-(n : Int), rest)
  | '+' :: rest => (readDigits 1 rest.length rest).map fun (n, rest) => ((n : Int), rest)
  | rest => (readDigits 1 4 rest).map fun (n, rest) => ((n : Int), rest)

/-- What follows a word written in any case. -/
def dropWord? (word : String) (cs : List Char) : Option (List Char) :=
  let n := word.length
  if n ≤ cs.length && sameWord word (String.ofList (cs.take n)) then some (cs.drop n)
  else none

/-- The place, from `index` on, of the first word that the text begins with. -/
def readName (index : Nat) (cs : List Char) : List String → Option (Nat × List Char)
  | [] => none
  | word :: words =>
    match dropWord? word cs with
    | some rest => some (index, rest)
    | none => readName (index + 1) cs words

def shortMonths : List String :=
  ["jan", "feb", "mar", "apr", "may", "jun", "jul", "aug", "sep", "oct", "nov", "dec"]

/-- What the full name of each month adds to the short one. -/
def monthEndings : List String :=
  ["uary", "ruary", "ch", "il", "", "e", "y", "ust", "tember", "ober", "ember", "ember"]

def shortWeekdays : List String :=
  ["mon", "tue", "wed", "thu", "fri", "sat", "sun"]

/-- What the full name of each day adds to the short one. -/
def weekdayEndings : List String :=
  ["day", "sday", "nesday", "rsday", "day", "urday", "day"]

/-- A short name, with the rest of the full name if it follows. -/
def readLongName (names endings : List String) (cs : List Char) :
    Option (Nat × List Char) := do
  let (index, rest) ← readName 0 cs names
  return (index, (dropWord? (endings.getD index "") rest).getD rest)

/-- Digits of a fraction of a second as nanoseconds; digits after the ninth are passed
over. -/
def readFraction (cs : List Char) : Option (Nat × List Char) := do
  let (n, rest) ← readDigits 1 9 cs
  let count := cs.length - rest.length
  return (n * Nat.pow 10 (9 - count), rest.dropWhile Char.isDigit)

def readPair : List Char → Option (Nat × List Char)
  | a :: b :: rest =>
    if a.isDigit && b.isDigit then some (Nat.ofDigitChars 10 [a, b] 0, rest) else none
  | _ => none

/-- An offset in seconds: a sign, two digits of hours, a separator, two digits of minutes. -/
def readOffset (separator : List Char → Option (List Char)) (cs : List Char) :
    Option (Int × List Char) := do
  let (negative, rest) ←
    match cs with
    | '+' :: rest => some (false, rest)
    | '-' :: rest => some (true, rest)
    | '−' :: rest => some (true, rest)
    | _ => none
  let (hours, rest) ← readPair rest
  let rest ← separator rest
  let (minutes, rest) ← readPair rest
  if 60 ≤ minutes then none
  let seconds : Int := hours * 3600 + minutes * 60
  return (if negative then -seconds else seconds, rest)

def dropChar? (c : Char) : List Char → Option (List Char)
  | a :: rest => if a == c then some rest else none
  | [] => none

/-! ### Reading with a format -/

/-- Reads one item at the front of the text. -/
def Item.read (item : Item) (f : Fields) (cs : List Char) : Option (Fields × List Char) := do
  let number (width : Nat) (set : Fields → Nat → Option Fields) :
      Option (Fields × List Char) := do
    let (n, rest) ← readNumber width cs
    return (← set f n, rest)
  match item with
  | .literal c => return (f, ← dropChar? c cs)
  | .blank _ => return (f, dropBlanks cs)
  | .year =>
    let (n, rest) ← readYear cs
    return (← f.setYear n, rest)
  | .yearOfCentury => number 2 Fields.setYearOfCentury
  | .month => number 2 Fields.setMonth
  | .monthShort =>
    let (index, rest) ← readName 0 cs shortMonths
    return (← f.setMonth (index + 1), rest)
  | .monthLong =>
    let (index, rest) ← readLongName shortMonths monthEndings cs
    return (← f.setMonth (index + 1), rest)
  | .day => number 2 Fields.setDay
  | .ordinal => number 3 Fields.setOrdinal
  | .hour => number 2 Fields.setHour
  | .hour12 => number 2 Fields.setHour12
  | .minute => number 2 Fields.setMinute
  | .second => number 2 Fields.setSecond
  | .fraction =>
    match cs with
    | '.' :: rest =>
      let (n, rest) ← readFraction rest
      return (← f.setNanosecond n, rest)
    | _ => return (f, cs)
  | .fractionDigits count =>
    let (n, rest) ← readDigits count count cs
    return (← f.setNanosecond (n * Nat.pow 10 (9 - count)), rest)
  | .halfDay =>
    let (index, rest) ← readName 0 cs ["am", "pm"]
    return (← f.setHalfDay index, rest)
  | .weekdayShort =>
    let (index, rest) ← readName 0 cs shortWeekdays
    return (← f.setWeekday index, rest)
  | .weekdayLong =>
    let (index, rest) ← readLongName shortWeekdays weekdayEndings cs
    return (← f.setWeekday index, rest)
  | .offset =>
    let (n, rest) ←
      readOffset (fun rest => some (rest.dropWhile fun c => c == ':' || isBlank c))
        (dropBlanks cs)
    return (← f.setOffset n, rest)

namespace Format

/-- Reads the items in order; the text must be used up. -/
def readFrom (f : Fields) : Format → List Char → Option Fields
  | [], [] => some f
  | [], _ :: _ => none
  | item :: items, cs => do
    let (f, rest) ← item.read f cs
    readFrom f items rest

/-- The fields of a text written in a format. -/
def read (format : Format) (text : String) : Option Fields :=
  format.readFrom {} text.toList

/-- A text read as a point in time, which needs an offset. -/
def instant? (format : Format) (text : String) : Option Instant := do
  (← format.read text).instant?

/-- A text read as a clock reading in universal time. -/
def local? (format : Format) (text : String) : Option Instant := do
  (← format.read text).local?

/-- A text read as a date; a time that is also written is not looked at. -/
def date? (format : Format) (text : String) : Option Date := do
  (← format.read text).date?

end Format

/-- `YYYY-MM-DD`. -/
def isoDate : Format :=
  [.year, .literal '-', .month, .literal '-', .day]

/-- `YYYYMMDD`. -/
def compactDate : Format :=
  [.year, .month, .day]

def clockMinutes : Format :=
  [.hour, .literal ':', .minute]

/-- Hours, minutes and seconds with an optional fraction. -/
def clockSeconds : Format :=
  clockMinutes ++ [.literal ':', .second, .fraction]

/-! ### Internet date and time -/

/-- A number of exactly `width` digits. -/
def readExact (width : Nat) (cs : List Char) : Option (Nat × List Char) :=
  readDigits width width cs

/-- The offset of an internet time: the letter for universal time, or a sign, hours, a
colon and minutes. -/
def readInternetOffset (cs : List Char) : Option (Int × List Char) :=
  match cs with
  | 'Z' :: rest => some (0, rest)
  | 'z' :: rest => some (0, rest)
  | _ => readOffset (dropChar? ':') cs

/-- The strict internet form: every field of fixed width, `T`, `t` or one space between
date and time, seconds with an optional fraction, and an offset. -/
def internet? (text : String) : Option Instant := do
  let f : Fields := {}
  let (year, cs) ← readExact 4 text.toList
  let f ← f.setYear year
  let (month, cs) ← readExact 2 (← dropChar? '-' cs)
  let f ← f.setMonth month
  let (day, cs) ← readExact 2 (← dropChar? '-' cs)
  let f ← f.setDay day
  let cs ←
    match cs with
    | 'T' :: rest => some rest
    | 't' :: rest => some rest
    | ' ' :: rest => some rest
    | _ => none
  let (hour, cs) ← readExact 2 cs
  let f ← f.setHour hour
  let (minute, cs) ← readExact 2 (← dropChar? ':' cs)
  let f ← f.setMinute minute
  let (second, cs) ← readExact 2 (← dropChar? ':' cs)
  let f ← f.setSecond second
  let (f, cs) ← Item.fraction.read f cs
  let (offset, cs) ← readInternetOffset cs
  let f ← f.setOffset offset
  if !cs.isEmpty then none
  f.instant?

end DocQuery.Calendar
