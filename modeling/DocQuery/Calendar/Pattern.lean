import DocQuery.Calendar.Format

/-!
# Letter patterns

Dates in queries are described by patterns such as `yyyy-MM-dd HH:mm:ss`: a run of one
letter names a field, text between single quotes and every other character stand for
themselves.

## Main Definitions

* `letterItem` — the item that a run of one letter stands for
* `quotedText` — the decoded text of a quoted section
* `formatOfPattern` — the format of a pattern
* `readWithPattern` — a text read with a pattern

## Design Notes

A blank in a pattern matches any number of blanks, also none.  A quoted section that is
never closed reaches to the end of the pattern, and a quote inside a section is written
twice.
-/

namespace DocQuery.Calendar

open DocQuery.Text

/-- The item that a run of `count` equal letters stands for. -/
def letterItem (letter : Char) (count : Nat) : Option Item :=
  match letter with
  | 'y' | 'u' => some (if count == 2 then .yearOfCentury else .year)
  | 'M' => some (if count ≤ 2 then .month else if count == 3 then .monthShort else .monthLong)
  | 'd' => some .day
  | 'D' => some .ordinal
  | 'H' => some .hour
  | 'h' => some .hour12
  | 'm' => some .minute
  | 's' => some .second
  | 'S' =>
    if count == 3 || count == 6 || count == 9 then some (.fractionDigits count) else none
  | 'a' => some .halfDay
  | 'E' => some (if count ≤ 3 then .weekdayShort else .weekdayLong)
  | 'X' | 'x' | 'Z' => some .offset
  | _ => none

/-- A character that stands for itself. -/
def literalItem (c : Char) : Item :=
  if isBlank c then .blank c else .literal c

/-- The decoded text of a quoted section, entered after its opening quote, and what
follows it. -/
def quotedText : List Char → List Char × List Char
  | [] => ([], [])
  | '\'' :: '\'' :: rest =>
    let (text, after) := quotedText rest
    ('\'' :: text, after)
  | c :: rest =>
    if c == '\'' then ([], rest)
    else
      let (text, after) := quotedText rest
      (c :: text, after)

@[simp] theorem quotedText_nil : quotedText [] = ([], []) := rfl

/-- The format of a pattern, with a bound on the number of its sections. -/
def formatOfChars : (fuel : Nat) → List Char → Option Format
  | _, [] => some []
  | 0, _ :: _ => none
  | fuel + 1, c :: rest =>
    if c == '\'' then do
      let (text, after) := quotedText rest
      return text.map literalItem ++ (← formatOfChars fuel after)
    else if c.isAlpha then do
      let run := rest.takeWhile (· == c)
      let item ← letterItem c (run.length + 1)
      return item :: (← formatOfChars fuel (rest.drop run.length))
    else do
      return literalItem c :: (← formatOfChars fuel rest)

/-- The format of a pattern; none if it has a run of letters that names no field. -/
def formatOfPattern (pattern : String) : Option Format :=
  formatOfChars pattern.length pattern.toList

/-- A text read with a pattern: as a point in time if the pattern has an offset, else as a
clock reading in universal time, else as midnight of a date. -/
def readWithPattern (pattern text : String) : Option Instant := do
  let format ← formatOfPattern pattern
  (format.instant? text).or ((format.local? text).or ((format.date? text).map Instant.ofDate))

end DocQuery.Calendar
