import DocQuery.Calendar.Format
import DocQuery.Scan.Token
import DocQuery.Sql.Literal

/-!
# Reading literals and operators

## Main Definitions

* `stringLiteral`, `numberLiteral`, `datedLiteral` — constants
* `comparison` — a comparison operator, if one comes next
-/

namespace DocQuery.Sql.Grammar

open DocQuery.Scan

/-- A string between single quotes, kept raw. -/
def stringLiteral : Parser Literal := do
  skipBlanks
  return .string (← quoted '\'')

/-- A point with a digit after it, and the digits. -/
def fractionPart : Parser (List Char) := do
  if (← current) == '.' && (← peek 1).isDigit then
    advance 1
    return '.' :: (← takeChars Char.isDigit)
  else return []

/-- An exponent mark with a digit after it or after a sign, and the digits. -/
def exponentPart : Parser (List Char) := do
  let mark ← current
  let next ← peek 1
  let signed := next == '+' || next == '-'
  if (mark == 'e' || mark == 'E') && (next.isDigit || (signed && (← peek 2).isDigit)) then
    advance 2
    return mark :: next :: (← takeChars Char.isDigit)
  else return []

/-- A number without sign.  Digits alone are a whole number if it fits 64 bits, everything
else is a double. -/
def numberLiteral : Parser Literal := do
  skipBlanks
  let mark ← get
  let whole ← takeChars Char.isDigit
  let fraction ← fractionPart
  let exponent ← exponentPart
  let text := whole ++ fraction ++ exponent
  let int? := if fraction.isEmpty && exponent.isEmpty then Decimal.readInt? text else none
  match int? with
  | some n => return .int n
  | none =>
    match Decimal.readFloat? text with
    | some x => return .float x
    | none => failAt mark .invalidNumber

/-- The formats of a timestamp literal. -/
def timestampFormats : List Calendar.Format := [
  Calendar.isoDate ++ .blank ' ' :: Calendar.clockSeconds,
  Calendar.isoDate ++ .literal 'T' :: Calendar.clockSeconds,
  Calendar.isoDate ++ .blank ' ' :: Calendar.clockMinutes]

/-- The quoted part of a date or timestamp literal. -/
def datedLiteral (timestamp : Bool) : Parser Literal := do
  skipBlanks
  let mark ← get
  let text := Text.trim (← quoted '\'')
  if timestamp then
    match timestampFormats.findSome? (·.local? text) with
    | some t => return .timestamp t
    | none => failAt mark .invalidTimestamp
  else
    match Calendar.isoDate.date? text with
    | some d => return .date d
    | none => failAt mark .invalidDate

/-- A comparison operator, if one comes next.  Two equal signs are never one. -/
def comparison : Parser (Option Comparison) := do
  skipBlanks
  let mark ← get
  let found (op : Comparison) (width : Nat) : Parser (Option Comparison) := do
    advance width
    return some op
  match front mark, peekAt 1 mark with
  | '=', '=' =>
    advance 2
    failAt mark .doubleEquals
  | '=', _ => found .eq 1
  | '<', '>' => found .ne 2
  | '!', '=' => found .ne 2
  | '<', '=' => found .le 2
  | '>', '=' => found .ge 2
  | '<', _ => found .lt 1
  | '>', _ => found .gt 1
  | _, _ => return none

end DocQuery.Sql.Grammar
