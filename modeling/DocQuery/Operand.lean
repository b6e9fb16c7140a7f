import DocQuery.Calendar.Format
import DocQuery.Decimal.Layout
import DocQuery.Decimal.Reading
import DocQuery.Plan.Aliases
import DocQuery.Settings
import DocQuery.Sql.Display

/-!
# Operands

The value that a literal or a name stands for, read as the declared type of the field that
it is compared with.

## Main Definitions

* `Operand.ofText`, `Operand.ofNumber`, `Operand.ofLiteral` — values of a given type
* `Operand.readDate` — the dates that a text may hold
* `Operand.value` — the value of an expression beside its counterpart

## Design Notes

Signs in front of an operand are counted, not applied one by one.  The digits of a text
are read without them, so the smallest whole number, whose digits do not fit, becomes a
double.  A minus sign in front of a literal that is that number already is refused, and
signs in front of anything but a number are dropped.
-/

namespace DocQuery

open Sql

/-- The declared type of the field that an operand is compared with. -/
def FieldTypes.ofCounterpart (types : FieldTypes) : Option Expr → FieldType
  | some e => types.typeOf e.stringValue
  | none => .unknown

namespace Operand

/-- A text in which a doubled single quote stands for one. -/
def unquote (text : String) : String :=
  Text.undouble '\'' text

/-! ### Texts -/

/-- A date and a clock reading without offset. -/
def localDateTime : Calendar.Format :=
  Calendar.isoDate ++ .literal 'T' :: Calendar.clockSeconds

/-- The dates that a text may hold: an internet date and time, a clock reading in
universal time, or midnight of a date in one of two forms. -/
def readDate (text : String) : Except Fault Calendar.Instant :=
  let trimmed := Text.trim text
  let date (format : Calendar.Format) : Option Calendar.Instant :=
    (format.date? trimmed).map Calendar.Instant.ofDate
  match (Calendar.internet? trimmed).or ((localDateTime.local? trimmed).or
      ((date Calendar.isoDate).or (date Calendar.compactDate))) with
  | some instant => .ok instant
  | none => .error (.dateFormat text)

/-- The number that a text holds: whole if it can be, finite in any case. -/
def readNumber (text : String) : Except Fault Value :=
  let trimmed := (Text.trim text).toList
  match Decimal.readInt? trimmed with
  | some n => .ok (.int n)
  | none =>
    match Decimal.readFloat? trimmed with
    | some x => if x.isFinite then .ok (.double x) else .error (.numberFormat text)
    | none => .error (.numberFormat text)

/-- The truth value that a text names. -/
def readBool? (text : String) : Option Bool :=
  if Text.sameWord text "true" then some true
  else if Text.sameWord text "false" then some false
  else none

/-- The value of a text of a type. -/
def ofText (type : FieldType) (raw : String) : Except Fault Value :=
  let text := unquote raw
  match type with
  | .string => .ok (.string text)
  | .boolean => .ok (.bool (Text.sameWord (Text.trim text) "true"))
  | .number => readNumber text
  | .date => (readDate text).map .date
  | .unknown =>
    match readBool? text with
    | some b => .ok (.bool b)
    | none => .ok (.string text)

/-! ### Literals -/

/-- The value of a number of a type; `text` is its written form. -/
def ofNumber (type : FieldType) (number : Value) (text : String) : Except Fault Value :=
  match type with
  | .string => .ok (.string text)
  | .date => .error (.notDate text)
  | .boolean => .ok (.bool (Text.sameWord text "true"))
  | .number | .unknown => .ok number

/-- The value of a literal of a type, with a sign in front. -/
def ofLiteral (type : FieldType) (negative : Bool) : Literal → Except Fault Value
  | .string raw => ofText type raw
  | .int n =>
    let signed := if negative then -n else n
    if negative && !Decimal.fitsInt64 signed then .error (.numberFormat ("-" ++ toString n))
    else ofNumber type (.int signed) (toString signed)
  | .float x =>
    let signed := if negative then -x else x
    ofNumber type (.double signed) (Decimal.literal.write signed)
  | .bool b =>
    match type with
    | .string => .ok (.string (if b then "true" else "false"))
    | _ => .ok (.bool b)
  | .null => .ok .null
  | .date d => .ok (.date (.ofDate d))
  | .timestamp t => .ok (.date t)

/-! ### Expressions -/

/-- The name of a field where names may have been given. -/
def aliased (aliases : Option Aliases) (name : String) : String :=
  ((aliases.bind (·.aliasOf? name)).getD name)

/-- The value of a column of a type: the text of its path, read like a string.  A quoted
column is such a text, any other one is looked up among the names. -/
def ofColumn (type : FieldType) (aliases : Option Aliases) (c : Column) :
    Except Fault Value :=
  if c.quoted then ofText type c.name
  else do
    match ← ofText type c.fullName with
    | .string name => return .string (aliased aliases name)
    | value => return value

/-- The value of an expression of a type, under an even or odd number of minus signs. -/
def signedValue (type : FieldType) (aliases : Option Aliases) (negative : Bool) :
    Expr → Except Fault Value
  | .signed minus e => signedValue type aliases (negative != minus) e
  | .literal l => ofLiteral type negative l
  | .column c => ofColumn type aliases c
  | e => .error (.expression e.display)

/-- The value of an expression beside its counterpart. -/
def value (types : FieldTypes) (aliases : Option Aliases) (counterpart : Option Expr)
    (e : Expr) : Except Fault Value :=
  signedValue (types.ofCounterpart counterpart) aliases false e

end Operand

end DocQuery
