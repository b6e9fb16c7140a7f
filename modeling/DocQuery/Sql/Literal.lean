import DocQuery.Calendar.Instant
import DocQuery.Decimal.Layout

/-!
# Literals, columns and operators

The leaves of expressions.

## Main Definitions

* `Literal`, `Literal.display` — constants and their written form
* `Column`, `Column.fullName` — column references
* `Comparison`, `Arithmetic` — binary operators
-/

namespace DocQuery.Sql

/-- A constant.  The text of a string is raw: quotes in it are still doubled. -/
inductive Literal where
  | string (raw : String)
  | int (value : Int)
  | float (value : Float)
  | bool (value : Bool)
  | null
  | date (value : Calendar.Date)
  | timestamp (value : Calendar.Instant)

def Literal.display : Literal → String
  | .string raw => "'" ++ raw ++ "'"
  | .int n => toString n
  | .float x => Decimal.plain.write x
  | .bool b => if b then "true" else "false"
  | .null => "NULL"
  | .date d => "DATE '" ++ d.render ++ "'"
  | .timestamp t => "TIMESTAMP '" ++ t.renderLiteral ++ "'"

/-- A column reference.  Of a dotted path the first part is the table and the rest the
name.  A quoted name is a value rather than a field. -/
structure Column where
  table : Option String
  name : String
  quoted : Bool := false
deriving Repr, DecidableEq

namespace Column

/-- A column without table. -/
def bare (name : String) : Column := ⟨none, name, false⟩

/-- A column of a table. -/
def qualified (table name : String) : Column := ⟨some table, name, false⟩

/-- A quoted name. -/
def ofQuoted (name : String) : Column := ⟨none, name, true⟩

def fullName (c : Column) : String :=
  match c.table with
  | some table => table ++ "." ++ c.name
  | none => c.name

/-- Whether the column is qualified by an alias. -/
def belongsTo (c : Column) (label : String) : Bool :=
  c.table == some label

def display (c : Column) : String :=
  if c.quoted then "\"" ++ c.name ++ "\"" else c.fullName

end Column

inductive Comparison where
  | eq | ne | lt | le | gt | ge
deriving Repr, DecidableEq

namespace Comparison

def symbol : Comparison → String
  | .eq => "="
  | .ne => "<>"
  | .lt => "<"
  | .le => "<="
  | .gt => ">"
  | .ge => ">="

/-- The name of the operator in documents, without its dollar sign. -/
def operatorName : Comparison → String
  | .eq => "eq"
  | .ne => "ne"
  | .lt => "lt"
  | .le => "lte"
  | .gt => "gt"
  | .ge => "gte"

end Comparison

inductive Arithmetic where
  | add | sub | mul | div | mod
deriving Repr, DecidableEq

namespace Arithmetic

def symbol : Arithmetic → Char
  | .add => '+'
  | .sub => '-'
  | .mul => '*'
  | .div => '/'
  | .mod => '%'

def ofChar? : Char → Option Arithmetic
  | '+' => some .add
  | '-' => some .sub
  | '*' => some .mul
  | '/' => some .div
  | '%' => some .mod
  | _ => none

/-- Whether the operator is a sum or a difference. -/
def isAdditive : Arithmetic → Bool
  | .add | .sub => true
  | _ => false

end Arithmetic

end DocQuery.Sql
