import DocQuery.Calendar.Pattern
import DocQuery.Document.Basic
import DocQuery.Fault
import DocQuery.Sql.Display

/-!
# Comparisons with a point in time

`date(field, 'pattern') < 'text'`: the text is read with the pattern, and the field is
compared with the point in time that it names.

## Main Definitions

* `Moment` — a comparison of a field with a point in time
* `Moment.ofComparison?`, `Moment.ofExpr?` — the comparison that an expression asks for
* `Moment.toDocument` — the comparison as a filter
-/

namespace DocQuery

open Sql

/-- A comparison of a field with a point in time. -/
structure Moment where
  field : String
  op : Comparison
  instant : Calendar.Instant
deriving Repr, DecidableEq

namespace Moment

def read (pattern text : String) : Except Fault Calendar.Instant :=
  match Calendar.readWithPattern pattern text with
  | some instant => .ok instant
  | none => .error (.datePattern text pattern)

/-- The field and the pattern of a call that reads a date. -/
def parts? (c : Call) : Option (Expr × String) :=
  match c.args with
  | [field, .literal (.string pattern)] =>
    if c.isNamed "date" then some (field, pattern) else none
  | _ => none

/-- The comparison with a point in time that a comparison asks for.  The text is read
before the operator is looked at. -/
def ofComparison? (op : Comparison) (left right : Expr) : Except Fault (Option Moment) :=
  match left with
  | .call name distinct args =>
    match parts? ⟨name, distinct, args⟩ with
    | some (field, pattern) =>
      match right with
      | .literal (.string text) => do
        let instant ← read pattern text
        if op == .ne then throw (.comparisonOperator op.symbol)
        return some ⟨field.stringValue, op, instant⟩
      | _ => .error (.dateComparison (Expr.compare op left right).display)
    | none => .ok none
  | _ => .ok none

/-- The comparison with a point in time that an expression asks for. -/
def ofExpr? : Expr → Except Fault (Option Moment)
  | .compare op left right => ofComparison? op left right
  | _ => .ok none

/-- The comparison as a filter. -/
def toDocument (m : Moment) : Document :=
  .single m.field (.document (.single ("$" ++ m.op.operatorName) (.date m.instant)))

end Moment

end DocQuery
