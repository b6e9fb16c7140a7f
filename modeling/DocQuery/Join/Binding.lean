import DocQuery.Document.Basic
import DocQuery.Sql.Columns
import DocQuery.Text.Casing

/-!
# Conditions inside a join

Inside a join only the joined documents are at hand.  Fields of other sources come in as
variables, which are bound to the fields where the join starts.

## Main Definitions

* `Binding.variableOf?` — the variable of a column
* `Binding.column` — what stands for a column inside a join
* `Binding.bind` — a condition for use inside a join, with its variables
-/

namespace DocQuery

open Sql

/-- A condition for use inside a join, with the fields that its variables are bound to. -/
structure Binding where
  condition : Expr
  bound : Document

namespace Binding

/-- The variable of a path: in lower case, with underscores in the place of dots. -/
def variableName (path : String) : String :=
  Text.replaceChar '.' '_' (Text.lower path)

/-- The variable that stands for a column inside the join `label`; none for the join's own
columns and for quoted columns. -/
def variableOf? (label base : String) (c : Column) : Option String :=
  if c.quoted || c.belongsTo label then none
  else
    match c.table with
    | some _ => some (variableName c.fullName)
    | none => some (variableName (base ++ "." ++ c.name))

/-- What stands for a column inside the join `label`: its own columns lose their qualifier. -/
def column (label base : String) (c : Column) : Column :=
  match variableOf? label base c with
  | some name => .bare ("$$" ++ name)
  | none => if c.quoted then c else { c with table := none }

/-- Binds the variable of a column. -/
def bindColumn (label base : String) (bound : Document) (c : Column) : Document :=
  match variableOf? label base c with
  | some name => bound.insert name (.string ("$" ++ c.fullName))
  | none => bound

/-- A condition for use inside the join `label`. -/
def bind (label base : String) (condition : Expr) : Binding :=
  ⟨condition.mapColumns (column label base),
    condition.columns.foldl (bindColumn label base) .empty⟩

end Binding

end DocQuery
