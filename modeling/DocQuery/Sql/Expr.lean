import DocQuery.Sql.Literal

/-!
# Expressions and queries

The trees that statements are made of.  An expression may hold a query and a query holds
expressions, so the types are declared together.

## Main Definitions

* `Expr` — scalar and boolean expressions
* `Query` — a selection, a parenthesised query or a chain of set operations
* `Source`, `Join`, `SelectItem`, `OrderItem`, `Select` — the parts of a selection
* `Call` — a function call on its own
* `Statement`, `Insert`, `Update`, `Delete` — statements

## Design Notes

Conjunctions and disjunctions are binary and lean to the left as they are read;
parentheses leave no trace but the shape of the tree.
-/

namespace DocQuery.Sql

inductive JoinKind where
  | inner | left | right | full | cross
deriving Repr, DecidableEq

def JoinKind.display : JoinKind → String
  | .inner => "INNER JOIN"
  | .left => "LEFT JOIN"
  | .right => "RIGHT JOIN"
  | .full => "FULL JOIN"
  | .cross => "CROSS JOIN"

inductive SetOperator where
  | union | unionAll | intersect | except
deriving Repr, DecidableEq

mutual

/-- Scalar and boolean expressions. -/
inductive Expr where
  | column (column : Column)
  | literal (value : Literal)
  | call (name : String) (distinct : Bool) (args : List Expr)
  | wildcard
  | qualifiedWildcard (table : String)
  | signed (negative : Bool) (operand : Expr)
  | arithmetic (op : Arithmetic) (left right : Expr)
  | compare (op : Comparison) (left right : Expr)
  | like (negated : Bool) (operand pattern : Expr)
  | isNull (negated : Bool) (operand : Expr)
  | inList (negated : Bool) (operand : Expr) (items : List Expr)
  | between (negated : Bool) (operand low high : Expr)
  | and (left right : Expr)
  | or (left right : Expr)
  | not (operand : Expr)
  | subquery (query : Query)

/-- A selection, a parenthesised query or a chain of set operations. -/
inductive Query where
  | plain (select : Select)
  | parenthesized (query : Query)
  | setOperation (branches : List Query) (operators : List SetOperator)

/-- What a selection or a join reads from. -/
inductive Source where
  | table (name : String) (label : Option String)
  | subquery (query : Query) (label : Option String)

/-- A further source and the condition under which its rows are taken. -/
structure Join where
  kind : JoinKind
  right : Source
  condition : Option Expr

/-- A selected expression and the name of its result. -/
structure SelectItem where
  expr : Expr
  label : Option String

structure OrderItem where
  expr : Expr
  ascending : Bool

/-- A selection with its clauses. -/
structure Select where
  distinct : Bool
  items : List SelectItem
  source : Source
  joins : List Join
  filter : Option Expr
  groupBy : List Expr
  having : Option Expr
  orderBy : List OrderItem
  limit : Option Int
  offset : Option Int

end

instance : Inhabited Expr := ⟨.wildcard⟩

structure Call where
  name : String
  distinct : Bool
  args : List Expr

def Call.toExpr (c : Call) : Expr :=
  .call c.name c.distinct c.args

/-- The alias of a source, if one is written. -/
def Source.alias? : Source → Option String
  | .table _ label => label
  | .subquery _ label => label

def Source.tableName? : Source → Option String
  | .table name _ => some name
  | .subquery .. => none

/-- Whether an expression is one of the two wildcards. -/
def Expr.isWildcard : Expr → Bool
  | .wildcard | .qualifiedWildcard _ => true
  | _ => false

/-! ### Statements -/

/-- Rows to be stored. -/
structure Insert where
  table : String
  columns : List String
  rows : List (List Expr)

/-- Fields to be changed. -/
structure Update where
  table : Source
  assignments : List (Column × Expr)
  filter : Option Expr
  limit : Option Int

/-- Rows to be removed; `targets` are the names written before the source. -/
structure Delete where
  targets : List String
  source : Source
  filter : Option Expr
  limit : Option Int

inductive Statement where
  | select (query : Query)
  | insert (insert : Insert)
  | update (update : Update)
  | delete (delete : Delete)

end DocQuery.Sql
