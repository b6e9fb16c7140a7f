import DocQuery.Sql.Expr
import DocQuery.Text.Basic

/-!
# Written form of expressions

## Main Definitions

* `Expr.display` — the text of an expression, with the parentheses its shape needs
* `Expr.stringValue` — the text of an expression used as a value or as a field name
* `Call.display`, `Call.isNamed` — of function calls
-/

namespace DocQuery.Sql

/-- Whether an expression is a conjunction or a disjunction. -/
def Expr.isLogical : Expr → Bool
  | .and .. | .or .. => true
  | _ => false

def Expr.isOr : Expr → Bool
  | .or .. => true
  | _ => false

def grouped (needed : Bool) (text : String) : String :=
  if needed then "(" ++ text ++ ")" else text

/-- The word of a negated operator, with its blank. -/
def negationWord (negated : Bool) : String :=
  if negated then "NOT " else ""

/-- A call of a function on written arguments. -/
def callText (name : String) (distinct : Bool) (args : List String) : String :=
  name ++ "(" ++ (if distinct then "DISTINCT " else "") ++ String.intercalate ", " args ++ ")"

mutual

def Expr.display : Expr → String
  | .column c => c.display
  | .literal l => l.display
  | .call name distinct args => callText name distinct (displayAll args)
  | .wildcard => "*"
  | .qualifiedWildcard table => table ++ ".*"
  | .signed negative e => (if negative then "-" else "+") ++ e.display
  | .arithmetic op l r => l.display ++ " " ++ String.ofList [op.symbol] ++ " " ++ r.display
  | .compare op l r => l.display ++ " " ++ op.symbol ++ " " ++ r.display
  | .like negated e p => e.display ++ " " ++ negationWord negated ++ "LIKE " ++ p.display
  | .isNull negated e => e.display ++ " IS " ++ negationWord negated ++ "NULL"
  | .inList negated e items =>
    e.display ++ " " ++ negationWord negated ++ "IN (" ++
      String.intercalate ", " (displayAll items) ++ ")"
  | .between negated e low high =>
    e.display ++ " " ++ negationWord negated ++ "BETWEEN " ++ low.display ++ " AND " ++
      high.display
  | .and l r => grouped l.isOr l.display ++ " AND " ++ grouped r.isLogical r.display
  | .or l r => l.display ++ " OR " ++ grouped r.isOr r.display
  | .not e => "NOT " ++ grouped e.isLogical e.display
  | .subquery _ => "(SELECT ...)"

def displayAll : List Expr → List String
  | [] => []
  | e :: rest => e.display :: displayAll rest

end

@[simp] theorem displayAll_eq_map (es : List Expr) : displayAll es = es.map Expr.display := by
  induction es with
  | nil => rfl
  | cons e rest ih => simp [displayAll, ih]

/-- The text of an expression used as a value or a name: a string without its quotes, the
path of a column, and the written form of anything else. -/
def Expr.stringValue : Expr → String
  | .literal (.string raw) => raw
  | .column c => if c.quoted then c.name else c.fullName
  | e => e.display

def Call.display (c : Call) : String :=
  callText c.name c.distinct (displayAll c.args)

/-- Whether a call has a name, in any ASCII case and between any blanks. -/
def Call.isNamed (c : Call) (name : String) : Bool :=
  Text.sameWord (Text.trim c.name) name

end DocQuery.Sql
