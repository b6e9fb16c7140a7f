import DocQuery.Sql.Expr

/-!
# Columns and conjuncts of an expression

## Main Definitions

* `Expr.columns` — the columns that an expression reads, in order; nested queries read
  their own
* `Expr.mapColumns` — the expression with its columns replaced
* `Expr.conjuncts`, `conjunction?` — taking a conjunction apart and putting it together
* `Expr.containsOr` — whether a disjunction is visible through conjunctions and negations
-/

namespace DocQuery.Sql

mutual

/-- The columns that an expression reads, from left to right. -/
def Expr.columns : Expr → List Column
  | .column c => [c]
  | .call _ _ args => columnsOfAll args
  | .signed _ e => e.columns
  | .arithmetic _ l r => l.columns ++ r.columns
  | .compare _ l r => l.columns ++ r.columns
  | .like _ e p => e.columns ++ p.columns
  | .isNull _ e => e.columns
  | .inList _ e items => e.columns ++ columnsOfAll items
  | .between _ e low high => e.columns ++ low.columns ++ high.columns
  | .and l r => l.columns ++ r.columns
  | .or l r => l.columns ++ r.columns
  | .not e => e.columns
  | _ => []

def columnsOfAll : List Expr → List Column
  | [] => []
  | e :: rest => e.columns ++ columnsOfAll rest

end

@[simp] theorem columnsOfAll_eq_flatMap (es : List Expr) :
    columnsOfAll es = es.flatMap Expr.columns := by
  induction es with
  | nil => rfl
  | cons e rest ih => simp [columnsOfAll, ih]

mutual

/-- The expression with every column that it reads replaced. -/
def Expr.mapColumns (f : Column → Column) : Expr → Expr
  | .column c => .column (f c)
  | .call name distinct args => .call name distinct (mapColumnsOfAll f args)
  | .signed negative e => .signed negative (e.mapColumns f)
  | .arithmetic op l r => .arithmetic op (l.mapColumns f) (r.mapColumns f)
  | .compare op l r => .compare op (l.mapColumns f) (r.mapColumns f)
  | .like negated e p => .like negated (e.mapColumns f) (p.mapColumns f)
  | .isNull negated e => .isNull negated (e.mapColumns f)
  | .inList negated e items => .inList negated (e.mapColumns f) (mapColumnsOfAll f items)
  | .between negated e low high =>
    .between negated (e.mapColumns f) (low.mapColumns f) (high.mapColumns f)
  | .and l r => .and (l.mapColumns f) (r.mapColumns f)
  | .or l r => .or (l.mapColumns f) (r.mapColumns f)
  | .not e => .not (e.mapColumns f)
  | e => e

/-- Several expressions with every column that they read replaced. -/
def mapColumnsOfAll (f : Column → Column) : List Expr → List Expr
  | [] => []
  | e :: rest => e.mapColumns f :: mapColumnsOfAll f rest

end

@[simp] theorem mapColumnsOfAll_eq_map (f : Column → Column) (es : List Expr) :
    mapColumnsOfAll f es = es.map (Expr.mapColumns f) := by
  induction es with
  | nil => rfl
  | cons e rest ih => simp [mapColumnsOfAll, ih]

/-- The parts of a conjunction, from left to right. -/
def Expr.conjuncts : Expr → List Expr
  | .and l r => l.conjuncts ++ r.conjuncts
  | e => [e]

/-- The conjunction of expressions, leaning to the left. -/
def conjunction? : List Expr → Option Expr
  | [] => none
  | e :: rest => some (rest.foldl .and e)

/-- Whether a disjunction is visible through conjunctions and negations. -/
def Expr.containsOr : Expr → Bool
  | .or .. => true
  | .and l r => l.containsOr || r.containsOr
  | .not e => e.containsOr
  | _ => false

end DocQuery.Sql
