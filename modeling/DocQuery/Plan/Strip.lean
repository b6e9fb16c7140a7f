import DocQuery.Sql.Columns

/-!
# Dropping the base qualifier

Fields of the base source stand at the top of a document, so columns written with the
alias of the base source lose it.  All other qualifiers stay: they name the field that
holds a joined document.

## Main Definitions

* `Column.strip` — a column without its base qualifier
* `Expr.strip`, `SelectItem.strip`, `OrderItem.strip` — the same throughout an expression
-/

namespace DocQuery.Sql

/-- A column without the qualifier `base`. -/
def Column.strip (base : String) (c : Column) : Column :=
  if c.belongsTo base then { c with table := none } else c

/-- An expression whose columns have lost the qualifier `base`. -/
def Expr.strip (base : String) (e : Expr) : Expr :=
  e.mapColumns (Column.strip base)

/-- A selected item whose columns have lost the qualifier `base`. -/
def SelectItem.strip (base : String) (item : SelectItem) : SelectItem :=
  ⟨item.expr.strip base, item.label⟩

/-- An ordering item whose columns have lost the qualifier `base`. -/
def OrderItem.strip (base : String) (item : OrderItem) : OrderItem :=
  ⟨item.expr.strip base, item.ascending⟩

end DocQuery.Sql
