import DocQuery.Plan.Basic
import DocQuery.Sql.Columns

/-!
# The filter of a joined statement

Joins run as stages of an aggregation, and a condition on the rows should run as early as
it can.  The conjuncts of the filter are therefore split by the source that they read.

## Main Definitions

* `Owner`, `Scope.owner` — the source that an expression reads
* `FilterSplit` — a filter split around the joins
* `FilterSplit.of` — the split of a filter

## Design Notes

A conjunct on the base source runs before the first join and a conjunct on an inner join
runs inside that join.  A conjunct on a left join has to wait until the join has supplied
its missing rows, and so has a conjunct on several sources.  A filter with a disjunction
waits as a whole.
-/

namespace DocQuery

open Sql

/-- The source that an expression reads. -/
inductive Owner where
  | base
  | joined (label : String)
  | several
deriving Repr, DecidableEq

namespace Scope

/-- The source that a column reads: a joined source only if the column names it. -/
def columnOwner (s : Scope) (c : Column) : Owner :=
  match c.table with
  | some label => if s.isJoined label then .joined label else .base
  | none => .base

/-- The source that an expression reads; the base source if it reads none. -/
def owner (s : Scope) (e : Expr) : Owner :=
  match e.columns.map s.columnOwner with
  | [] => .base
  | first :: rest => if rest.all (· == first) then first else .several

end Scope

/-- A filter split around the joins of a statement. -/
structure FilterSplit where
  /-- The conjuncts that run before the first join. -/
  base : List Expr := []
  /-- The conjuncts that run inside a join, by its alias. -/
  inside : Entries (List Expr) := []
  /-- The conjuncts that run after the last join. -/
  after : List Expr := []
  /-- The filter has a disjunction and was not split. -/
  disjunction : Bool := false

namespace FilterSplit

/-- The conjuncts that run inside the join with an alias. -/
def insideOf (split : FilterSplit) (label : String) : List Expr :=
  (split.inside.get? label).getD []

/-- Adds a conjunct. -/
def place (scope : Scope) (split : FilterSplit) (e : Expr) : FilterSplit :=
  match scope.owner e with
  | .base => { split with base := split.base ++ [e] }
  | .joined label =>
    if scope.isInner label then
      { split with inside := split.inside.put label (split.insideOf label ++ [e]) }
    else { split with after := split.after ++ [e] }
  | .several => { split with after := split.after ++ [e] }

def of (scope : Scope) : Option Expr → FilterSplit
  | none => {}
  | some e =>
    if e.containsOr then { after := [e], disjunction := true }
    else e.conjuncts.foldl (place scope) {}

end FilterSplit

end DocQuery
