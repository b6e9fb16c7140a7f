import DocQuery.Aggregate.Name
import DocQuery.Plan.Basic
import DocQuery.Plan.Strip

/-!
# Plans of statements

## Main Definitions

* `Plan.ofQuery` — the plan of a query
* `Plan.ofStatement` — the plan of a statement

## Design Notes

A set operation stands for its first branch, which must be a plain selection.  Queries
among the sources are planned first and may be nested up to `deepest`.  Faults come up in
the order in which the parts of a statement are worked on: sources, then the bounds on
rows.
-/

namespace DocQuery.Plan

open Sql

/-- The greatest depth of queries among sources. -/
def deepest : Nat := 16

/-- The greatest number of rows that a bound may name. -/
def largestBound : Int := 2147483647

/-- A bound on the number of rows; `-1` if none is written. -/
def checkBound : Option Int → Except Fault Int
  | none => .ok (-1)
  | some n => if n > largestBound then .error (.boundTooLarge n) else .ok n

/-- The names given to selected items.  Wildcards have none. -/
def aliasesOf (items : List SelectItem) : Aliases :=
  .ofList (items.filterMap fun item =>
    if item.expr.isWildcard then none
    else item.label.map fun label => (item.expr.display, label))

/-- Whether the selection is `count(*)` and nothing else. -/
def isCountAll : List SelectItem → Bool
  | [⟨.call name distinct args, _⟩] =>
    Text.sameWord (Expr.call name distinct args).display "count(*)"
  | _ => false

/-- Whether an item is, or starts with, an aggregate call. -/
def isAggregateItem (item : SelectItem) : Bool :=
  Aggregate.isAggregateText item.expr.display

/-- The plan of a selection whose sources are resolved. -/
def ofClauses (types : FieldTypes) (scope : Scope) (select : Select) : Except Fault Plan := do
  let base := scope.base.label
  let items := select.items.map (SelectItem.strip base)
  let limit ← checkBound select.limit
  let offset ← checkBound select.offset
  return {
    scope := ⟨scope.base, scope.joined.map fun j =>
      { j with condition := j.condition.map (Expr.strip base) }⟩
    types := types
    filter := select.filter.map (Expr.strip base)
    limit := limit
    action := .select {
      distinct := select.distinct
      countAll := isCountAll items
      totalGroup := select.groupBy.isEmpty && items.any isAggregateItem
      items := items
      aliases := aliasesOf items
      groupBy := select.groupBy.map fun e => (e.strip base).stringValue
      having := select.having.map (Expr.strip base)
      orderBy := select.orderBy.map (OrderItem.strip base)
      offset := offset } }

mutual

/-- The plan of a query at a depth. -/
def ofQuery (types : FieldTypes) (depth : Nat) : Query → Except Fault Plan
  | .plain select => ofSelect types depth select
  | .parenthesized q => ofQuery types depth q
  | .setOperation (.plain select :: _) _ => ofSelect types depth select
  | .setOperation _ _ => .error .setOperation

def ofSelect (types : FieldTypes) (depth : Nat) : Select → Except Fault Plan
  | ⟨distinct, items, source, joins, filter, groupBy, having, orderBy, limit, offset⟩ => do
    let base ← resolve types depth source
    let scope ← resolveJoins types depth (.ofBase base) joins
    ofClauses types scope
      ⟨distinct, items, source, joins, filter, groupBy, having, orderBy, limit, offset⟩

/-- The source that a written source stands for. -/
def resolve (types : FieldTypes) (depth : Nat) : Source → Except Fault NamedSource
  | .table name label => .ok (.of label (.collection name))
  | .subquery q label => do
    if deepest ≤ depth then throw (.nestingTooDeep deepest)
    return .of label (.subplan (← ofQuery types (depth + 1) q))

/-- Adds the sources of joins to a scope. -/
def resolveJoins (types : FieldTypes) (depth : Nat) (scope : Scope) :
    List Join → Except Fault Scope
  | [] => .ok scope
  | ⟨kind, right, condition⟩ :: rest => do
    Scope.checkKind kind
    let source ← resolve types depth right
    resolveJoins types depth (← scope.join ⟨kind, source, condition⟩) rest

end

/-! ### Statements that change rows -/

/-- A plan of a single source without clauses. -/
def ofSource (types : FieldTypes) (source : NamedSource) (filter : Option Expr) (limit : Int)
    (action : Action) : Plan :=
  ⟨.ofBase source, types, filter.map (Expr.strip source.label), limit, action⟩

def ofInsert (types : FieldTypes) (insert : Insert) : Except Fault Plan := do
  if Text.allBlank insert.table then throw .insertWithoutTable
  if insert.columns.isEmpty then throw .insertWithoutColumns
  if let some row := insert.rows.find? fun row => row.length != insert.columns.length then
    throw (.rowWidth insert.columns.length row.length)
  return ofSource types (.of none (.collection insert.table)) none (-1)
    (.insert insert.columns insert.rows)

/-- The plan of an update.  Only the assigned columns lose their qualifier, the values
stay. -/
def ofUpdate (types : FieldTypes) (update : Update) : Except Fault Plan :=
  match update.table with
  | .subquery .. => .error .updateWithoutTable
  | .table name label => do
    if Text.allBlank name then throw .updateWithoutTable
    let source := NamedSource.of label (.collection name)
    let limit ← checkBound update.limit
    return ofSource types source update.filter limit
      (.update (update.assignments.map fun (column, value) =>
        (column.strip source.label, value)))

/-- Whether the names written before the source of a deletion are none or the source
itself. -/
def deletesOne (delete : Delete) : Bool :=
  match delete.targets with
  | [] => true
  | [target] =>
    delete.source.tableName? == some target || delete.source.alias? == some target
  | _ => false

def ofDelete (types : FieldTypes) (delete : Delete) : Except Fault Plan := do
  if !deletesOne delete then throw .severalTargets
  let source ← resolve types 0 delete.source
  let limit ← checkBound delete.limit
  return ofSource types source delete.filter limit .delete

def ofStatement (types : FieldTypes) : Statement → Except Fault Plan
  | .select q => ofQuery types 0 q
  | .insert insert => ofInsert types insert
  | .update update => ofUpdate types update
  | .delete delete => ofDelete types delete

end DocQuery.Plan
