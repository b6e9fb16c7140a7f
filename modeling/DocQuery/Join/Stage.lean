import DocQuery.Join.Binding
import DocQuery.Join.Split
import DocQuery.Predicate.Filter

/-!
# Joins as stages

## Main Definitions

* `Plan.joinStages` — the stages of the joins of a statement

## Design Notes

A join looks up the matching documents and then spreads them, one row for each.  A left
join keeps the rows without a match.  After the last join comes the part of the filter
that had to wait.
-/

namespace DocQuery

open Sql

def stage (name : String) (body : Document) : Document :=
  .single name (.document body)

/-- The condition of a join and what it binds. -/
def JoinedSource.condition? (j : JoinedSource) (base : String) (inside : List Expr) :
    Option Binding :=
  (conjunction? (j.condition.toList ++ inside)).map (Binding.bind j.source.label base)

/-- The variables of a join and the filter inside it. -/
def JoinedSource.lookupParts (types : FieldTypes) :
    Option Binding → Except Fault (Document × List Value)
  | none => .ok (.empty, [])
  | some binding => do
    let filter ← Filter.compile (.between types) binding.condition
    return (binding.bound, [.document (stage "$match" filter)])

/-- The two stages of a join; `inside` are the conjuncts of the statement's filter that
run in it. -/
def JoinedSource.stages (types : FieldTypes) (base : String) (inside : List Expr)
    (j : JoinedSource) : Except Fault (List Document) := do
  match j.source.origin with
  | .subplan _ => throw .joinedSubquery
  | .collection name =>
    let (bound, pipeline) ← lookupParts types (j.condition? base inside)
    let lookup : Document := ⟨[("from", .string name), ("let", .document bound),
      ("pipeline", .array pipeline), ("as", .string j.source.label)]⟩
    let unwind : Document := ⟨[("path", .string ("$" ++ j.source.label)),
      ("preserveNullAndEmptyArrays", .bool (j.kind == .left))]⟩
    return [stage "$lookup" lookup, stage "$unwind" unwind]

/-- The stages of the joins of a statement, whose filter is split. -/
def Plan.joinStages (p : Plan) (split : FilterSplit) : Except Fault (List Document) := do
  let joins ← p.scope.joined.mapM fun j =>
    j.stages p.types p.scope.base.label (split.insideOf j.source.label)
  match conjunction? split.after with
  | none => return joins.flatten
  | some e => return joins.flatten ++ [stage "$match" (← Filter.compile (.flat p.types) e)]

end DocQuery
