import DocQuery.Command
import DocQuery.Join.Stage

/-!
# Drafts

A draft collects what the clauses of a statement contribute to its command.

## Main Definitions

* `Draft` — the collected parts
* `Draft.update` — the document of an update
* `Draft.pipeline` — the stages of an aggregation
* `Draft.command` — the command

## Design Notes

The parts are laid out in the order in which an aggregation runs: the stages of a query
among the sources, the filter, the joins, the groups, the filter on groups, the order, the
bounds on rows and the projection.
-/

namespace DocQuery

/-- What the clauses of a statement contribute to its command. -/
structure Draft where
  collection : String
  /-- The stages of a query that is the base source. -/
  previous : List Document := []
  /-- The filter that runs before joins and groups. -/
  filter : Document := .empty
  joins : List Document := []
  groupBy : List String := []
  /-- The body of the groups, or the projection of a selection without groups. -/
  projection : Document := .empty
  having : Document := .empty
  sort : Document := .empty
  /-- The number of rows to leave out; `-1` if none is written. -/
  offset : Int := -1
  /-- The greatest number of rows; `-1` if none is written. -/
  limit : Int := -1
  /-- The projection that gives grouped values their names. -/
  output : Document := .empty
  /-- The statement takes an aggregation. -/
  multistage : Bool := false
  distinct : Bool := false
  countAll : Bool := false
  /-- The fields that an update stores. -/
  stored : Document := .empty
  /-- The fields that an update removes. -/
  removed : List String := []
  /-- The documents that an insertion adds. -/
  documents : List Document := []

namespace Draft

/-- The document of an update; parts without fields are left out. -/
def update (d : Draft) : Document :=
  let removed := Document.ofList (d.removed.map fun field => (field, .string ""))
  ⟨(if d.stored.isEmpty then [] else [("$set", .document d.stored)]) ++
    (if d.removed.isEmpty then [] else [("$unset", .document removed)])⟩

/-- A stage that is left out if it has nothing to do. -/
def stageUnlessEmpty (name : String) (body : Document) : List Document :=
  if body.isEmpty then [] else [stage name body]

/-- A stage that bounds the number of rows. -/
def boundStage (name : String) (n : Int) : List Document :=
  if 0 < n then [.single name (.int n)] else []

/-- The body of the groups with its key: all rows make one group if no key is given. -/
def groupStage (body : Document) : Document :=
  stage "$group" (if body.contains "_id" then body else body.insertFirst "_id" .null)

def pipeline (d : Draft) (p : Plan) : List Document :=
  d.previous ++
  stageUnlessEmpty "$match" d.filter ++
  d.joins ++
  (if p.isGrouped then [groupStage d.projection] else []) ++
  stageUnlessEmpty "$match" d.having ++
  stageUnlessEmpty "$sort" d.sort ++
  boundStage "$skip" d.offset ++
  boundStage "$limit" d.limit ++
  stageUnlessEmpty "$project" d.output ++
  (if p.isGrouped then [] else stageUnlessEmpty "$project" d.projection)

/-- The operation of a selection: distinct values of a field, a count, an aggregation or a
search. -/
def selectOperation (d : Draft) (p : Plan) (options : Document) : Operation :=
  if d.distinct then .distinct (d.projection.keys.head?.getD "") d.filter
  else if d.countAll && !p.isAggregate then .count d.filter
  else if p.isAggregate || d.multistage then .aggregate (d.pipeline p) options
  else .find d.filter d.projection d.sort d.offset d.limit

def operation (d : Draft) (p : Plan) (options : Document) : Operation :=
  match p.action with
  | .select _ => d.selectOperation p options
  | .insert .. => .insertMany d.documents
  | .update _ => .updateMany d.filter d.update
  | .delete => .remove d.filter

def command (d : Draft) (p : Plan) (options : Document) : Command :=
  ⟨d.collection, d.operation p options⟩

end Draft

end DocQuery
