import DocQuery.Plan.Aliases
import DocQuery.Settings
import DocQuery.Sql.Expr

/-!
# Plans

A statement whose sources are resolved and whose expressions have lost their base
qualifier.  A plan says what the command has to do and knows nothing of documents yet.

## Main Definitions

* `Plan` — the scope, the filter, the bound on the number of rows, and the action
* `Scope` — the base source and the joined sources
* `Origin` — what a source reads from: a collection, or the outcome of another plan
* `Action` — what is done with the rows; `Selection` holds the clauses of a selection
* `Plan.isGrouped`, `Plan.isAggregate`, `Plan.validate` — the shape of a plan

## Design Notes

A joined source carries its own condition, so the joins of a plan are the joined sources
of its scope.  Every source has an alias: the collection's name stands in for a missing
one.
-/

namespace DocQuery

open Sql

structure Selection where
  distinct : Bool
  /-- The selection is `count(*)` and nothing else. -/
  countAll : Bool
  /-- An aggregate is selected without grouping fields. -/
  totalGroup : Bool
  items : List SelectItem
  aliases : Aliases
  groupBy : List String
  having : Option Expr
  orderBy : List OrderItem
  /-- The number of rows to leave out; `-1` if none is written. -/
  offset : Int

def Selection.none : Selection where
  distinct := false
  countAll := false
  totalGroup := false
  items := []
  aliases := .empty
  groupBy := []
  having := .none
  orderBy := []
  offset := -1

/-- What is done with the rows of a statement. -/
inductive Action where
  | select (selection : Selection)
  | insert (columns : List String) (rows : List (List Expr))
  | update (assignments : List (Column × Expr))
  | delete

namespace Action

def verb : Action → String
  | .select _ => "SELECT"
  | .insert .. => "INSERT"
  | .update _ => "UPDATE"
  | .delete => "DELETE"

/-- The clauses of a selection; other actions have none. -/
def selection : Action → Selection
  | .select s => s
  | _ => .none

end Action

mutual

/-- A resolved statement. -/
structure Plan where
  scope : Scope
  types : FieldTypes
  filter : Option Expr
  /-- The greatest number of rows; `-1` if none is written. -/
  limit : Int
  action : Action

structure Scope where
  base : NamedSource
  joined : List JoinedSource

/-- A source and the name by which columns refer to it. -/
structure NamedSource where
  label : String
  origin : Origin

/-- A source that is joined to those before it. -/
structure JoinedSource where
  kind : JoinKind
  source : NamedSource
  condition : Option Expr

inductive Origin where
  | collection (name : String)
  | subplan (plan : Plan)

end

/-! ### Collections -/

mutual

/-- The collection that a source reads in the end. -/
def Origin.collectionName : Origin → String
  | .collection name => name
  | .subplan p => p.collectionName

def Plan.collectionName : Plan → String
  | ⟨s, _, _, _, _⟩ => s.collectionName

/-- The collection that the base source reads in the end. -/
def Scope.collectionName : Scope → String
  | ⟨⟨_, origin⟩, _⟩ => origin.collectionName

end

/-- The plan behind a source that is no collection. -/
def Origin.subplan? : Origin → Option Plan
  | .collection _ => none
  | .subplan p => some p

/-! ### Sources -/

/-- A source under its written alias, or under the name of its collection. -/
def NamedSource.of (label : Option String) (origin : Origin) : NamedSource :=
  ⟨label.getD origin.collectionName, origin⟩

/-- Whether rows can be joined in this way. -/
def Scope.checkKind (kind : JoinKind) : Except Fault Unit :=
  match kind with
  | .inner | .left => .ok ()
  | other => .error (.joinKind other.display)

namespace Scope

def ofBase (source : NamedSource) : Scope :=
  ⟨source, []⟩

def join (s : Scope) (j : JoinedSource) : Except Fault Scope := do
  checkKind j.kind
  return ⟨s.base, s.joined ++ [j]⟩

/-- The sources with the way in which each is joined, the base first. -/
def sources (s : Scope) : List (NamedSource × Option JoinKind) :=
  (s.base, none) :: s.joined.map fun j => (j.source, some j.kind)

/-- The source with an alias: the last one, if sources share it. -/
def byAlias? (s : Scope) (label : String) : Option (NamedSource × Option JoinKind) :=
  s.sources.reverse.find? fun source => source.1.label == label

def isJoined (s : Scope) (label : String) : Bool :=
  s.joined.any fun j => j.source.label == label

/-- Whether an alias is that of an inner join. -/
def isInner (s : Scope) (label : String) : Bool :=
  match s.byAlias? label with
  | some (_, some .inner) => true
  | _ => false

end Scope

/-! ### The shape of a plan -/

namespace Selection

/-- Whether all fields are selected and nothing else. -/
def isAll (s : Selection) : Bool :=
  match s.items with
  | [⟨.wildcard, _⟩] => true
  | _ => false

def isGrouped (s : Selection) : Bool :=
  !s.groupBy.isEmpty || s.totalGroup

/-- Whether a selected expression has a counterpart in a projection. -/
def isProjectable : Expr → Bool
  | .column _ | .call .. | .wildcard | .qualifiedWildcard _ => true
  | _ => false

def validate (s : Selection) : Except Fault Unit :=
  if s.distinct && (1 < s.items.length || s.isAll) then .error .distinctColumns
  else if !(!s.groupBy.isEmpty || s.isAll || s.countAll || s.totalGroup) &&
      s.items.any fun item => !isProjectable item.expr then
    .error .selectExpressions
  else .ok ()

end Selection

namespace Plan

/-- The clauses of a selection; other actions have none. -/
def selection (p : Plan) : Selection :=
  p.action.selection

def isGrouped (p : Plan) : Bool :=
  p.selection.isGrouped

/-- Whether the statement takes an aggregation of several stages. -/
def isAggregate (p : Plan) : Bool :=
  !p.selection.aliases.isEmpty || !p.selection.groupBy.isEmpty || !p.scope.joined.isEmpty ||
    p.scope.base.origin.subplan?.isSome || (p.selection.totalGroup && !p.selection.countAll)

/-- Checks how a statement is put together; only selections can be put together wrongly
here. -/
def validate (p : Plan) : Except Fault Unit :=
  match p.action with
  | .select s => s.validate
  | _ => .ok ()

end Plan

end DocQuery
