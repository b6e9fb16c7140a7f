import DocQuery.Aggregate.Group
import DocQuery.Pipeline.Draft

/-!
# Steps

Each clause of a statement has a step that adds its part to the draft.  The steps run in a
fixed order, so the first clause with a fault decides what is reported.

## Main Definitions

* `Step` — the steps, `Step.list` their order
* `Step.run` — what a step adds to a draft
* `Plan.draft` — the draft of a plan

## Design Notes

A query that is the base source is drafted first, and its stages come before all others.
Plans are nested through their base sources, and `Plan.draft` recurses along them.
-/

namespace DocQuery

open Sql

/-- The steps, one for each clause. -/
inductive Step where
  | source
  | distinct
  | groupBy
  | totalGroup
  | projection
  | countAll
  | joins
  | orderBy
  | filter
  | having
  | paging
  | assignments
  | rows
deriving Repr, DecidableEq

/-- The order in which steps run. -/
def Step.list : List Step :=
  [.source, .distinct, .groupBy, .totalGroup, .projection, .countAll, .joins, .orderBy,
    .filter, .having, .paging, .assignments, .rows]

/-! ### Selections -/

/-- What a selection without groups shows of an item, under its name. -/
def projected (types : FieldTypes) (item : SelectItem) : Except Fault (String × Value) :=
  let name := item.label.getD item.expr.stringValue
  match item.expr with
  | .column c =>
    match item.label with
    | some _ => .ok (name, .string ("$" ++ c.fullName))
    | none => .ok (name, .int 1)
  | .call callee distinct args => do
    return (name, ← Filter.callValue (.flat types) ⟨callee, distinct, args⟩)
  | e => .error (.projectExpression e.display)

def itemProjection (types : FieldTypes) (items : List SelectItem) :
    Except Fault Document := do
  return (Document.single "_id" (.int 0)).extend (.ofList (← items.mapM (projected types)))

/-- The field by which groups or rows are ordered: an aggregate by the name of its result,
a part of the groups' key by its place in the key. -/
def orderField (s : Selection) : Expr → Except Fault String
  | .call name distinct args => do
    let call : Call := ⟨name, distinct, args⟩
    let generated : Except Fault String := do return (← Aggregate.accumulator call none).1
    match s.aliases.aliasOfCall? call.display with
    | some label => if label != call.display then return label else generated
    | none => generated
  | e => do
    let field ← s.aliases.resolve e.stringValue
    if Aggregate.isAggregateText field then return e.stringValue
    match s.groupBy with
    | [] => return field
    | [_] => return "_id"
    | _ => return "_id." ++ Aggregate.flatName field

/-- The order of the rows. -/
def sortDocument (s : Selection) : Except Fault Document := do
  let entries ← s.orderBy.mapM fun item => do
    return (← orderField s item.expr, Value.int (if item.ascending then 1 else -1))
  return .ofList entries

/-! ### Changes -/

/-- The value that is stored in a field.  Only constants can be stored. -/
def storedValue (types : FieldTypes) (context field : String) (e : Expr) :
    Except Fault Value :=
  match e with
  | .literal _ | .signed .. => Operand.value types none (some (.column (.bare field))) e
  | _ => .error (.storedExpression context e.display)

/-- Adds an assignment of an update to a draft.  Assigning nothing removes the field. -/
def addAssignment (types : FieldTypes) (d : Draft) (assignment : Column × Expr) :
    Except Fault Draft :=
  let field := assignment.1.fullName
  match assignment.2 with
  | .literal .null => .ok { d with removed := d.removed ++ [field] }
  | e => do
    return { d with
      stored := d.stored.insert field (← storedValue types "update" field e) }

def rowDocument (types : FieldTypes) (columns : List String) (row : List Expr) :
    Except Fault Document := do
  let entries ← (columns.zip row).mapM fun (field, e) => do
    return (field, ← storedValue types "insert" field e)
  return .ofList entries

/-! ### The steps -/

/-- The part of the filter that runs before joins and groups. -/
def Plan.earlyFilter (p : Plan) : Option Expr :=
  if p.scope.joined.isEmpty then p.filter
  else conjunction? (FilterSplit.of p.scope p.filter).base

/-- The context of the filter that runs before joins and groups. -/
def Plan.filterContext (p : Plan) : Filter.Context :=
  if p.isAggregate then .between p.types else .flat p.types

/-- What a step adds to a draft; `previous` are the stages of a query that is the base
source. -/
def Step.run (p : Plan) (previous : Except Fault (Option (List Document))) (d : Draft) :
    Step → Except Fault Draft
  | .source => do
    match ← previous with
    | some stages => return { d with previous := stages, multistage := true }
    | none => return d
  | .distinct =>
    if p.selection.distinct then
      match p.selection.items with
      | item :: _ =>
        .ok { d with projection := .single item.expr.stringValue (.int 1), distinct := true }
      | [] => .ok { d with distinct := true }
    else .ok d
  | .groupBy =>
    if p.selection.groupBy.isEmpty then .ok d
    else do
      let body ← Aggregate.groupBody p.selection.items p.selection.groupBy
      let output ← Aggregate.groupOutput p.selection.items p.selection.groupBy
      return { d with
        groupBy := p.selection.groupBy, projection := body
        output := output, multistage := true }
  | .totalGroup =>
    if p.selection.groupBy.isEmpty && p.selection.totalGroup then do
      let body ← Aggregate.groupBody p.selection.items []
      let output ← Aggregate.groupOutput p.selection.items []
      return { d with projection := body, output := output }
    else .ok d
  | .projection =>
    if p.selection.distinct || p.isGrouped || p.selection.items.any (·.expr.isWildcard) ||
        p.selection.items.isEmpty then .ok d
    else do return { d with projection := ← itemProjection p.types p.selection.items }
  | .countAll => .ok { d with countAll := p.selection.countAll }
  | .joins =>
    if p.scope.joined.isEmpty then .ok d
    else do
      let stages ← p.joinStages (.of p.scope p.filter)
      return { d with joins := stages, multistage := true }
  | .orderBy => do return { d with sort := ← sortDocument p.selection }
  | .filter =>
    match p.earlyFilter with
    | some e => do return { d with filter := ← Filter.compile p.filterContext e }
    | none => .ok d
  | .having =>
    match p.selection.having with
    | some e => do
      return { d with having := ← Filter.compile (.groups p.types p.selection.aliases) e }
    | none => .ok d
  | .paging => .ok { d with limit := p.limit, offset := p.selection.offset }
  | .assignments =>
    match p.action with
    | .update changes => changes.foldlM (addAssignment p.types) d
    | _ => .ok d
  | .rows =>
    match p.action with
    | .insert columns values => do
      return { d with
        documents := d.documents ++ (← values.mapM (rowDocument p.types columns)) }
    | _ => .ok d

def Draft.start (p : Plan) : Draft :=
  { collection := p.collectionName }

/-- Runs all steps. -/
def Plan.runSteps (p : Plan) (previous : Except Fault (Option (List Document))) :
    Except Fault Draft :=
  Step.list.foldlM (fun d step => step.run p previous d) (.start p)

mutual

def Plan.draft : Plan → Except Fault Draft
  | ⟨⟨⟨label, origin⟩, joined⟩, types, filter, limit, action⟩ =>
    Plan.runSteps ⟨⟨⟨label, origin⟩, joined⟩, types, filter, limit, action⟩ origin.stages

/-- The stages of a query that is the base source. -/
def Origin.stages : Origin → Except Fault (Option (List Document))
  | .collection _ => .ok none
  | .subplan p => do return some ((← p.draft).pipeline p)

end

end DocQuery
