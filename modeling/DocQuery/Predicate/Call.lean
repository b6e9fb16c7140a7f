import DocQuery.Predicate.Identity

/-!
# Function calls in filters

## Main Definitions

* `Filter.Context` — what the compilation of a predicate depends on
* `Filter.Context.fieldName`, `Filter.fieldReference` — fields by name and as a value
* `Filter.callValue` — a call as a value

## Design Notes

There are three contexts.  A *flat* filter compares fields by name.  A *staged* filter
runs between the stages of an aggregation and states its comparisons as expressions.  A
filter on groups is staged and also reads back the results of aggregates under the names
that they were stored with.
-/

namespace DocQuery.Filter

open Sql

/-- What the compilation of a predicate depends on. -/
structure Context where
  types : FieldTypes
  /-- Comparisons are stated as expressions. -/
  staged : Bool
  /-- The names that selected expressions were given, for a filter on groups. -/
  aliases : Option Aliases

namespace Context

/-- The context of a filter that compares fields by name. -/
def flat (types : FieldTypes) : Context := ⟨types, false, none⟩

/-- The context of a filter between the stages of an aggregation. -/
def between (types : FieldTypes) : Context := ⟨types, true, none⟩

/-- The context of a filter on groups. -/
def groups (types : FieldTypes) (aliases : Aliases) : Context := ⟨types, true, some aliases⟩

def fieldName (ctx : Context) (c : Column) : String :=
  Operand.aliased ctx.aliases c.fullName

/-- The value of an expression beside its counterpart. -/
def value (ctx : Context) (counterpart : Option Expr) (e : Expr) : Except Fault Value :=
  Operand.value ctx.types ctx.aliases counterpart e

end Context

/-- A reference to a field.  Variables are references already. -/
def fieldReference (name : String) : String :=
  if name.toList.head? == some '$' then name else "$" ++ name

/-- A column's field as a value. -/
def columnReference (ctx : Context) (c : Column) : Value :=
  .string (fieldReference (ctx.fieldName c))

/-- Several parameters as one value: a single one stands for itself. -/
def packed : List Value → Value
  | [v] => v
  | values => .array values

/-- A call whose parameters are given: the stored result of an aggregate in a filter on
groups, an identifier, or an operator applied to the parameters. -/
def callWith (ctx : Context) (c : Call) (parameters : Except Fault (List Value)) :
    Except Fault Value :=
  let plain : Except Fault Value := do
    match ← Identity.standalone? c with
    | some id => return id
    | none =>
      return .document
        (.single ("$" ++ Aggregate.operatorName c.name) (packed (← parameters)))
  match ctx.aliases with
  | some aliases =>
    if Aggregate.isAggregateText c.display then do
      return .string ("$" ++ (← c.outputName (aliases.aliasOfCall? c.display)))
    else plain
  | none => plain

mutual

/-- An argument of a call as a parameter of its operator. -/
def parameter (ctx : Context) : Expr → Except Fault Value
  | .column c => if c.quoted then ctx.value none (.column c) else .ok (columnReference ctx c)
  | .call name distinct args => callWith ctx ⟨name, distinct, args⟩ (parameters ctx args)
  | e => ctx.value none e

/-- The arguments of a call as parameters; a bare star is none. -/
def parameters (ctx : Context) : List Expr → Except Fault (List Value)
  | [] => .ok []
  | .wildcard :: rest => parameters ctx rest
  | e :: rest => do
    let v ← parameter ctx e
    return v :: (← parameters ctx rest)

end

/-- A call as a value. -/
def callValue (ctx : Context) (c : Call) : Except Fault Value :=
  callWith ctx c (parameters ctx c.args)

end DocQuery.Filter
