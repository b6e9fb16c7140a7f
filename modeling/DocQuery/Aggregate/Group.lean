import DocQuery.Aggregate.Name
import DocQuery.Document.Basic

/-!
# Grouping

The two documents of a grouped selection: what is collected per group, and how the
collected values get the names that the selection asks for.

## Main Definitions

* `accumulator` — what an aggregate collects, with the name under which it is stored
* `groupBody` — the key of the groups and one accumulator for each selected aggregate
* `groupOutput` — the final projection of a grouped selection

## Design Notes

A single grouping field is the key itself; several fields make a composite key whose parts
are named by `Aggregate.flatName`.  Without grouping fields the key is left out here.
-/

namespace DocQuery.Aggregate

open Sql

def reference (path : String) : String :=
  "$" ++ path

/-- The operation of an aggregate call that reads `field`. -/
def operation (c : Call) (field : Option String) : Except Fault Document :=
  match c.plainName with
  | "count" => .ok (.single "$sum" (.int 1))
  | "sum" | "min" | "max" | "avg" =>
    match field with
    | some path => .ok (.single ("$" ++ c.plainName) (.string (reference path)))
    | none => .error (.missingParameter c.name)
  | _ => .error (.unknownFunction c.name)

/-- What an aggregate collects, with the name under which the result is stored. -/
def accumulator (c : Call) (label : Option String) : Except Fault (String × Document) := do
  let field ← c.aggregatedField
  let body ← operation c field
  return (label.getD (c.generatedName field), body)

/-- The entry for the key of the groups. -/
def groupKey (fields : List String) : Document :=
  match fields with
  | [] => .empty
  | [field] => .single "_id" (.string (reference field))
  | several =>
    .single "_id" (.document
      (.ofList (several.map fun field => (flatName field, .string (reference field)))))

/-- Adds the accumulators of the selected aggregates. -/
def addAccumulators (body : Document) : List SelectItem → Except Fault Document
  | [] => .ok body
  | item :: rest =>
    match item.expr with
    | .call name distinct args => do
      let (output, operation) ← accumulator ⟨name, distinct, args⟩ item.label
      addAccumulators (body.insert output operation) rest
    | _ => addAccumulators body rest

/-- The key of the groups followed by one accumulator for each selected aggregate. -/
def groupBody (items : List SelectItem) (fields : List String) : Except Fault Document :=
  addAccumulators (groupKey fields) items

/-- Where the value of a selected column is found after grouping. -/
def groupedPath (fields : List String) (path : String) : String :=
  if fields.contains path then
    if fields.length == 1 then "$_id" else "$_id." ++ flatName path
  else reference path

/-- Adds the outputs of the selected columns and aggregates. -/
def addOutputs (fields : List String) (output : Document) :
    List SelectItem → Except Fault Document
  | [] => .ok output
  | item :: rest =>
    match item.expr with
    | .call name distinct args => do
      let name ← Call.outputName ⟨name, distinct, args⟩ item.label
      addOutputs fields (output.insert name (.int 1)) rest
    | .column c =>
      let source := groupedPath fields c.fullName
      addOutputs fields (output.insert (item.label.getD c.fullName) (.string source)) rest
    | e => .error (.groupExpression e.display)

/-- The final projection of a grouped selection: every selected value under its name, and
no key. -/
def groupOutput (items : List SelectItem) (fields : List String) : Except Fault Document := do
  return (← addOutputs fields .empty items).insert "_id" (.int 0)

end DocQuery.Aggregate
