import DocQuery.Fault
import DocQuery.Sql.Display

/-!
# Names of aggregates

Which calls are aggregates, what they read and under which name their result is stored.

## Main Definitions

* `isAggregateName` — the five aggregate functions
* `isAggregateText` — whether a written expression starts with an aggregate call
* `operatorName` — the operator that stands for a function
* `Call.aggregatedField` — the field that an aggregate reads
* `Call.outputName` — the name of an aggregate's result

## Design Notes

`isAggregateText` looks at the written form, so `sum(a) + 1` counts as an aggregate as well.
-/

namespace DocQuery

open Sql

namespace Aggregate

def names : List String := ["sum", "avg", "min", "max", "count"]

/-- Whether a name, in any ASCII case and between any blanks, is that of an aggregate. -/
def isAggregateName (name : String) : Bool :=
  names.any fun known => Text.sameWord known (Text.trim name)

/-- Whether a written expression starts with a call of an aggregate. -/
def isAggregateText (text : String) : Bool :=
  let lower := (Text.lowerAscii (Text.trim text)).toList
  names.any fun name =>
    match Text.dropStart? name.toList lower with
    | some rest => (Text.dropBlanks rest).head? == some '('
    | none => false

/-- Functions whose operator has another name. -/
def renamed : List (String × String) := [("OID", "toObjectId"), ("TIMESTAMP", "toDate")]

/-- The operator that stands for a function: the function's own name, unless it is renamed. -/
def operatorName (name : String) : String :=
  match renamed.find? fun entry => Text.sameWord entry.1 (Text.trim name) with
  | some entry => entry.2
  | none => name

/-- The text of a path inside a single name: dots become underscores. -/
def flatName (path : String) : String :=
  Text.replaceChar '.' '_' path

end Aggregate

namespace Sql.Call

/-- The name of a call without blanks around it and in lower case. -/
def plainName (c : Call) : String :=
  Text.lowerAscii (Text.trim c.name)

/-- The field that an aggregate reads: none for `f(*)` and `f()`. -/
def aggregatedField (c : Call) : Except Fault (Option String) :=
  match c.args with
  | [] => .ok none
  | [.wildcard] => .ok none
  | [arg] => .ok (some arg.stringValue)
  | _ => .error (.oneParameter c.name)

/-- The name that an aggregate's result gets on its own: the function and the field that
it reads, or the function alone for counts and for calls without a field. -/
def generatedName (c : Call) (field : Option String) : String :=
  match field with
  | some path =>
    if c.plainName == "count" then c.plainName
    else c.plainName ++ "_" ++ Aggregate.flatName path
  | none => c.plainName

/-- The name of an aggregate's result: the alias, if there is one. -/
def outputName (c : Call) (label : Option String) : Except Fault String := do
  let field ← c.aggregatedField
  return label.getD (c.generatedName field)

end Sql.Call

end DocQuery
