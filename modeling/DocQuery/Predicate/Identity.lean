import DocQuery.Aggregate.Name
import DocQuery.Document.Basic
import DocQuery.Operand

/-!
# Comparisons with identifiers

`toObjectId('…')`, `objectid('…')` and `OID('…')` name the identifier of a document.  On
either side of a comparison the other side is the field.

## Main Definitions

* `isIdentityCall` — whether a call names an identifier
* `Identity` — a comparison with identifiers
* `Identity.ofComparison?`, `Identity.ofList?`, `Identity.ofExpr?` — the comparison that an
  expression asks for
* `Identity.toDocument` — the comparison as a filter
* `Identity.standalone?` — the identifier that a call names on its own
-/

namespace DocQuery

open Sql

def ObjectId.read (text : String) : Except Fault ObjectId :=
  match ObjectId.parse? text with
  | some id => .ok id
  | none => .error (.objectId (Text.trim text))

def isIdentityCall (c : Call) : Bool :=
  Text.sameWord (Aggregate.operatorName (Text.trim c.name)) "toObjectId" ||
    c.isNamed "objectid"

/-- A comparison with identifiers, which are still texts. -/
inductive Identity where
  /-- One identifier; `text` is the comparison as it is written. -/
  | compare (field : String) (op : Comparison) (id text : String)
  /-- A list of identifiers. -/
  | oneOf (field : String) (ids : List String) (negated : Bool)
deriving Repr, DecidableEq

namespace Identity

/-- The first argument of an expression that is a call naming an identifier: `none` if it
is no such call, `some none` if the call has no arguments. -/
def argument? : Expr → Option (Option Expr)
  | .call name distinct args =>
    if isIdentityCall ⟨name, distinct, args⟩ then some args.head? else none
  | _ => none

/-- The comparison with an identifier that a comparison asks for.  On the left the call's
argument is the field, on the right it is the identifier. -/
def ofComparison? (op : Comparison) (left right : Expr) : Option Identity :=
  let make (field id : Expr) : Identity :=
    .compare field.stringValue op (Operand.unquote id.stringValue)
      (Expr.compare op left right).display
  match argument? left with
  | some argument => argument.map fun field => make field right
  | none =>
    match argument? right with
    | some argument => argument.map fun id => make left id
    | none => none

/-- The text of an identifier in a list. -/
def listed : Expr → Except Fault String
  | .literal l => .ok (Operand.unquote (Expr.literal l).stringValue)
  | .column c => .ok (Operand.unquote (Expr.column c).stringValue)
  | e => .error (.objectId e.display)

/-- The comparison with identifiers that a membership test asks for. -/
def ofList? (negated : Bool) (operand : Expr) (items : List Expr) :
    Except Fault (Option Identity) :=
  match operand with
  | .call name distinct [field] =>
    if isIdentityCall ⟨name, distinct, [field]⟩ then do
      return some (.oneOf field.stringValue (← items.mapM listed) negated)
    else .ok none
  | _ => .ok none

/-- The comparison with identifiers that an expression asks for. -/
def ofExpr? : Expr → Except Fault (Option Identity)
  | .compare op left right => .ok (ofComparison? op left right)
  | .inList negated operand items => ofList? negated operand items
  | _ => .ok none

def field : Identity → String
  | .compare field _ _ _ => field
  | .oneOf field _ _ => field

/-- The comparison as a filter.  Identifiers have no order. -/
def toDocument : Identity → Except Fault Document
  | .compare field op id text =>
    match op with
    | .eq => do
      return .single field (.document (.single "$eq" (.objectId (← ObjectId.read id))))
    | .ne => do
      return .single field (.document (.single "$ne" (.objectId (← ObjectId.read id))))
    | _ => .error (.idComparison text)
  | .oneOf field ids negated => do
    let values ← ids.mapM fun id => do return Value.objectId (← ObjectId.read id)
    return .single field (.document
      (.single (if negated then "$nin" else "$in") (.array values)))

/-- The identifier that a call names on its own. -/
def standalone? (c : Call) : Except Fault (Option Value) :=
  if isIdentityCall c then
    match c.args with
    | arg :: _ => do
      return some (.objectId (← ObjectId.read (Operand.unquote arg.stringValue)))
    | [] => .error (.objectId c.display)
  else .ok none

end Identity

end DocQuery
