import DocQuery.Predicate.Call
import DocQuery.Predicate.Like
import DocQuery.Predicate.Match
import DocQuery.Predicate.Moment

/-!
# Filters

Boolean expressions as filter documents.

## Main Definitions

* `Filter.comparison`, `Filter.likeTest`, `Filter.nullTest`, `Filter.membership` — the tests
* `Filter.conjoin` — a run of one logical operator
* `Filter.negation` — a negated test
* `Filter.node` — the value of an expression inside a filter
* `Filter.compile` — the filter of an expression

## Design Notes

**Sides are compiled once.**  `node` hands the compiled sides of a test to the function
that puts the test together; a side that is not needed is not looked at, so its faults do
not surface.

**Runs stay flat.**  A run `a and b and c` leans to the left.  `conjoin` adds the next
operand to the operands of the run before it, as long as neither the operand nor the run's
first element is itself a conjunction or a disjunction.
-/

namespace DocQuery.Filter

open Sql

/-! ### Sides of a test -/

/-- The column of an expression that names a field. -/
def field? : Expr → Option Column
  | .column c => if c.quoted then none else some c
  | _ => none

def isCall : Expr → Bool
  | .call .. => true
  | _ => false

/-- Whether an expression stands for a constant: a literal, possibly with a sign, or a
quoted column. -/
def isConstant : Expr → Bool
  | .literal _ | .signed .. => true
  | .column c => c.quoted
  | _ => false

/-- One side of a test in the form of an expression; `inner` is its value as a node. -/
def operand (ctx : Context) (e : Expr) (inner : Except Fault Value) : Except Fault Value :=
  match e with
  | .call name distinct args => callValue ctx ⟨name, distinct, args⟩
  | .column c => if c.quoted then inner else .ok (columnReference ctx c)
  | _ => inner

/-- An operator on two sides, as an expression where the context asks for it. -/
def applied (ctx : Context) (operator : String) (left right : Value) : Document :=
  let body := Document.single operator (.array [left, right])
  if ctx.staged then .single "$expr" (.document body) else body

def operator (op : Comparison) : String :=
  "$" ++ op.operatorName

/-- A comparison of a field with a value; equality needs no operator. -/
def keyed (name : String) (op : Comparison) (value : Value) : Document :=
  match op with
  | .eq => .single name value
  | _ => .single name (.document (.single (operator op) value))

/-! ### Tests -/

/-- A comparison that is none of the special ones. -/
def plainComparison (ctx : Context) (op : Comparison) (left right : Expr)
    (leftNode rightNode : Except Fault Value) : Except Fault Document :=
  let pair : Except Fault Document := do
    let l ← operand ctx left leftNode
    let r ← operand ctx right rightNode
    return applied ctx (operator op) l r
  let general : Except Fault Document := do
    let l ← leftNode
    let r ← operand ctx right rightNode
    match ctx.staged, l with
    | false, .string name => return keyed name op r
    | _, _ => return applied ctx (operator op) l r
  if isCall left || isCall right then pair
  else
    match field? left, field? right with
    | some l, some r =>
      if ctx.staged then pair
      else .ok (keyed (ctx.fieldName l) op (.string (ctx.fieldName r)))
    | some l, none =>
      if isConstant right then do
        let value ← ctx.value (some left) right
        if ctx.staged then return applied ctx (operator op) (columnReference ctx l) value
        else return keyed (ctx.fieldName l) op value
      else general
    | none, _ => general

/-- A comparison of two sides, whose values as nodes are given.  The special comparisons
are tried first. -/
def comparison (ctx : Context) (op : Comparison) (left right : Expr)
    (leftNode rightNode : Except Fault Value) : Except Fault Document := do
  match ← Match.ofComparison? op left right with
  | some m => m.toDocument
  | none =>
    match ← Moment.ofComparison? op left right with
    | some m => return m.toDocument
    | none =>
      match Identity.ofComparison? op left right with
      | some i => i.toDocument
      | none => plainComparison ctx op left right leftNode rightNode

/-- A match of a field with a LIKE pattern. -/
def likeTest (ctx : Context) (negated : Bool) (target pattern : Expr) :
    Except Fault Document :=
  let text? : Option String :=
    match pattern with
    | .literal (.string raw) => some (Operand.unquote raw)
    | .column c => some (Expr.column c).stringValue
    | _ => none
  match field? target, text? with
  | some c, some text =>
    let regex := Document.single "$regex" (.string (Like.toRegex text))
    let condition := if negated then .single "$not" (.document regex) else regex
    .ok (.single (ctx.fieldName c) (.document condition))
  | _, _ => .error (.likeTest target.display pattern.display)

/-- A test for a missing value. -/
def nullTest (ctx : Context) (negated : Bool) (target : Expr) : Except Fault Document :=
  let absent := Document.single "$exists" (.bool negated)
  match target with
  | .call name distinct args => do
    match ← callValue ctx ⟨name, distinct, args⟩ with
    | .document d => return d.insert "$exists" (.bool negated)
    | _ => return .single target.stringValue (.document absent)
  | _ =>
    match field? target with
    | some c => .ok (.single (ctx.fieldName c) (.document absent))
    | none => .error (.nullTest target.display)

/-- A test for membership in a list, whose values are given. -/
def membership (ctx : Context) (negated : Bool) (target : Expr) (items : List Expr)
    (targetNode : Except Fault Value) (values : Except Fault (List Value)) :
    Except Fault Document := do
  match ← Identity.ofList? negated target items with
  | some i => i.toDocument
  | none =>
    let values ← values
    let operator := if negated then "$nin" else "$in"
    let listed := Document.single operator (.array values)
    match target with
    | .call name distinct args =>
      let call ← callValue ctx ⟨name, distinct, args⟩
      let body := (Document.single "function" call).insert "list" (.array values)
      return .single (if negated then "$fnin" else "$fin") (.document body)
    | _ =>
      if ctx.staged then
        return applied ctx operator (← operand ctx target targetNode) (.array values)
      else
        match field? target with
        | some c => return .single (ctx.fieldName c) (.document listed)
        | none => return .single target.stringValue (.document listed)

/-! ### Logical operators -/

/-- The filter that a value stands for: a value that is no filter asks for the field of the
expression's text to be true. -/
def filterOf (e : Expr) : Value → Document
  | .document d => d
  | _ => .single e.stringValue (.bool true)

/-- Whether an expression is a run of conjunctions without further logical operators
inside. -/
def isAndRun : Expr → Bool
  | .and l r => !r.isLogical && (isAndRun l || !l.isLogical)
  | _ => false

/-- Whether an expression is a run of disjunctions without further logical operators
inside. -/
def isOrRun : Expr → Bool
  | .or l r => !r.isLogical && (isOrRun l || !l.isLogical)
  | _ => false

/-- The operands that a filter joins with a logical operator. -/
def operands (operator : String) (d : Document) : List Value :=
  match d.get? operator with
  | some (.array items) => items
  | _ => [.document d]

/-- Two filters joined by a logical operator; if the left one is a run of the same
operator that can be continued, its operands are taken over. -/
def conjoin (operator : String) (continues : Bool) (left right : Document) : Document :=
  let before := if continues then operands operator left else [.document left]
  .single operator (.array (before ++ [.document right]))

/-- A negated comparison: the negation of its operator, if it has one, and the empty filter
otherwise. -/
def negated (d : Document) : Document :=
  match d.first? with
  | some (key, .document inner) => .single key (.document (.single "$not" (.document inner)))
  | _ => .empty

/-- A negated expression, whose value is given.  Only fields and comparisons have a
negated form, everything else becomes the empty filter. -/
def negation (ctx : Context) (e : Expr) (inner : Except Fault Value) :
    Except Fault Document :=
  match e with
  | .column c =>
    if c.quoted then .ok .empty
    else .ok (.single (ctx.fieldName c) (.document (.single "$ne" (.bool true))))
  | .compare .. => do return negated (filterOf e (← inner))
  | _ => .ok .empty

/-- A call that stands on its own: a match, an identifier or the value of the call. -/
def standalone (ctx : Context) (c : Call) : Except Fault Value := do
  match ← Match.ofCall? c with
  | some m => return .document (← m.toDocument)
  | none =>
    match ← Identity.standalone? c with
    | some id => return id
    | none => callValue ctx c

/-- A listed item, whose value is given; queries cannot be listed. -/
def listedItem (e : Expr) (value : Except Fault Value) : Except Fault Value :=
  match e with
  | .subquery _ => .error .listedSubquery
  | _ => value

mutual

/-- The value of an expression inside a filter, beside its counterpart. -/
def node (ctx : Context) (counterpart : Option Expr) : Expr → Except Fault Value
  | .compare op l r => do
    return .document (← comparison ctx op l r (node ctx (some r) l) (node ctx (some l) r))
  | .like negated e p => do return .document (← likeTest ctx negated e p)
  | .isNull negated e => do return .document (← nullTest ctx negated e)
  | .inList negated e items => do
    return .document
      (← membership ctx negated e items (node ctx none e) (nodes ctx e items))
  | .between complement e low high => do
    let least ← comparison ctx .ge e low (node ctx (some low) e) (node ctx (some e) low)
    let greatest ← comparison ctx .le e high (node ctx (some high) e) (node ctx (some e) high)
    let leg (d : Document) : Document := if complement then negated d else d
    return .document (conjoin "$and" false (leg least) (leg greatest))
  | .and l r => do
    let left ← node ctx none l
    let right ← node ctx none r
    return .document
      (conjoin "$and" (isAndRun l && !r.isLogical) (filterOf l left) (filterOf r right))
  | .or l r => do
    let left ← node ctx none l
    let right ← node ctx none r
    return .document
      (conjoin "$or" (isOrRun l && !r.isLogical) (filterOf l left) (filterOf r right))
  | .not e => do return .document (← negation ctx e (node ctx none e))
  | .call name distinct args => standalone ctx ⟨name, distinct, args⟩
  | .column c =>
    if !c.quoted && counterpart.isNone then
      .ok (.document (.single (ctx.fieldName c) (.bool true)))
    else ctx.value counterpart (.column c)
  | .subquery _ => .error .predicateSubquery
  | e => ctx.value counterpart e

/-- The values of listed items beside the tested expression. -/
def nodes (ctx : Context) (target : Expr) : List Expr → Except Fault (List Value)
  | [] => .ok []
  | e :: rest => do
    let v ← listedItem e (node ctx (some target) e)
    return v :: (← nodes ctx target rest)

end

/-- The filter of an expression. -/
def compile (ctx : Context) (e : Expr) : Except Fault Document := do
  return filterOf e (← node ctx none e)

end DocQuery.Filter
