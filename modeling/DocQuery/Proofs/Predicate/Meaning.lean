import DocQuery.Operand

/-!
# What filters and conditions mean

Two readings of a condition on a document, defined apart from each other: whether the document
satisfies the condition as it is written, and whether a filter accepts the document.

* `Document.at?` — the value at a dotted path
* `Value.order?` — the order of two values of one kind
* `Sql.Expr.isTrueOf` — whether a written condition is true of a document
* `Filter.accepts` — whether a filter accepts a document

### The two design decisions

**Values of one kind.**  Whole numbers and strings are ordered, each among themselves.
Values of different kinds are different and have no order, but for the operators inside
`$expr`, which order kinds as well (`Filter.expressionOrder?`).

**Operators by name.**  Filters are documents, so `Filter.accepts` looks operators up by
the names that documents use and knows nothing of `Comparison`.  An operator that is not
listed accepts nothing.
-/

namespace DocQuery

open Sql

/-! ### Values in documents -/

namespace Document

/-- The value behind the parts of a path; every part but the last one leads to a document. -/
def follow (d : Document) : List (List Char) → Option Value
  | [] => none
  | [part] => d.get? (String.ofList part)
  | part :: next :: rest =>
    match d.get? (String.ofList part) with
    | some (.document inner) => inner.follow (next :: rest)
    | _ => none

/-- The value at a dotted path. -/
def at? (d : Document) (path : String) : Option Value :=
  d.follow (path.toList.splitOn '.')

end Document

/-- The order of two values of one kind. -/
def Value.order? : Value → Value → Option Ordering
  | .int a, .int b => some (compare a b)
  | .string a, .string b => some (compare a b)
  | _, _ => none

/-! ### Conditions -/

namespace Sql

/-- Whether an operator fits an order. -/
def Comparison.fits : Comparison → Ordering → Bool
  | .eq => Ordering.isEq
  | .ne => Ordering.isNe
  | .lt => Ordering.isLT
  | .le => Ordering.isLE
  | .gt => Ordering.isGT
  | .ge => Ordering.isGE

/-- Whether a comparison is true of two values.  Values of different kinds are different,
and nothing is true of a missing value. -/
def Comparison.isTrueOf (op : Comparison) : Option Value → Option Value → Bool
  | some a, some b =>
    match a.order? b with
    | some o => op.fits o
    | none => op == .ne
  | _, _ => false

namespace Expr

/-- The value of a literal.  A doubled quote stands for one, and each sign applies to the
value behind it. -/
def constant? : Expr → Option Value
  | .literal (.int n) => some (.int n)
  | .literal (.string raw) => some (.string (Operand.unquote raw))
  | .signed negative e =>
    match e.constant? with
    | some (.int n) => some (.int (if negative then -n else n))
    | _ => none
  | _ => none

/-- The value of a column or a literal. -/
def valueIn (d : Document) : Expr → Option Value
  | .column c => d.at? c.fullName
  | e => e.constant?

/-- **Whether a condition is true of a document.** -/
def isTrueOf (d : Document) : Expr → Bool
  | .compare op l r => op.isTrueOf (l.valueIn d) (r.valueIn d)
  | .inList negated e items =>
    negated != items.any fun item => Comparison.eq.isTrueOf (e.valueIn d) (item.valueIn d)
  | .between negated e low high =>
    negated != (Comparison.ge.isTrueOf (e.valueIn d) (low.valueIn d) &&
      Comparison.le.isTrueOf (e.valueIn d) (high.valueIn d))
  | .and l r => l.isTrueOf d && r.isTrueOf d
  | .or l r => l.isTrueOf d || r.isTrueOf d
  | .not e => !e.isTrueOf d
  | _ => false

end Expr

end Sql

/-! ### Filters -/

namespace Filter

/-- Whether a value is there and equal to another one. -/
def same (v : Option Value) (w : Value) : Bool :=
  (v.bind (·.order? w)).any Ordering.isEq

/-- Whether a value satisfies an operator of the database. -/
def satisfies (v : Option Value) (operator : String) (w : Value) : Bool :=
  match operator, w with
  | "$eq", w => same v w
  | "$ne", w => !same v w
  | "$lt", w => (v.bind (·.order? w)).any Ordering.isLT
  | "$lte", w => (v.bind (·.order? w)).any Ordering.isLE
  | "$gt", w => (v.bind (·.order? w)).any Ordering.isGT
  | "$gte", w => (v.bind (·.order? w)).any Ordering.isGE
  | "$in", .array items => items.any (same v)
  | "$nin", .array items => !items.any (same v)
  | _, _ => false

mutual

/-- Whether a value passes a test: an operator with its operand, or the negation of tests. -/
def passes (v : Option Value) (operator : String) : Value → Bool
  | .document ⟨tests⟩ =>
    match operator with
    | "$not" => !passesAll v tests
    | _ => satisfies v operator (.document ⟨tests⟩)
  | w => satisfies v operator w

/-- Whether a value passes several tests. -/
def passesAll (v : Option Value) : List (String × Value) → Bool
  | [] => true
  | (operator, w) :: rest => passes v operator w && passesAll v rest

end

/-! ### Expressions inside filters -/

/-- The place of a kind of values in the order of all values; a missing value comes first. -/
def kindRank : Option Value → Nat
  | none => 0
  | some .null => 1
  | some (.int _) | some (.double _) => 2
  | some (.string _) => 3
  | some (.document _) => 4
  | some (.array _) => 5
  | some (.objectId _) => 6
  | some (.bool _) => 7
  | some (.date _) => 8

/-- The order of two operands of an expression: by kind, and within one kind by value. -/
def expressionOrder? (l r : Option Value) : Option Ordering :=
  if kindRank l = kindRank r then
    match l, r with
    | some a, some b => a.order? b
    | _, _ => some .eq
  else some (compare (kindRank l) (kindRank r))

/-- The value of an operand of an expression: a string that begins with a dollar sign is
the path of a field, and everything else stands for itself. -/
def operandIn (d : Document) : Value → Option Value
  | .string s =>
    match s.toList with
    | '$' :: path => d.at? (String.ofList path)
    | _ => some (.string s)
  | v => some v

/-- Whether an operator of an expression fits an order. -/
def orderFits (operator : String) (o : Ordering) : Bool :=
  match operator with
  | "$eq" => o.isEq
  | "$ne" => o.isNe
  | "$lt" => o.isLT
  | "$lte" => o.isLE
  | "$gt" => o.isGT
  | "$gte" => o.isGE
  | _ => false

/-- Whether an expression is true of a document. -/
def expressionHolds (d : Document) : Value → Bool
  | .document ⟨[(operator, .array [l, r])]⟩ =>
    (expressionOrder? (operandIn d l) (operandIn d r)).any (orderFits operator)
  | .document ⟨[("$not", e)]⟩ => !expressionHolds d e
  | _ => false

/-! ### Acceptance -/

mutual

/-- **Whether a filter accepts a document**: the document has to pass every entry. -/
def accepts (d : Document) : Document → Bool
  | ⟨entries⟩ => acceptsEntries d entries

/-- Whether a document passes all entries of a filter. -/
def acceptsEntries (d : Document) : List (String × Value) → Bool
  | [] => true
  | (key, v) :: rest => acceptsEntry d key v && acceptsEntries d rest

/-- Whether a document passes an entry of a filter: filters joined by a logical operator,
an expression, tests of a field, or the value that a field has. -/
def acceptsEntry (d : Document) (key : String) : Value → Bool
  | .array filters =>
    match key with
    | "$and" => acceptsAll d filters
    | "$or" => acceptsAny d filters
    | _ => false
  | .document ⟨tests⟩ =>
    match key with
    | "$expr" => expressionHolds d (.document ⟨tests⟩)
    | _ => passesAll (d.at? key) tests
  | v => same (d.at? key) v

/-- Whether all filters accept a document. -/
def acceptsAll (d : Document) : List Value → Bool
  | [] => true
  | .document f :: rest => accepts d f && acceptsAll d rest
  | _ :: _ => false

/-- Whether one of several filters accepts a document. -/
def acceptsAny (d : Document) : List Value → Bool
  | [] => false
  | .document f :: rest => accepts d f || acceptsAny d rest
  | _ :: rest => acceptsAny d rest

end

@[simp] theorem accepts_single (d : Document) (key : String) (v : Value) :
    accepts d (.single key v) = acceptsEntry d key v := by
  simp [Document.single, accepts, acceptsEntries]

@[simp] theorem acceptsEntry_and (d : Document) (filters : List Value) :
    acceptsEntry d "$and" (.array filters) = acceptsAll d filters := by
  simp [acceptsEntry]

@[simp] theorem acceptsEntry_or (d : Document) (filters : List Value) :
    acceptsEntry d "$or" (.array filters) = acceptsAny d filters := by
  simp [acceptsEntry]

@[simp] theorem acceptsEntry_expr (d e : Document) :
    acceptsEntry d "$expr" (.document e) = expressionHolds d (.document e) := by
  obtain ⟨entries⟩ := e
  simp [acceptsEntry]

/-- A field is tested under every key but that of an expression. -/
theorem acceptsEntry_tests (d tests : Document) {key : String} (hkey : key ≠ "$expr") :
    acceptsEntry d key (.document tests) = passesAll (d.at? key) tests.entries := by
  obtain ⟨entries⟩ := tests
  simp [acceptsEntry]

@[simp] theorem acceptsAll_append (d : Document) (fs gs : List Value) :
    acceptsAll d (fs ++ gs) = (acceptsAll d fs && acceptsAll d gs) := by
  induction fs with
  | nil => simp [acceptsAll]
  | cons f rest ih => cases f <;> simp [acceptsAll, ih, Bool.and_assoc]

@[simp] theorem acceptsAny_append (d : Document) (fs gs : List Value) :
    acceptsAny d (fs ++ gs) = (acceptsAny d fs || acceptsAny d gs) := by
  induction fs with
  | nil => simp [acceptsAny]
  | cons f rest ih => cases f <;> simp [acceptsAny, ih, Bool.or_assoc]

end Filter

end DocQuery
