import DocQuery.Sql.Grammar.Expr

/-!
# Reading queries

## Main Definitions

* `selectItem`, `orderItem`, `paging`, `source`, `join?`, `select`, `query` — the parts, given
  parsers for what stands inside parentheses
* `nestedAt` — those parsers, for a bounded depth of parentheses
* `anyDepth` — a parser freed of the bound

## Design Notes

**Depth is bounded by length.**  A parser is only handed down after a character has been
read, so parsers for one level more than there are characters never run out.  The bottom
level is never reached.
-/

namespace DocQuery.Sql.Grammar

open DocQuery.Scan

/-- A selected expression with its alias; wildcards have none. -/
def selectItem (nested : Nested) : Parser SelectItem := do
  let expr ← nested.expr
  if expr.isWildcard then
    return ⟨expr, none⟩
  return ⟨expr, ← aliasName⟩

/-- An expression to order by and its direction. -/
def orderItem (nested : Nested) : Parser OrderItem := do
  let expr ← nested.expr
  if ← consume .desc then
    return ⟨expr, false⟩
  discard (consume .asc)
  return ⟨expr, true⟩

/-- Limit and offset: the limit with an optional offset after it, both separated by a
comma with the offset first, or the offset alone. -/
def paging : Parser (Option Int × Option Int) := do
  let (limit, offset) ← show Parser (Option Int × Option Int) from do
    if ← consume .limit then
      let first ← count
      if ← consumeChar ',' then
        let second ← count
        return (some (second : Int), some (first : Int))
      return (some (first : Int), none)
    return (none, none)
  if offset.isSome then
    return (limit, offset)
  if ← consume .offset then
    return (limit, some ((← count : Nat) : Int))
  return (limit, none)

def table : Parser Source := do
  let name ← dottedName
  return .table name (← aliasName)

/-- A table or a query in parentheses, with its alias. -/
def source (nested : Nested) : Parser Source := do
  if ← consumeChar '(' then
    let query ← nested.query
    expectChar ')'
    return .subquery query (← aliasName)
  table

/-- The first keyword of several that comes next, and what it stands for. -/
def oneOf {α : Type} : List (Keyword × α) → Parser (Option α)
  | [] => return none
  | (k, a) :: others => do
    if ← consume k then return some a
    oneOf others

/-- The keywords of joins, longer ones before those they begin with. -/
def joinKeywords : List (Keyword × JoinKind) := [
  (.innerJoin, .inner), (.leftOuterJoin, .left), (.leftJoin, .left),
  (.rightOuterJoin, .right), (.rightJoin, .right), (.fullOuterJoin, .full),
  (.fullJoin, .full), (.crossJoin, .cross), (.join, .inner)]

/-- What follows a keyword, if the keyword comes next. -/
def after {α : Type} (k : Keyword) (p : Parser α) : Parser (Option α) := do
  if ← consume k then
    return some (← p)
  return none

def join? (nested : Nested) : Parser (Option Join) := do
  match ← oneOf joinKeywords with
  | some kind =>
    let right ← source nested
    return some ⟨kind, right, ← after .onKw nested.expr⟩
  | none => return none

def select (nested : Nested) : Parser Select := do
  expect .select
  let distinct ← consume .distinct
  if !distinct then
    discard (consume .all)
  let items ← commaList (selectItem nested)
  expect .fromKw
  let source ← source nested
  skipBlanks
  if (← current) == ',' then
    let mark ← get
    advance 1
    failAt mark .multipleTables
  let joins ← many (join? nested) (← get).length
  let filter ← after .whereKw nested.expr
  let groupBy ← after .groupBy (commaList nested.expr)
  let having ← after .having nested.expr
  let orderBy ← after .orderBy (commaList (orderItem nested))
  let (limit, offset) ← paging
  return {
    distinct, items, source, joins, filter, groupBy := groupBy.getD [], having
    orderBy := orderBy.getD [], limit, offset }

def branch (nested : Nested) : Parser Query := do
  if ← consumeChar '(' then
    let inner ← nested.query
    expectChar ')'
    return .parenthesized inner
  return .plain (← select nested)

def setOperator : Parser (Option SetOperator) := do
  if ← consume .union then
    if ← consume .all then return some .unionAll
    return some .union
  oneOf [(.intersect, .intersect), (.except, .except)]

/-- A set operator and the query after it, if an operator comes next. -/
def furtherBranch (nested : Nested) : Parser (Option (SetOperator × Query)) := do
  match ← setOperator with
  | some op => return some (op, ← branch nested)
  | none => return none

/-- A query: one branch, or several joined by set operators. -/
def query (nested : Nested) : Parser Query := do
  let first ← branch nested
  match ← many (furtherBranch nested) (← get).length with
  | [] => return first
  | others => return .setOperation (first :: others.map Prod.snd) (others.map Prod.fst)

/-! ### Tying the knot -/

/-- Parsers for what stands inside parentheses, to a bounded depth. -/
def nestedAt : Nat → Nested
  | 0 => ⟨do failAt (← get) .unexpectedEnd, do failAt (← get) .unexpectedEnd⟩
  | depth + 1 =>
    let inner := nestedAt depth
    ⟨disjunction inner, query inner⟩

/-- A parser with as much depth as the remaining text can use. -/
def anyDepth {α : Type} (p : Nested → Parser α) : Parser α := do
  p (nestedAt ((← get).length + 1))

end DocQuery.Sql.Grammar

namespace DocQuery.Sql

open DocQuery.Scan

def parseExpr : Parser Expr := Grammar.anyDepth Grammar.disjunction

def parseQuery : Parser Query := Grammar.anyDepth Grammar.query

def parseSelectItem : Parser SelectItem := Grammar.anyDepth Grammar.selectItem

def parseOrderItem : Parser OrderItem := Grammar.anyDepth Grammar.orderItem

/-- Reads a table or a query in parentheses. -/
def parseSource : Parser Source := Grammar.anyDepth Grammar.source

def parseJoin : Parser (Option Join) := Grammar.anyDepth Grammar.join?

def parseCallArgs (name : String) : Parser Call := Grammar.anyDepth (Grammar.callArgs · name)

end DocQuery.Sql
