import DocQuery.Sql.Display
import DocQuery.Sql.Grammar.Literal
import DocQuery.Text.Casing

/-!
# Reading expressions

From the loosest to the tightest, the levels are: disjunction, conjunction, negation,
predicate, sum, product, sign, primary.

## Main Definitions

* `Nested` — how expressions and queries inside parentheses are read
* `primary`, `unary`, `product`, `sum`, `predicate`, `negation`, `conjunction`,
  `disjunction` — the levels

## Design Notes

**The recursion is open.**  No level calls itself through parentheses; each takes the
parsers for what stands inside them as an argument.  The knot is tied in one place, where
the depth is bounded by the length of the text.
-/

namespace DocQuery.Sql.Grammar

open DocQuery.Scan
open DocQuery.Text

/-- How an expression and a query inside parentheses are read. -/
structure Nested where
  expr : Parser Expr
  query : Parser Query

/-- The arguments of a call, from the opening parenthesis on. -/
def callArgs (nested : Nested) (name : String) : Parser Call := do
  expectChar '('
  if ← consumeChar ')' then
    return ⟨name, false, []⟩
  let distinct ← consume .distinct
  let args ← commaList nested.expr
  expectChar ')'
  return ⟨name, distinct, args⟩

/-- What stands inside parentheses whose opening one has been read: a query or an
expression. -/
def parenthesis (nested : Nested) : Parser Expr := do
  if ← check .select then
    let query ← nested.query
    expectChar ')'
    return .subquery query
  let e ← nested.expr
  expectChar ')'
  return e

/-- The parts of a path after its first name, each after a dot.  A star ends the path, and
is only accepted as the first part.  The budget bounds the number of parts. -/
def columnPath (mark : List Char) (table : String) : Nat → List String → Parser Expr
  | 0, parts => return .column (.qualified table (String.intercalate "." parts))
  | budget + 1, parts => do
    if (← current) != '.' then
      return .column (.qualified table (String.intercalate "." parts))
    advance 1
    if (← current) == '*' then
      advance 1
      if parts.isEmpty then return .qualifiedWildcard table
      failAt mark .invalidWildcard
    let part ← name
    columnPath mark table budget (parts ++ [part])

/-- What a bare word at a mark stands for: a constant, a dated literal, a call or a column. -/
def wordExpr (nested : Nested) (mark : List Char) (word : String) : Parser Expr := do
  if sameWord word "TRUE" then return .literal (.bool true)
  if sameWord word "FALSE" then return .literal (.bool false)
  if sameWord word "NULL" then return .literal .null
  if isReserved word then failAt mark (.unexpectedKeyword (upper word))
  skipBlanks
  match ← current with
  | '\'' =>
    if sameWord word "DATE" then return .literal (← datedLiteral false)
    if sameWord word "TIMESTAMP" then return .literal (← datedLiteral true)
    return .column (.bare word)
  | '(' => return (← callArgs nested word).toExpr
  | '.' => columnPath mark word (← get).length []
  | _ => return .column (.bare word)

/-- The tightest level. -/
def primary (nested : Nested) : Parser Expr := do
  skipBlanks
  let mark ← get
  match front mark with
  | '\x00' => failAt mark .unexpectedEnd
  | '(' =>
    advance 1
    parenthesis nested
  | '\'' => return .literal (← stringLiteral)
  | '"' => return .column (.ofQuoted (← name))
  | '\x60' => return .column (.ofQuoted (← name))
  | '*' =>
    advance 1
    return .wildcard
  | c =>
    if c.isDigit || (c == '.' && (peekAt 1 mark).isDigit) then
      return .literal (← numberLiteral)
    match ← identifier with
    | some word => wordExpr nested mark word
    | none => failAt mark .invalidExpression

/-- Signs before a primary, at most as many as the budget. -/
def signedPrimary (nested : Nested) : Nat → Parser Expr
  | 0 => primary nested
  | budget + 1 => do
    skipBlanks
    match ← current with
    | '-' =>
      advance 1
      return .signed true (← signedPrimary nested budget)
    | '+' =>
      advance 1
      return .signed false (← signedPrimary nested budget)
    | _ => primary nested

/-- A primary with any number of signs. -/
def unary (nested : Nested) : Parser Expr := do
  signedPrimary nested (← get).length

/-- One more operator of a kind and its right side, if one comes next. -/
def arithmeticStep (accepts : Arithmetic → Bool) (operand : Parser Expr) (left : Expr) :
    Parser (Option Expr) := do
  skipBlanks
  match Arithmetic.ofChar? (← current) with
  | some op =>
    if accepts op then
      advance 1
      return some (.arithmetic op left (← operand))
    else return none
  | none => return none

/-- Operands joined by multiplicative operators, from left to right. -/
def product (nested : Nested) : Parser Expr := do
  let first ← unary nested
  extendWhile (arithmeticStep (!·.isAdditive) (unary nested)) (← get).length first

/-- Operands joined by additive operators, from left to right. -/
def sum (nested : Nested) : Parser Expr := do
  let first ← product nested
  extendWhile (arithmeticStep (·.isAdditive) (product nested)) (← get).length first

/-- The right side of a membership test: a query, or expressions. -/
def members (nested : Nested) : Parser (List Expr) := do
  expectChar '('
  if ← check .select then
    let query ← nested.query
    expectChar ')'
    return [.subquery query]
  if ← consumeChar ')' then
    return []
  let items ← commaList nested.expr
  expectChar ')'
  return items

def bounds (nested : Nested) (negated : Bool) (operand : Expr) : Parser Expr := do
  let low ← sum nested
  expect .and
  let high ← sum nested
  return .between negated operand low high

/-- A sum, alone or as the left side of a test. -/
def predicate (nested : Nested) : Parser Expr := do
  let left ← sum nested
  match ← comparison with
  | some op => return .compare op left (← sum nested)
  | none =>
    if ← consume .notLike then return .like true left (← sum nested)
    if ← consume .like then return .like false left (← sum nested)
    if ← consume .isNotNull then return .isNull true left
    if ← consume .isNull then return .isNull false left
    if ← consume .notIn then return .inList true left (← members nested)
    if ← consume .inKw then return .inList false left (← members nested)
    if ← consume .notBetween then return ← bounds nested true left
    if ← consume .between then return ← bounds nested false left
    return left

/-- Negations of a predicate, at most as many as the budget. -/
def negated (nested : Nested) : Nat → Parser Expr
  | 0 => predicate nested
  | budget + 1 => do
    if ← consume .not then
      return .not (← negated nested budget)
    predicate nested

/-- A predicate with any number of negations. -/
def negation (nested : Nested) : Parser Expr := do
  negated nested (← get).length

/-- One more operand after a keyword, if the keyword comes next. -/
def logicalStep (k : Keyword) (join : Expr → Expr → Expr) (operand : Parser Expr)
    (left : Expr) : Parser (Option Expr) := do
  if ← consume k then
    return some (join left (← operand))
  else return none

/-- Negations joined from left to right. -/
def conjunction (nested : Nested) : Parser Expr := do
  let first ← negation nested
  extendWhile (logicalStep .and .and (negation nested)) (← get).length first

/-- Conjunctions joined from left to right. -/
def disjunction (nested : Nested) : Parser Expr := do
  let first ← conjunction nested
  extendWhile (logicalStep .or .or (conjunction nested)) (← get).length first

end DocQuery.Sql.Grammar
