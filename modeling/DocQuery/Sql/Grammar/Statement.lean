import DocQuery.Scan.Cursor
import DocQuery.Sql.Grammar.Query

/-!
# Reading statements

## Main Definitions

* `parseInsert`, `parseUpdate`, `parseDelete` — the writing statements
* `parseStatement` — a statement and the end of the text
* `Statement.ofString` — the statement written in a text
-/

namespace DocQuery.Sql

open DocQuery.Scan

namespace Grammar

def row : Parser (List Expr) := do
  expectChar '('
  if ← consumeChar ')' then
    return []
  let values ← commaList parseExpr
  expectChar ')'
  return values

/-- A list of names in parentheses, if one comes next. -/
def nameList : Parser (List String) := do
  if ← consumeChar '(' then
    let names ← commaList name
    expectChar ')'
    return names
  return []

/-- An assignment: a comparison for equality whose left side is a column that is not
quoted. -/
def assignment : Parser (Column × Expr) := do
  let mark ← get
  match ← parseExpr with
  | .compare .eq (.column c) value =>
    if c.quoted then failAt mark .expectedAssignment
    return (c, value)
  | _ => failAt mark .expectedAssignment

end Grammar

open Grammar

def parseInsert : Parser Insert := do
  expect .insertInto
  let table ← dottedName
  let columns ← nameList
  expect .values
  return { table, columns, rows := ← commaList row }

/-- Reads an update.  An offset may be written and has no effect. -/
def parseUpdate : Parser Update := do
  expect .update
  let table ← table
  expect .setKw
  let assignments ← commaList assignment
  let filter ← after .whereKw parseExpr
  let (limit, _) ← paging
  return { table, assignments, filter, limit }

/-- Reads a deletion.  An offset may be written and has no effect. -/
def parseDelete : Parser Delete := do
  expect .delete
  let targets ← if ← check .fromKw then pure [] else commaList dottedName
  expect .fromKw
  let source ← table
  let filter ← after .whereKw parseExpr
  let (limit, _) ← paging
  return { targets, source, filter, limit }

def parseAnyStatement : Parser Statement := do
  if (← check .select) || (← current) == '(' then
    return .select (← parseQuery)
  if ← check .insertInto then return .insert (← parseInsert)
  if ← check .update then return .update (← parseUpdate)
  if ← check .delete then return .delete (← parseDelete)
  let mark ← get
  discard (takeChars (!Text.isBlank ·))
  failAt mark .unsupportedStatement

/-- Reads a statement, which must reach to the end of the text. -/
def parseStatement : Parser Statement := do
  let statement ← parseAnyStatement
  endOfText
  return statement

def Statement.ofString (text : String) : Except SyntaxError Statement :=
  parseStart parseStatement text

end DocQuery.Sql
