import DocQuery.Decimal.Reading
import DocQuery.Scan.Parser

/-!
# Names, quoted texts and counts

## Main Definitions

* `identifier` — a bare name
* `quoted` — the raw text between two quotes
* `name`, `dottedName` — a bare or quoted name, and a path of them
* `aliasName` — an optional alias
* `count` — a number without sign

## Design Notes

The raw text of a quoted section keeps its doubled quotes.  Names read them as single ones
at once, string literals leave them to whoever uses the literal.
-/

namespace DocQuery.Scan

open DocQuery.Text

/-- A bare name: characters of names, the first of which is no ASCII digit. -/
def identifier : Parser (Option String) := do
  skipBlanks
  let c ← current
  if c.isDigit || !isNameChar c then return none
  return some (String.ofList (← takeChars isNameChar))

/-- The text up to a quote that is not doubled, and what follows that quote. -/
def quotedBody (q : Char) : List Char → Option (List Char × List Char)
  | [] => none
  | c :: after =>
    if c == q then
      match after with
      | [] => if q == '\x00' then none else some ([], [])
      | d :: after' =>
        if d == q then (quotedBody q after').map fun (text, rest) => (c :: d :: text, rest)
        else some ([], d :: after')
    else (quotedBody q after).map fun (text, rest) => (c :: text, rest)

@[simp] theorem quotedBody_nil (q : Char) : quotedBody q [] = none := rfl

/-- The raw text between quotes; the opening quote is the next character. -/
def quoted (q : Char) : Parser String := do
  let mark ← get
  match quotedBody q (mark.drop 1) with
  | some (text, after) =>
    set after
    return String.ofList text
  | none =>
    set ([] : List Char)
    failAt mark .unterminatedQuote

/-- Whether a character opens a quoted name. -/
def isNameQuote (c : Char) : Bool :=
  c == '"' || c == '\x60'

/-- A bare name, or one between double or back quotes. -/
def name : Parser String := do
  skipBlanks
  let mark ← get
  let c ← current
  if isNameQuote c then
    return undouble c (← quoted c)
  match ← identifier with
  | some word => return word
  | none => failAt mark .expectedName

/-- The names that follow a name, each directly after a dot, at most as many as the budget. -/
def moreNames : Nat → Parser (List String)
  | 0 => return []
  | budget + 1 => do
    if (← current) == '.' then
      advance 1
      let first ← name
      return first :: (← moreNames budget)
    else return []

/-- A name, or names with dots between them. -/
def dottedName : Parser String := do
  let first ← name
  let others ← moreNames (← get).length
  return String.intercalate "." (first :: others)

/-- An optional alias: a name after the keyword, or a name alone that is quoted or not
reserved. -/
def aliasName : Parser (Option String) := do
  if ← consume .asKw then
    return some (← name)
  skipBlanks
  if isNameQuote (← current) then
    return some (← name)
  let mark ← get
  match ← identifier with
  | some word =>
    if isReserved word then
      set mark
      return none
    return some word
  | none =>
    set mark
    return none

/-- A number without sign that fits 64 bits. -/
def count : Parser Nat := do
  skipBlanks
  let mark ← get
  let digits ← takeChars Char.isDigit
  match Decimal.readInt? digits with
  | some n => return n.toNat
  | none => failAt mark .expectedInteger

end DocQuery.Scan
