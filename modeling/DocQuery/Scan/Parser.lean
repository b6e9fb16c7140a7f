import DocQuery.Scan.Failure
import DocQuery.Scan.Keyword

/-!
# Parsers

A parser reads from the front of the remaining text and gives a result with what remains
after it, or a failure.

## Main Definitions

* `Parser` — the type
* `current`, `peek` — look at the text without moving
* `skipBlanks`, `advance` — move
* `consume`, `check`, `expect` — keywords
* `consumeChar`, `expectChar` — single characters
* `endOfText` — the end, after any number of semicolons
* `commaList` — items separated by commas

## Design Notes

Past the end of the text the null character is seen; a null character in the text looks
the same, but is not the end.  Testing for a keyword or a character passes over the blanks
before it even when the test fails.

Loops run on a budget, the number of characters that remain.  Every round reads at least one
character, so the budget never ends a loop early.
-/

namespace DocQuery.Scan

open DocQuery.Text

/-- Reads from the front of the remaining text. -/
abbrev Parser := StateT (List Char) (Except Failure)

/-! ### Looking and moving -/

/-- The character at a distance from the front, or the null character past the end. -/
def peekAt (n : Nat) (cs : List Char) : Char :=
  cs.getD n '\x00'

/-- The character at the front, or the null character at the end. -/
def front (cs : List Char) : Char :=
  cs.headD '\x00'

@[simp] theorem front_nil : front [] = '\x00' := rfl

@[simp] theorem front_cons (c : Char) (cs : List Char) : front (c :: cs) = c := rfl

def rest : Parser (List Char) := get

def current : Parser Char := do
  return front (← get)

/-- The character at a distance from the front. -/
def peek (n : Nat) : Parser Char := do
  return peekAt n (← get)

def advance (n : Nat) : Parser Unit :=
  modify (List.drop n)

def skipBlanks : Parser Unit :=
  modify dropBlanks

/-- Reads the characters at the front that satisfy a test. -/
def takeChars (test : Char → Bool) : Parser (List Char) := do
  let cs ← get
  set (cs.dropWhile test)
  return cs.takeWhile test

/-- Fails, the faulty part having begun at a mark. -/
def failAt {α : Type} (mark : List Char) (cause : Cause) : Parser α := do
  throw ⟨cause, mark, ← get⟩

/-! ### Keywords and characters -/

/-- Passes over blanks and reads a word if it comes next. -/
def consumeWord (w : Word) : Parser Bool := do
  skipBlanks
  match w.match? (← get) with
  | some after =>
    set after
    return true
  | none => return false

/-- Passes over blanks and reads a keyword if it comes next. -/
def consume (k : Keyword) : Parser Bool :=
  consumeWord k.word

/-- Passes over blanks and tells whether a keyword comes next. -/
def check (k : Keyword) : Parser Bool := do
  skipBlanks
  return (k.word.match? (← get)).isSome

def expect (k : Keyword) : Parser Unit := do
  let mark ← get
  if !(← consume k) then failAt mark (.expectedWord k.word.display)

/-- Passes over blanks and reads a character if it comes next. -/
def consumeChar (c : Char) : Parser Bool := do
  skipBlanks
  if (← current) == c then
    advance 1
    return true
  else return false

def expectChar (c : Char) : Parser Unit := do
  let mark ← get
  if !(← consumeChar c) then failAt mark (.expectedChar c)

/-! ### Loops -/

/-- Reads semicolons, at most as many as the budget. -/
def skipSemicolons : Nat → Parser Unit
  | 0 => return
  | budget + 1 => do
    if ← consumeChar ';' then skipSemicolons budget

/-- The end of the text, after any number of semicolons. -/
def endOfText : Parser Unit := do
  skipSemicolons (← get).length
  skipBlanks
  match ← get with
  | [] => return
  | '=' :: '=' :: after => do
    let mark ← get
    set after
    failAt mark .doubleEquals
  | ',' :: _ => failAt (← get) .unexpectedComma
  | _ => failAt (← get) .unexpectedToken

/-- The items that follow an item, each after a comma, at most as many as the budget. -/
def moreItems {α : Type} (item : Parser α) : Nat → Parser (List α)
  | 0 => return []
  | budget + 1 => do
    if ← consumeChar ',' then
      let first ← item
      return first :: (← moreItems item budget)
    else return []

def commaList {α : Type} (item : Parser α) : Parser (List α) := do
  let first ← item
  return first :: (← moreItems item (← get).length)

/-- A value extended step by step for as long as a step succeeds, at most as often as the
budget. -/
def extendWhile {α : Type} (step : α → Parser (Option α)) : Nat → α → Parser α
  | 0, a => return a
  | budget + 1, a => do
    match ← step a with
    | some next => extendWhile step budget next
    | none => return a

/-- Reads zero or more items for as long as one is found, at most as many as the budget. -/
def many {α : Type} (item : Parser (Option α)) : Nat → Parser (List α)
  | 0 => return []
  | budget + 1 => do
    match ← item with
    | some first => return first :: (← many item budget)
    | none => return []

end DocQuery.Scan
