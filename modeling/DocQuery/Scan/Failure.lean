/-!
# Syntax failures

Why a text could not be read, and where.

## Main Definitions

* `Cause` — the reasons, with their wording in `Cause.message`
* `Slip` — the few reasons that deserve a hint of their own
* `Failure` — a reason with two marks in the text, each given by what followed it
* `SyntaxError` — a failure with positions counted from the start of the text

## Design Notes

Reading only ever moves forward over the remaining characters, so a place in the text is
the list of characters that remain there.  Positions are recovered from lengths when a
failure is reported.
-/

namespace DocQuery.Scan

/-- Why a text could not be read. -/
inductive Cause where
  | expectedChar (c : Char)
  | expectedWord (word : String)
  | expectedName
  | expectedInteger
  | expectedAssignment
  | unterminatedQuote
  | invalidNumber
  | invalidDate
  | invalidTimestamp
  | invalidExpression
  | invalidWildcard
  | unexpectedKeyword (word : String)
  | unexpectedEnd
  | unexpectedComma
  | unexpectedToken
  | doubleEquals
  | multipleTables
  | unsupportedStatement
deriving Repr, DecidableEq

/-- The reasons that deserve a hint of their own; all others are plain syntax errors. -/
inductive Slip where
  | syntaxError
  | doubleEquals
  | multipleTables
  | unsupportedStatement
deriving Repr, DecidableEq

namespace Cause

def message : Cause → String
  | .expectedChar c => "Expected '" ++ String.ofList [c] ++ "'"
  | .expectedWord word => "Expected " ++ word
  | .expectedName => "Expected a name"
  | .expectedInteger => "Expected a positive integer"
  | .expectedAssignment => "Expected a column assignment"
  | .unterminatedQuote => "Unterminated quoted text"
  | .invalidNumber => "Invalid number"
  | .invalidDate => "Invalid date literal"
  | .invalidTimestamp => "Invalid timestamp literal"
  | .invalidExpression => "Invalid expression"
  | .invalidWildcard => "Invalid wildcard"
  | .unexpectedKeyword word => "Unexpected keyword " ++ word
  | .unexpectedEnd => "Unexpected end of query"
  | .unexpectedComma => "Unexpected token ','"
  | .unexpectedToken => "Unexpected token"
  | .doubleEquals => "Unexpected token '=='"
  | .multipleTables => "Multiple tables in FROM"
  | .unsupportedStatement => "Unsupported statement"

def slip : Cause → Slip
  | .doubleEquals => .doubleEquals
  | .multipleTables => .multipleTables
  | .unsupportedStatement => .unsupportedStatement
  | _ => .syntaxError

end Cause

/-- A reason, what remained of the text where the faulty part began, and what remained
where reading stopped. -/
structure Failure where
  cause : Cause
  mark : List Char
  stop : List Char
deriving Repr, DecidableEq

/-- A failure with its positions and the faulty part of the text. -/
structure SyntaxError where
  cause : Cause
  text : String
  start : Nat
  finish : Nat
deriving Repr, DecidableEq

/-- The faulty part: from the mark to where reading stopped, and at least one character if
there is one. -/
def Failure.excerpt (f : Failure) : List Char :=
  f.mark.take (max (f.mark.length - f.stop.length) 1)

/-- A failure as seen from a text of `length` characters. -/
def Failure.locate (f : Failure) (length : Nat) : SyntaxError where
  cause := f.cause
  text := String.ofList f.excerpt
  start := length - f.mark.length
  finish := length - f.stop.length

def SyntaxError.render (e : SyntaxError) : String :=
  "ParseError: " ++ e.cause.message ++ "\n  at [" ++ toString e.start ++ ":" ++
    toString e.finish ++ "] -> '" ++ e.text ++ "'"

end DocQuery.Scan
