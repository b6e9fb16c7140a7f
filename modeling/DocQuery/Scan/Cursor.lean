import DocQuery.Scan.Parser

/-!
# Cursors

A text together with a place in it, for reading step by step.

## Main Definitions

* `Cursor` — a text and what remains of it
* `Cursor.position`, `Cursor.slice` — positions counted from the start
* `Cursor.run` — runs a parser, moving to where it stopped even if it failed
* `parseStart` — runs a parser at the start of a text
-/

namespace DocQuery.Scan

/-- A text and what remains of it. -/
structure Cursor where
  text : List Char
  rest : List Char

namespace Cursor

def ofString (s : String) : Cursor :=
  ⟨s.toList, s.toList⟩

def position (c : Cursor) : Nat :=
  c.text.length - c.rest.length

def isAtEnd (c : Cursor) : Bool :=
  c.rest.isEmpty

/-- The characters between two positions, as far as they exist. -/
def slice (c : Cursor) (start finish : Nat) : String :=
  String.ofList ((c.text.take finish).drop start)

/-- Runs a parser from the place, and moves to where it stopped. -/
def run {α : Type} (c : Cursor) (p : Parser α) : Except SyntaxError α × Cursor :=
  match p.run c.rest with
  | .ok (a, rest) => (.ok a, { c with rest })
  | .error f => (.error (f.locate c.text.length), { c with rest := f.stop })

end Cursor

/-- Runs a parser at the start of a text; what it leaves is not looked at. -/
def parseStart {α : Type} (p : Parser α) (text : String) : Except SyntaxError α :=
  ((Cursor.ofString text).run p).1

end DocQuery.Scan
