import DocQuery.Regex.Syntax
import DocQuery.Text.Casing

/-!
# The size of regular expressions

A pattern is matched by two automata, one for each direction of reading.  Repetitions are
written out, so that a short pattern can have large automata.  Those of more than
`sizeLimit` bytes are refused.

## Main Definitions

* `Size` — the bytes of the two automata
* `ClassSet.size`, `Node.measure` — the size of a class and of an expression
* `Node.isTooLarge` — whether an expression is beyond the limit

## Design Notes

**States and edges.**  A state takes `stateBytes`, an edge of a class `edgeBytes` and a
branch of a choice `branchBytes`.  A character is read byte by byte, one state for each
byte.

**Classes of Unicode.**  Their automata share states, forwards more than backwards.  The
sizes given here are means, and sets in brackets are taken as the sum of what they hold.
This is near enough: only a class that is repeated hundreds of times comes near the limit.

**An estimate.**  The automata are those of an engine outside of this library.  The limit
is its own, but the bytes of states, edges, branches and classes are measured on samples
and stand for what the engine would find.  Near the limit the estimate may be wrong on
either side.  No result of this library turns on it: `Node.isTooLarge` only decides
whether a pattern is refused.
-/

namespace DocQuery.Regex

open DocQuery.Text

/-- The greatest number of bytes of an automaton. -/
def sizeLimit : Nat := 10485760

def stateBytes : Nat := 32

/-- The bytes of an edge of a class. -/
def edgeBytes : Nat := 8

/-- The bytes of a branch of a choice. -/
def branchBytes : Nat := 4

/-- The bytes of the automata that read forwards and backwards. -/
structure Size where
  forward : Nat
  backward : Nat
deriving Repr, DecidableEq

namespace Size

/-- The same number of bytes in both directions. -/
def both (n : Nat) : Size := ⟨n, n⟩

def add (s t : Size) : Size :=
  ⟨s.forward + t.forward, s.backward + t.backward⟩

def times (n : Nat) (s : Size) : Size :=
  ⟨n * s.forward, n * s.backward⟩

/-- The larger of two parts, in each direction. -/
def max (s t : Size) : Size :=
  ⟨Nat.max s.forward t.forward, Nat.max s.backward t.backward⟩

end Size

/-! ### Classes -/

/-- The size of a class that an escaped letter names. -/
def Shorthand.size : Shorthand → (negated : Bool) → Size
  | .digit, false => ⟨1584, 5122⟩
  | .digit, true => ⟨2464, 12758⟩
  | .blank, false => ⟨424, 682⟩
  | .blank, true => ⟨824, 1925⟩
  | .word, false => ⟨20592, 49944⟩
  | .word, true => ⟨20008, 46546⟩

/-- The sizes of the largest properties, by their names in loose form. -/
def largeProperties : List (List String × Size) := [
  (["l", "letter", "alpha", "alphabetic"], ⟨18496, 42838⟩),
  (["lu", "uppercaseletter", "upper", "uppercase"], ⟨7552, 26513⟩),
  (["ll", "lowercaseletter", "lower", "lowercase"], ⟨8112, 27619⟩),
  (["n", "number"], ⟨4888, 9756⟩),
  (["nd", "decimalnumber", "digit"], ⟨1584, 5122⟩),
  (["p", "punct", "punctuation"], ⟨6776, 11981⟩),
  (["s", "symbol"], ⟨8128, 15965⟩),
  (["m", "mark", "combiningmark"], ⟨9704, 18783⟩),
  (["z", "separator"], ⟨408, 609⟩)]

/-- The size of a property; those that are not among the large ones are taken to be as
large as a script. -/
def Property.size (p : Property) : Size :=
  let name :=
    match p with
    | .named name => Property.loose name
    | .valued _ value => Property.loose value
  match largeProperties.find? (·.1.contains name) with
  | some (_, size) => size
  | none => ⟨1688, 2849⟩

/-- The bytes of a class beside its edges. -/
def classBytes : Nat := 2 * stateBytes

/-- The bytes of what lies outside ASCII in the complement of a set. -/
def complementBytes : Nat := 900

/-- Whether a character is written as one byte. -/
def isSingleByte (c : Char) : Bool := c.toNat < 0x80

namespace ClassSet

mutual

/-- What a set adds to its class; `unicode` says that patterns match characters. -/
def size (unicode : Bool) : ClassSet → Size
  | .empty => .both 0
  | .char c =>
    .both (if isSingleByte c then edgeBytes else branchBytes + stateBytes * c.utf8Size)
  | .range a b =>
    .both (if isSingleByte b then edgeBytes
      else branchBytes + stateBytes * (a.utf8Size + b.utf8Size))
  | .posix negated => .both (2 * edgeBytes + if negated then complementBytes else 0)
  | .shorthand kind negated => if unicode then kind.size negated else .both (4 * edgeBytes)
  | .property p => p.size
  | .bracketed negated set =>
    .add (.both (if unicode && negated then complementBytes else 0)) (set.size unicode)
  | .union items => sizeOfAll unicode items
  | .combined l r => .max (l.size unicode) (r.size unicode)

def sizeOfAll (unicode : Bool) : List ClassSet → Size
  | [] => .both 0
  | s :: rest => .add (s.size unicode) (sizeOfAll unicode rest)

end

end ClassSet

/-! ### Expressions -/

/-- How characters are matched. -/
structure Mode where
  /-- Patterns match characters, not bytes. -/
  unicode : Bool := true
  /-- Capital and small letters are the same. -/
  anyCase : Bool := false

def Mode.apply (m : Mode) (f : Flags) : Mode :=
  ⟨f.apply 'u' m.unicode, f.apply 'i' m.anyCase⟩

/-- Whether a character has another form in another case. -/
def hasOtherCase (c : Char) : Bool :=
  upperChar c != [c] || lowerChar c != [c]

/-- The size of a character.  Where the case does not count, a letter is a class of its
forms; two Latin letters have a third form outside ASCII. -/
def charSize (m : Mode) (c : Char) : Size :=
  if m.anyCase && hasOtherCase c then
    if m.unicode && (c.toLower == 'k' || c.toLower == 's') then ⟨168, 236⟩
    else if isSingleByte c then .both (classBytes + 2 * edgeBytes)
    else .both (classBytes + 2 * branchBytes + 3 * stateBytes)
  else .both (stateBytes * c.utf8Size)

/-- The size of a repeated expression: as many copies as are needed, then a loop, or
optional copies each with a choice of its own. -/
def repeatedSize (least : Nat) (greatest : Option Nat) (inner : Size) : Size :=
  let choice := stateBytes + 2 * branchBytes
  match greatest with
  | none => .add (.times (Nat.max least 1) inner) (.both choice)
  | some n =>
    if n ≤ least then .times least inner
    else
      .add (.add (.times least inner) (.both stateBytes))
        (.times (n - least) (.add inner (.both choice)))

namespace Node

mutual

/-- Whether an expression can only match the empty text. -/
def matchesOnlyEmpty : Node → Bool
  | .empty | .position | .flags _ => true
  | .group _ _ inner => inner.matchesOnlyEmpty
  | .repetition _ greatest inner => greatest == some 0 || inner.matchesOnlyEmpty
  | .concat items => allMatchOnlyEmpty items
  | .alternation items => allMatchOnlyEmpty items
  | _ => false

/-- Whether all of several expressions can only match the empty text. -/
def allMatchOnlyEmpty : List Node → Bool
  | [] => true
  | n :: rest => n.matchesOnlyEmpty && allMatchOnlyEmpty rest

end

mutual

/-- The size of an expression, and the mode behind it.  What can only match the empty text
is not repeated. -/
def measure (m : Mode) : Node → Size × Mode
  | .empty => (.both 0, m)
  | .char c _ => (charSize m c, m)
  | .dot => (⟨424, 1000⟩, m)
  | .position => (.both stateBytes, m)
  | .shorthand kind negated =>
    (if m.unicode then kind.size negated else .both (classBytes + 4 * edgeBytes), m)
  | .property p => (p.size, m)
  | .bracketed negated set =>
    let content := (ClassSet.bracketed negated set).size m.unicode
    let folded := if m.unicode && m.anyCase then 5 * stateBytes else 0
    (.add (.both (classBytes + folded)) content, m)
  | .flags f => (.both 0, m.apply f)
  | .group captures f inner =>
    let ends := if captures then 2 * stateBytes else 0
    (.add ⟨ends, 0⟩ (inner.measure (m.apply f)).1, m)
  | .repetition least greatest inner =>
    let (size, after) := inner.measure m
    if inner.matchesOnlyEmpty then (size, after)
    else (repeatedSize least greatest size, after)
  | .concat items => measureAll m items
  | .alternation items =>
    let (size, after) := measureAll m items
    (.add (.both (2 * stateBytes + branchBytes * items.length)) size, after)

/-- The size of several expressions, and the mode behind them. -/
def measureAll (m : Mode) : List Node → Size × Mode
  | [] => (.both 0, m)
  | n :: rest =>
    let (first, after) := n.measure m
    let (others, last) := measureAll after rest
    (.add first others, last)

end

/-- The size of the automata of a whole pattern: they may start anywhere, and note where
the match begins and ends. -/
def size (n : Node) : Size :=
  .add ⟨208, 144⟩ (n.measure {}).1

/-- Whether one of the automata is beyond the limit. -/
def isTooLarge (n : Node) : Bool :=
  sizeLimit < n.size.forward || sizeLimit < n.size.backward

end Node

end DocQuery.Regex
