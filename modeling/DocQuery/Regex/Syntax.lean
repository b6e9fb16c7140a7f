import DocQuery.Regex.Property

/-!
# Regular expressions

The trees of regular expressions, as far as their validity depends on them.

## Main Definitions

* `Shorthand` — the classes that an escaped letter names
* `ClassSet` — what stands between the brackets of a class
* `Node` — a regular expression
* `Flags` — flags that are switched on or off
* `Node.depth` — how deeply an expression is nested
-/

namespace DocQuery.Regex

/-- The classes that an escaped letter names: digits, blanks and the characters of words. -/
inductive Shorthand where
  | digit | blank | word
deriving Repr, DecidableEq

/-- What stands between the brackets of a class. -/
inductive ClassSet where
  | empty
  | char (c : Char)
  | range (first last : Char)
  /-- A set such as `[:alpha:]`. -/
  | posix (negated : Bool)
  | shorthand (kind : Shorthand) (negated : Bool)
  | property (p : Property)
  | bracketed (negated : Bool) (set : ClassSet)
  | union (items : List ClassSet)
  /-- An intersection or a difference of two sets. -/
  | combined (left right : ClassSet)

/-- Flags that are switched on and flags that are switched off. -/
structure Flags where
  enabled : List Char := []
  disabled : List Char := []
deriving Repr, DecidableEq

namespace Flags

def isEmpty (f : Flags) : Bool :=
  f.enabled.isEmpty && f.disabled.isEmpty

def mentions (f : Flags) (flag : Char) : Bool :=
  f.enabled.contains flag || f.disabled.contains flag

/-- The state of a flag that is in state `before`. -/
def apply (f : Flags) (flag : Char) (before : Bool) : Bool :=
  if f.enabled.contains flag then true
  else if f.disabled.contains flag then false
  else before

end Flags

/-- A regular expression. -/
inductive Node where
  | empty
  /-- A character; `byte` says that it is written as two hexadecimal digits. -/
  | char (c : Char) (byte : Bool)
  | dot
  /-- A position, such as the start of the text. -/
  | position
  | shorthand (kind : Shorthand) (negated : Bool)
  | property (p : Property)
  | bracketed (negated : Bool) (set : ClassSet)
  /-- Flags for the rest of the enclosing group. -/
  | flags (flags : Flags)
  /-- A group with flags of its own; `captures` says that what it matches can be asked for. -/
  | group (captures : Bool) (flags : Flags) (inner : Node)
  /-- At least and at most so many times, the latter if there is a bound. -/
  | repetition (least : Nat) (greatest : Option Nat) (inner : Node)
  | concat (items : List Node)
  | alternation (items : List Node)

namespace ClassSet

def ofItems : List ClassSet → ClassSet
  | [] => .empty
  | [item] => item
  | items => .union items

mutual

def depth : ClassSet → Nat
  | .bracketed _ set => set.depth + 1
  | .union items => depthOfAll items + 1
  | .combined l r => max l.depth r.depth + 1
  | _ => 0

/-- The depth of the deepest of several sets. -/
def depthOfAll : List ClassSet → Nat
  | [] => 0
  | s :: rest => max s.depth (depthOfAll rest)

end

end ClassSet

namespace Node

def ofConcat : List Node → Node
  | [] => .empty
  | [n] => n
  | items => .concat items

def ofAlternation : List Node → Node
  | [] => .empty
  | [n] => n
  | items => .alternation items

def isRepeatable : Node → Bool
  | .empty | .flags _ => false
  | _ => true

mutual

def depth : Node → Nat
  | .bracketed _ set => set.depth + 1
  | .group _ _ inner => inner.depth + 1
  | .repetition _ _ inner => inner.depth + 1
  | .concat items => depthOfAll items + 1
  | .alternation items => depthOfAll items + 1
  | _ => 0

/-- The depth of the deepest of several expressions. -/
def depthOfAll : List Node → Nat
  | [] => 0
  | n :: rest => max n.depth (depthOfAll rest)

end

end Node

end DocQuery.Regex
