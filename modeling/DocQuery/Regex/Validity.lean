import DocQuery.Regex.Reading
import DocQuery.Regex.Size

/-!
# Validity of regular expressions

Patterns match characters, not bytes.  A pattern that switches this off may only use what
cannot match a part of a character.

## Main Definitions

* `ClassSet.isSound`, `Node.check` — whether a tree is sound in this sense
* `Defect`, `defect?` — what is wrong with a pattern

## Design Notes

Without characters, everything that is negated matches single bytes outside ASCII and is
refused, and so is the dot.  The flag holds until the end of the group in which it is set,
so `Node.check` returns its state.
-/

namespace DocQuery.Regex

/-- The greatest depth of a regular expression. -/
def deepest : Nat := 250

/-- Whether a character is ASCII. -/
def isAscii (c : Char) : Bool :=
  c.toNat < 0x80

namespace ClassSet

mutual

/-- Whether a set is sound; `unicode` says that patterns match characters. -/
def isSound (unicode : Bool) : ClassSet → Bool
  | .empty => true
  | .char c => unicode || isAscii c
  | .range a b => unicode || (isAscii a && isAscii b)
  | .posix negated => unicode || !negated
  | .shorthand _ negated => unicode || !negated
  | .property p => unicode && p.isKnown
  | .bracketed negated set => (unicode || !negated) && set.isSound unicode
  | .union items => areSound unicode items
  | .combined l r => l.isSound unicode && r.isSound unicode

def areSound (unicode : Bool) : List ClassSet → Bool
  | [] => true
  | s :: rest => s.isSound unicode && areSound unicode rest

end

end ClassSet

/-- The state behind an expression, if it is sound: whether patterns match characters. -/
abbrev Soundness := Option Bool

/-- A state that holds as long as a condition does. -/
def soundIf (condition unicode : Bool) : Soundness :=
  if condition then some unicode else none

namespace Node

mutual

def check (unicode : Bool) : Node → Soundness
  | .empty | .position => some unicode
  | .char c byte => soundIf (unicode || isAscii c || !byte) unicode
  | .dot => soundIf unicode unicode
  | .shorthand _ negated => soundIf (unicode || !negated) unicode
  | .property p => soundIf (unicode && p.isKnown) unicode
  | .bracketed negated set => soundIf ((unicode || !negated) && set.isSound unicode) unicode
  | .flags f => some (f.apply 'u' unicode)
  | .group _ f inner => (inner.check (f.apply 'u' unicode)).map fun _ => unicode
  | .repetition _ _ inner => inner.check unicode
  | .concat items => checkAll unicode items
  | .alternation items => checkAll unicode items

def checkAll (unicode : Bool) : List Node → Soundness
  | [] => some unicode
  | n :: rest => do checkAll (← n.check unicode) rest

end

end Node

/-- What can be wrong with a pattern. -/
inductive Defect where
  /-- It is no regular expression. -/
  | malformed
  /-- Its automata take more bytes than the limit. -/
  | tooLarge
deriving Repr, DecidableEq

/-- What is wrong with a pattern, if anything. -/
def defect? (pattern : String) : Option Defect :=
  match Node.ofString? pattern with
  | some node =>
    if node.depth ≤ deepest && (node.check true).isSome then
      if node.isTooLarge then some .tooLarge else none
    else some .malformed
  | none => some .malformed

end DocQuery.Regex
