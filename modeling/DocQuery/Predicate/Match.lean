import DocQuery.Document.Basic
import DocQuery.Operand
import DocQuery.Regex.Validity

/-!
# Pattern matches

`regexMatch(field, 'pattern')` and `notRegexMatch(field, 'pattern')`, with options as a third
argument, bare or compared with `true`.

## Main Definitions

* `Match` — a match of a field with a regular expression
* `Match.ofCall?`, `Match.ofComparison?`, `Match.ofExpr?` — the match that an expression
  asks for
* `Match.toDocument` — the match as a filter
-/

namespace DocQuery

open Sql

/-- A match of a field with a regular expression. -/
structure Match where
  field : String
  pattern : String
  options : Option String
  negated : Bool
deriving Repr, DecidableEq

namespace Match

/-- The string that an expression is written as. -/
def literal? : Expr → Option String
  | .literal (.string raw) => some raw
  | _ => none

/-- The pattern and the options of a call that asks for a match, as they are written. -/
def parts? (c : Call) : Option (Expr × String × Option String) :=
  if c.isNamed "regexMatch" || c.isNamed "notRegexMatch" then
    match c.args with
    | [field, .literal (.string raw)] => some (field, raw, none)
    | [field, .literal (.string raw), options] => some (field, raw, literal? options)
    | _ => none
  else none

/-- The match with a pattern that is a regular expression. -/
def make (c : Call) (field : Expr) (raw : String) (options : Option String) :
    Except Fault Match :=
  let pattern := Operand.unquote raw
  match Regex.defect? pattern with
  | none => .ok ⟨field.stringValue, pattern, options, c.isNamed "notRegexMatch"⟩
  | some .malformed => .error (.regexPattern pattern)
  | some .tooLarge => .error (.regexSize pattern Regex.sizeLimit)

def ofCall? (c : Call) : Except Fault (Option Match) :=
  match parts? c with
  | some (field, raw, options) => (make c field raw options).map some
  | none => .ok none

/-- Whether an expression says that something is so. -/
def affirms : Expr → Bool
  | .literal (.bool b) => b
  | e => Text.sameWord (Text.trim e.stringValue) "true"

/-- The match that a comparison asks for: a call that is equal to `true`. -/
def ofComparison? (op : Comparison) (left right : Expr) : Except Fault (Option Match) :=
  match op, left with
  | .eq, .call name distinct args =>
    match parts? ⟨name, distinct, args⟩ with
    | some (field, raw, options) =>
      if affirms right then (make ⟨name, distinct, args⟩ field raw options).map some
      else .error .regexFalse
    | none => .ok none
  | _, _ => .ok none

def ofExpr? : Expr → Except Fault (Option Match)
  | .compare op left right => ofComparison? op left right
  | .call name distinct args => ofCall? ⟨name, distinct, args⟩
  | _ => .ok none

/-- The match as a filter.  There is no form for a negated match with options. -/
def toDocument (m : Match) : Except Fault Document :=
  let regex := Document.single "$regex" (.string m.pattern)
  match m.options, m.negated with
  | some _, true => .error .negatedRegexOptions
  | some options, false =>
    .ok (.single m.field (.document (regex.insert "$options" (.string options))))
  | none, true => .ok (.single m.field (.document (.single "$not" (.document regex))))
  | none, false => .ok (.single m.field (.document regex))

end Match

end DocQuery
