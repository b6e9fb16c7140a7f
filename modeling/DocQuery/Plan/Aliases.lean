import DocQuery.Entries
import DocQuery.Fault
import DocQuery.Text.Basic

/-!
# Aliases

The two-way table between selected expressions, in their written form, and the names given
to them.

## Main Definitions

* `Aliases` — the table
* `Aliases.insert` — names an expression
* `Aliases.aliasOf?`, `Aliases.aliasOfCall?` — the name of an expression
* `Aliases.resolve` — the expression behind a name

## Design Notes

Both directions keep what was inserted last.  An expression that is named twice leaves its
first name in the direction from names to expressions, so the two directions need not be
inverse to each other.
-/

namespace DocQuery

/-- The two-way table between written expressions and their names. -/
structure Aliases where
  /-- The name of each expression. -/
  aliasOf : Entries String := []
  /-- The expression behind each name. -/
  fieldOf : Entries String := []

namespace Aliases

def empty : Aliases := {}

def insert (a : Aliases) (field label : String) : Aliases :=
  ⟨a.aliasOf.put field label, a.fieldOf.put label field⟩

/-- The table of expressions and names inserted one after the other. -/
def ofList (pairs : List (String × String)) : Aliases :=
  pairs.foldl (fun a pair => a.insert pair.1 pair.2) empty

def isEmpty (a : Aliases) : Bool :=
  a.aliasOf.isEmpty

def aliasOf? (a : Aliases) (field : String) : Option String :=
  a.aliasOf.get? field

def contains (a : Aliases) (field : String) : Bool :=
  (a.aliasOf? field).isSome

/-- The form of a call in which the case of the function's name and the blanks around it
are gone. -/
def callKey (call : String) : String :=
  match Text.splitAt? '(' call.toList with
  | some (name, args) =>
    Text.lowerAscii (String.ofList (Text.trimChars name)) ++ "(" ++ String.ofList args
  | none => call

/-- The name of a call: that of the very same text, else that of the first call that
differs from it in the case of the function's name only. -/
def aliasOfCall? (a : Aliases) (call : String) : Option String :=
  match a.aliasOf? call with
  | some label => some label
  | none =>
    (a.aliasOf.find? fun entry => callKey entry.1 == callKey call).map Prod.snd

/-- Whether a text is a named expression and the name of an expression, and the two
disagree. -/
def isAmbiguous (a : Aliases) (text : String) : Bool :=
  match a.aliasOf.get? text, a.fieldOf.get? text with
  | some label, some field => label != field
  | _, _ => false

/-- The expression behind a name; a text that is no name stands for itself. -/
def resolve (a : Aliases) (text : String) : Except Fault String :=
  if a.isAmbiguous text then .error (.ambiguousField text)
  else .ok ((a.fieldOf.get? text).getD text)

@[simp] theorem ofList_nil : ofList [] = empty := rfl

end Aliases

end DocQuery
