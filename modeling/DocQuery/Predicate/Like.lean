import DocQuery.Text.Basic

/-!
# LIKE patterns

A LIKE pattern matches a whole text: `%` stands for any run of characters, `_` for any one
character and a bracketed set for one of its members.  Every other character stands for
itself.

## Main Definitions

* `Like.escape` — a text as a regular expression that matches just the text
* `Like.toRegex` — the anchored regular expression of a pattern

## Design Notes

The set between brackets goes to the regular expression as it is written.  A bracket that
is never closed stands for itself, and so does everything behind it.
-/

namespace DocQuery.Like

/-- The characters with a meaning of their own in a regular expression. -/
def specials : List Char :=
  ['\\', '.', '+', '*', '?', '(', ')', '|', '[', ']', '\x7b', '\x7d', '^', '$', '#', '&',
    '-', '~']

def escapeChar (c : Char) : List Char :=
  if specials.contains c then ['\\', c] else [c]

def escape (cs : List Char) : List Char :=
  cs.flatMap escapeChar

/-- The regular expression of a pattern, with a bound on the number of its parts. -/
def body : (fuel : Nat) → List Char → List Char
  | _, [] => []
  | 0, _ :: _ => []
  | fuel + 1, c :: rest =>
    if c == '%' then '.' :: '*' :: body fuel rest
    else if c == '_' then '.' :: body fuel rest
    else if c == '[' then
      match Text.splitAt? ']' rest with
      | some (members, after) => '[' :: members ++ "]\x7b1\x7d".toList ++ body fuel after
      | none => escape (c :: rest)
    else escapeChar c ++ body fuel rest

/-- The anchored regular expression of a pattern. -/
def toRegex (pattern : String) : String :=
  String.ofList ('^' :: body pattern.length pattern.toList ++ ['$'])

end DocQuery.Like
