import DocQuery.Text.Range

/-!
# Plain text

Blank characters, trimming, comparison without regard to ASCII case, and the few
replacements that names and literals need.

## Main Definitions

* `isBlank` — the Unicode property White_Space
* `trim` — a text without the blanks at its ends
* `sameWord` — equality up to ASCII case
* `replaceChar`, `undouble` — replacements

## Design Notes

Everything is defined on the list of characters and lifted to `String`, so that a
statement about a text is a statement about a list.
-/

namespace DocQuery.Text

/-! ### Blanks -/

/-- White space outside ASCII. -/
def wideBlankRanges : List Range := [
  (0x85, 0x85), (0xA0, 0xA0), (0x1680, 0x1680), (0x2000, 0x200A), (0x2028, 0x2029),
  (0x202F, 0x202F), (0x205F, 0x205F), (0x3000, 0x3000)]

/-- White space: the characters with the Unicode property White_Space. -/
def isBlank (c : Char) : Bool :=
  if c.toNat < 0x80 then c == ' ' || (9 ≤ c.toNat && c.toNat ≤ 13)
  else inRanges wideBlankRanges c

/-- The characters from the first one that is not blank. -/
def dropBlanks (cs : List Char) : List Char :=
  cs.dropWhile isBlank

@[simp] theorem dropBlanks_nil : dropBlanks [] = [] := rfl

/-- The characters between the first and the last one that is not blank. -/
def trimChars (cs : List Char) : List Char :=
  (dropBlanks (dropBlanks cs).reverse).reverse

/-- A text without the blanks at its ends. -/
def trim (s : String) : String :=
  String.ofList (trimChars s.toList)

def allBlank (s : String) : Bool :=
  s.toList.all isBlank

/-! ### Comparison up to ASCII case -/

/-- Equality up to the case of ASCII letters. -/
def sameWord (s t : String) : Bool :=
  s.toList.map Char.toLower == t.toList.map Char.toLower

/-- The text with its ASCII letters in lower case. -/
def lowerAscii (s : String) : String :=
  String.ofList (s.toList.map Char.toLower)

/-! ### Replacements -/

/-- Every occurrence of one character replaced by another. -/
def replaceChar (old new : Char) (s : String) : String :=
  String.ofList (s.toList.map fun c => if c == old then new else c)

/-- Pairs of adjacent `q` read as one, from left to right. -/
def undoubleChars (q : Char) : List Char → List Char
  | a :: b :: rest =>
    if a == q && b == q then q :: undoubleChars q rest else a :: undoubleChars q (b :: rest)
  | cs => cs

/-- Pairs of adjacent `q` read as one, from left to right. -/
def undouble (q : Char) (s : String) : String :=
  String.ofList (undoubleChars q s.toList)

/-! ### Cutting -/

/-- What follows `start` in `cs`, if `cs` begins with it. -/
def dropStart? : (start cs : List Char) → Option (List Char)
  | [], cs => some cs
  | _ :: _, [] => none
  | a :: start, c :: cs => if a == c then dropStart? start cs else none

@[simp] theorem dropStart?_nil (cs : List Char) : dropStart? [] cs = some cs := by
  cases cs <;> rfl

/-- The characters before the first `c` and those after it, if `c` occurs. -/
def splitAt? (c : Char) : List Char → Option (List Char × List Char)
  | [] => none
  | a :: rest =>
    if a == c then some ([], rest)
    else (splitAt? c rest).map fun (before, after) => (a :: before, after)

end DocQuery.Text
