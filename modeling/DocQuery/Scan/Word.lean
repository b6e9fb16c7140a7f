import DocQuery.Text.Alphanumeric
import DocQuery.Text.Basic
import DocQuery.Text.Casing

/-!
# Words at the front of a text

A word is matched without regard to ASCII case, a space in it stands for any run of
blanks, and what may follow it can be restricted.

## Main Definitions

* `Word` — a word and the rule for what follows it
* `Word.keyword` — a word that must end where a name would end
* `Word.match?` — what follows a word in a text that begins with it

## Design Notes

The word itself is put into upper case once, with the full case mapping, while the text is
compared character by character after ASCII mapping only.  A word that grows under the
mapping therefore spans more characters than were given.
-/

namespace DocQuery.Scan

open DocQuery.Text

/-- A character of a name: alphanumeric, an underscore or a dollar sign. -/
def isNameChar (c : Char) : Bool :=
  isAlphanumeric c || c == '_' || c == '$'

/-- A character that ends a name.  The null character stands for the end of the text and
is not one. -/
def isDelimiter (c : Char) : Bool :=
  c != '\x00' && !isNameChar c

/-- A word and what may follow it.  Without a rule anything may. -/
structure Word where
  /-- Number of characters of the word as it was given. -/
  length : Nat
  /-- The word in upper case. -/
  chars : List Char
  /-- The end of the text may follow. -/
  atEnd : Bool := false
  /-- Any character that ends a name may follow. -/
  anyDelimiter : Bool := false
  /-- This character may follow. -/
  delimiter : Option Char := none
  /-- These characters may follow. -/
  endings : List Char := []

namespace Word

def ofString (word : String) : Word where
  length := word.length
  chars := (upper word).toList

/-- A word that must end where a name would end. -/
def keyword (word : String) : Word :=
  { ofString word with anyDelimiter := true, atEnd := true }

def display (w : Word) : String :=
  String.ofList w.chars

def hasRule (w : Word) : Bool :=
  w.delimiter.isSome || w.anyDelimiter || !w.endings.isEmpty

/-- Whether the word may be followed by `rest`. -/
def allows (w : Word) (rest : List Char) : Bool :=
  match rest with
  | [] => w.atEnd || !w.hasRule
  | next :: _ =>
    !w.hasRule || w.delimiter == some next || (w.anyDelimiter && isDelimiter next) ||
      w.endings.contains next

end Word

/-- What follows the characters of a word in a text: a space stands for a run of blanks,
any other character for itself in either ASCII case. -/
def matchChars : (word text : List Char) → Option (List Char)
  | [], text => some text
  | expected :: word, text =>
    match text with
    | [] => none
    | c :: rest =>
      if expected == ' ' then
        if isBlank c then matchChars word (dropBlanks rest) else none
      else if c != '\x00' && expected == c.toUpper then matchChars word rest
      else none

@[simp] theorem matchChars_nil (text : List Char) : matchChars [] text = some text := rfl

/-- What follows the word in a text that begins with it, if it may follow. -/
def Word.match? (w : Word) (text : List Char) : Option (List Char) :=
  (matchChars w.chars text).filter w.allows

/-- The number of characters that the word spans at the front of a text. -/
def Word.span? (w : Word) (text : List Char) : Option Nat :=
  (w.match? text).map fun rest => text.length - rest.length

end DocQuery.Scan
