import DocQuery.Decimal.Reading
import DocQuery.Regex.Syntax
import DocQuery.Text.Alphanumeric

/-!
# Reading regular expressions

## Main Definitions

* `Reader` — reads from the rest of a pattern
* `readEscape` — what follows a backslash
* `readClass` — a bracketed class
* `readBody` — the alternatives of a group
* `Node.ofString?` — the tree of a pattern

## Design Notes

**Verbose patterns.**  A flag makes blanks and comments in a pattern meaningless.  It
holds until the end of the group in which it is set, so it belongs to the state of the
reader.

**Budgets.**  Every round of a loop uses up at least one character.  The loops recurse on
a budget that starts with the length of the pattern.
-/

namespace DocQuery.Regex

open DocQuery.Text

structure ReaderState where
  rest : List Char
  /-- Blanks and comments are skipped. -/
  verbose : Bool := false
  /-- The names of the groups so far. -/
  names : List String := []

/-- Reads from the rest of a pattern; `none` if the pattern is no regular expression. -/
abbrev Reader := StateT ReaderState Option

namespace Reader

def rest : Reader (List Char) := do
  return (← get).rest

def goto (cs : List Char) : Reader Unit :=
  modify fun s => { s with rest := cs }

end Reader

open Reader

/-- The rest of a verbose pattern behind blanks and comments. -/
def skipComments (inComment : Bool) : List Char → List Char
  | [] => []
  | c :: rest =>
    if inComment then skipComments (c != '\n') rest
    else if isBlank c then skipComments false rest
    else if c == '#' then skipComments true rest
    else c :: rest

/-- Skips blanks and comments of a verbose pattern. -/
def skip : Reader Unit :=
  modify fun s => if s.verbose then { s with rest := skipComments false s.rest } else s

/-- Moves on, and skips blanks and comments of a verbose pattern. -/
def gotoAndSkip (cs : List Char) : Reader Unit := do
  goto cs
  skip

def next : Reader Char := do
  match ← rest with
  | c :: cs =>
    goto cs
    return c
  | [] => failure

def expectNext (c : Char) : Reader Unit := do
  if (← next) != c then failure

/-! ### Hexadecimal characters and properties -/

def hexValue? (c : Char) : Option Nat :=
  if c.isDigit then some (c.toNat - '0'.toNat)
  else if 'a' ≤ c && c ≤ 'f' then some (c.toNat - 'a'.toNat + 10)
  else if 'A' ≤ c && c ≤ 'F' then some (c.toNat - 'A'.toNat + 10)
  else none

def charOf? (n : Nat) : Option Char :=
  if n.isValidChar then some (Char.ofNat n) else none

/-- Exactly `count` hexadecimal digits that follow on `value`. -/
def readHexDigits (value : Nat) : (count : Nat) → Reader Nat
  | 0 => return value
  | count + 1 => do
    let digit ← hexValue? (← next)
    skip
    readHexDigits (value * 16 + digit) count

/-- Hexadecimal digits up to a closing brace; `value?` is what the digits so far amount to. -/
def readHexBrace (value? : Option Nat) : (budget : Nat) → Reader Nat
  | 0 => failure
  | budget + 1 => do
    let c ← next
    skip
    if c == '\x7d' then value?
    else
      let digit ← hexValue? c
      readHexBrace (some (value?.getD 0 * 16 + digit)) budget

/-- A character by its code point: the digits between braces, or as many as `width` says. -/
def readHexChar (width : Nat) : Reader Node := do
  skip
  match ← rest with
  | '\x7b' :: cs =>
    gotoAndSkip cs
    return .char (← charOf? (← readHexBrace none (cs.length + 1))) false
  | _ => return .char (← charOf? (← readHexDigits 0 width)) (width == 2)

def readBraceText (text : List Char) : (budget : Nat) → Reader (List Char)
  | 0 => failure
  | budget + 1 => do
    skip
    let c ← next
    if c == '\x7d' then return text.reverse else readBraceText (c :: text) budget

/-- A text split before and behind the first occurrence of `mark`. -/
def splitAtText? (mark : List Char) : List Char → Option (List Char × List Char)
  | [] => none
  | c :: cs =>
    match dropStart? mark (c :: cs) with
    | some after => some ([], after)
    | none => (splitAtText? mark cs).map fun (before, after) => (c :: before, after)

/-- The property that a text between braces asks for. -/
def propertyOf (text : List Char) : Property :=
  let split := (splitAtText? ['!', '='] text).or ((splitAtText? [':'] text).or
    (splitAtText? ['='] text))
  match split with
  | some (name, value) => .valued (String.ofList name) (String.ofList value)
  | none => .named (String.ofList text)

/-- A property: one letter, or a text between braces. -/
def readProperty : Reader Property := do
  skip
  match ← next with
  | '\x7b' => return propertyOf (← readBraceText [] ((← rest).length + 1))
  | '\\' => failure
  | c =>
    skip
    return .named (String.ofList [c])

/-! ### Escapes -/

/-- Whether a character stands for itself behind a backslash. -/
def isEscapable (c : Char) : Bool :=
  c.toNat < 0x80 && !c.isAlphanum && c != '<' && c != '>'

/-- The characters of a special word boundary. -/
def isBoundaryChar (c : Char) : Bool :=
  c.isAlpha || c == '-'

/-- The name of a special word boundary, whose characters so far are given. -/
def readBoundaryName (text : List Char) : (budget : Nat) → Reader String
  | 0 => failure
  | budget + 1 => do
    let c ← next
    if c == '\x7d' then return String.ofList text.reverse
    else if isBoundaryChar c then
      skip
      readBoundaryName (c :: text) budget
    else failure

/-- What may follow a word boundary: braces with a letter inside say which one it is, any
others are a repetition. -/
def readBoundary : Reader Node := do
  let state ← get
  match state.rest with
  | '\x7b' :: cs =>
    gotoAndSkip cs
    match ← rest with
    | [] => failure
    | c :: _ =>
      if isBoundaryChar c then
        let name ← readBoundaryName [] (cs.length + 1)
        if ["start", "end", "start-half", "end-half"].contains name then return .position
        else failure
      else
        set state
        return .position
  | _ => return .position

/-- The control character that a letter stands for behind a backslash. -/
def controlOf? (c : Char) : Option Char :=
  match c with
  | 'a' => some '\x07'
  | 'f' => some '\x0c'
  | 't' => some '\t'
  | 'n' => some '\n'
  | 'r' => some '\r'
  | 'v' => some '\x0b'
  | _ => none

/-- The class that an escaped small letter names; the capital names all other characters. -/
def shorthandOf? : Char → Option Shorthand
  | 'd' => some .digit
  | 's' => some .blank
  | 'w' => some .word
  | _ => none

def readEscape : Reader Node := do
  let c ← next
  if c.isDigit then failure
  else if c == 'x' then readHexChar 2
  else if c == 'u' then readHexChar 4
  else if c == 'U' then readHexChar 8
  else if c == 'p' || c == 'P' then return .property (← readProperty)
  else if let some kind := shorthandOf? c.toLower then return .shorthand kind c.isUpper
  else if isEscapable c then return .char c false
  else if ['A', 'z', 'B', '<', '>'].contains c then return .position
  else if c == 'b' then readBoundary
  else return .char (← controlOf? c) false

/-! ### Classes -/

/-- The names of sets such as `[:alpha:]`. -/
def posixNames : List String :=
  ["alnum", "alpha", "ascii", "blank", "cntrl", "digit", "graph", "lower", "print", "punct",
    "space", "upper", "word", "xdigit"]

/-- A set such as `[:alpha:]`, and the rest behind it. -/
def posix? (cs : List Char) : Option (ClassSet × List Char) := do
  let cs ← dropStart? ['[', ':'] cs
  let (negated, cs) :=
    match cs with
    | '^' :: after => (true, after)
    | _ => (false, cs)
  let (name, cs) ← splitAt? ':' cs
  let cs ← dropStart? [']'] cs
  if posixNames.contains (String.ofList name) then some (.posix negated, cs) else none

/-- The next item of a class, without looking for a range. -/
def readClassItem : Reader Node := do
  match ← next with
  | '\\' => readEscape
  | c => return .char c false

/-- An item as a set.  Positions are none. -/
def itemSet : Node → Option ClassSet
  | .char c _ => some (.char c)
  | .shorthand kind negated => some (.shorthand kind negated)
  | .property p => some (.property p)
  | _ => none

/-- The next character that counts behind the first one. -/
def peekBehind (verbose : Bool) (cs : List Char) : Option Char :=
  let behind := cs.drop 1
  if verbose then
    match behind.dropWhile isBlank with
    | '#' :: comment => (comment.dropWhile isBlank).head?
    | after => after.head?
  else behind.head?

/-- An item of a class, or the range between two of them. -/
def readClassRange : Reader ClassSet := do
  let first ← readClassItem
  skip
  let state ← get
  let behind := peekBehind state.verbose state.rest
  match state.rest with
  | [] => failure
  | c :: cs =>
    if c != '-' || behind == some ']' || behind == some '-' then itemSet first
    else
      gotoAndSkip cs
      match first, ← readClassItem with
      | .char a _, .char b _ => if a ≤ b then return .range a b else failure
      | _, _ => failure

/-- Hyphens at the start of a class, which stand for themselves. -/
def readHyphens (items : List ClassSet) : (budget : Nat) → Reader (List ClassSet)
  | 0 => failure
  | budget + 1 => do
    match ← rest with
    | '-' :: cs =>
      gotoAndSkip cs
      readHyphens (.char '-' :: items) budget
    | [] => failure
    | _ => return items

/-- What may stand at the start of a class: a negation, then hyphens or a closing bracket
that stand for themselves. -/
def readClassStart : Reader (Bool × List ClassSet) := do
  skip
  let negated ←
    match ← rest with
    | '^' :: cs =>
      gotoAndSkip cs
      pure true
    | _ => pure false
  let hyphens ← readHyphens [] ((← rest).length + 1)
  match hyphens, ← rest with
  | [], ']' :: cs =>
    gotoAndSkip cs
    return (negated, [.char ']'])
  | _, _ => return (negated, hyphens)

/-- Adds a set to what an operator stands behind. -/
def combine : Option ClassSet → ClassSet → ClassSet
  | none, set => set
  | some left, set => .combined left set

/-- The operators between sets. -/
def isSetOperator (a b : Char) : Bool :=
  a == b && (a == '&' || a == '-' || a == '~')

/-- The items of a class up to its closing bracket; `left` stands before the last operator. -/
def readClassItems (left : Option ClassSet) (items : List ClassSet) :
    (budget : Nat) → Reader ClassSet
  | 0 => failure
  | budget + 1 => do
    skip
    let all := combine left (.ofItems items.reverse)
    let cs ← rest
    match posix? cs with
    | some (set, after) =>
      goto after
      readClassItems left (set :: items) budget
    | none =>
      match cs with
      | ']' :: after =>
        goto after
        return all
      | '[' :: after =>
        goto after
        let (negated, start) ← readClassStart
        let set ← readClassItems none start budget
        readClassItems left (.bracketed negated set :: items) budget
      | a :: b :: after =>
        if isSetOperator a b then
          goto after
          readClassItems (some all) [] budget
        else
          let item ← readClassRange
          readClassItems left (item :: items) budget
      | _ => failure

def readClass : Reader Node := do
  let budget := (← rest).length + 1
  let (negated, start) ← readClassStart
  return .bracketed negated (← readClassItems none start budget)

/-! ### Groups -/

def flagLetters : List Char := ['i', 'm', 's', 'U', 'u', 'R', 'x']

/-- Flags up to a colon or a closing parenthesis, and which of the two ends them. -/
def readFlags (negated dangling : Bool) (flags : Flags) :
    List Char → Option (Flags × Char × List Char)
  | [] => none
  | c :: cs =>
    if c == ':' || c == ')' then if dangling then none else some (flags, c, cs)
    else if c == '-' then if negated then none else readFlags true true flags cs
    else if !flagLetters.contains c || flags.mentions c then none
    else if negated then
      readFlags negated false { flags with disabled := c :: flags.disabled } cs
    else readFlags negated false { flags with enabled := c :: flags.enabled } cs

/-- Whether a character may stand in the name of a group. -/
def isGroupNameChar (first : Bool) (c : Char) : Bool :=
  if first then c == '_' || isAlphabetic c
  else c == '_' || c == '.' || c == '[' || c == ']' || isAlphanumeric c

/-- The name of a group up to its closing bracket; no two groups share a name. -/
def readGroupName : Reader Unit := do
  let state ← get
  match splitAt? '>' state.rest with
  | some (first :: more, after) =>
    let name := String.ofList (first :: more)
    if isGroupNameChar true first && more.all (isGroupNameChar false) &&
        !state.names.contains name then
      set { state with rest := after, names := name :: state.names }
    else failure
  | _ => failure

/-- What starts behind an opening parenthesis: flags for the rest of the enclosing group,
or a group with flags of its own. -/
inductive GroupStart where
  | flags (flags : Flags)
  | group (captures : Bool) (flags : Flags)

/-- The start of a group behind its opening parenthesis.  Looking ahead or behind is not
offered. -/
def readGroupStart : Reader GroupStart := do
  skip
  match ← rest with
  | '?' :: '=' :: _ => failure
  | '?' :: '!' :: _ => failure
  | '?' :: '<' :: '=' :: _ => failure
  | '?' :: '<' :: '!' :: _ => failure
  | '?' :: 'P' :: '<' :: cs =>
    goto cs
    readGroupName
    return .group true {}
  | '?' :: '<' :: cs =>
    goto cs
    readGroupName
    return .group true {}
  | '?' :: cs =>
    let (flags, last, after) ← readFlags false false {} cs
    goto after
    if last == ':' then return .group false flags
    else if flags.isEmpty then failure
    else return .flags flags
  | _ => return .group true {}

/-! ### Repetitions -/

/-- How often something is repeated: at least, and at most if there is a bound. -/
abbrev Bounds := Nat × Option Nat

/-- The bounds that a single character stands for. -/
def boundsOf (c : Char) : Bounds :=
  if c == '?' then (0, some 1) else if c == '*' then (0, none) else (1, none)

/-- Whether there is a last item that can be repeated. -/
def canRepeat : List Node → Bool
  | last :: _ => last.isRepeatable
  | [] => false

/-- Items of which the last one is repeated. -/
def repeated (bounds : Bounds) : List Node → List Node
  | last :: before => .repetition bounds.1 bounds.2 last :: before
  | [] => []

/-- A mark that makes a repetition take as little as it can. -/
def skipLazy : Reader Unit := do
  match ← rest with
  | '?' :: cs => goto cs
  | _ => return

def skipBlanks : Reader Unit := do
  goto (dropBlanks (← rest))

def readDigits (digits : List Char) : (budget : Nat) → Reader (List Char)
  | 0 => failure
  | budget + 1 => do
    match ← rest with
    | c :: cs =>
      if c.isDigit then
        gotoAndSkip cs
        readDigits (c :: digits) budget
      else return digits.reverse
    | [] => return digits.reverse

/-- A count of repetitions between blanks; `none` if there are no digits. -/
def readCount : Reader (Option Nat) := do
  skipBlanks
  let digits ← readDigits [] ((← rest).length + 1)
  skipBlanks
  skip
  match Decimal.readNat? digits with
  | some n => if n < 4294967296 then return some n else failure
  | none => return none

/-- The bounds of a repetition behind the opening brace. -/
def readBounds : Reader Bounds := do
  skip
  let least ← (← readCount)
  match ← next with
  | '\x7d' => return (least, some least)
  | ',' =>
    skip
    match ← rest with
    | '\x7d' :: cs =>
      goto cs
      return (least, none)
    | _ =>
      let greatest ← (← readCount)
      expectNext '\x7d'
      if greatest < least then failure
      return (least, some greatest)
  | _ => failure

/-! ### Expressions -/

/-- Everything up to the end of the pattern or of the group: `alternatives` are those
before, and `items` what the last one holds so far, both from the end. -/
def readBody (alternatives items : List Node) : (budget : Nat) → Reader Node
  | 0 => failure
  | budget + 1 => do
    skip
    let all := Node.ofConcat items.reverse :: alternatives
    match ← rest with
    | [] => return .ofAlternation all.reverse
    | c :: cs =>
      if c == ')' then return .ofAlternation all.reverse
      else
        goto cs
        if c == '|' then readBody all [] budget
        else if c == '(' then
          match ← readGroupStart with
          | .flags flags =>
            modify fun s => { s with verbose := flags.apply 'x' s.verbose }
            readBody alternatives (.flags flags :: items) budget
          | .group captures flags =>
            let outside := (← get).verbose
            modify fun s => { s with verbose := flags.apply 'x' s.verbose }
            let inner ← readBody [] [] budget
            expectNext ')'
            modify fun s => { s with verbose := outside }
            readBody alternatives (.group captures flags inner :: items) budget
        else if c == '[' then
          let item ← readClass
          readBody alternatives (item :: items) budget
        else if c == '?' || c == '*' || c == '+' then
          if !canRepeat items then failure
          skipLazy
          readBody alternatives (repeated (boundsOf c) items) budget
        else if c == '\x7b' then
          if !canRepeat items then failure
          let bounds ← readBounds
          skip
          skipLazy
          readBody alternatives (repeated bounds items) budget
        else if c == '\\' then
          let item ← readEscape
          readBody alternatives (item :: items) budget
        else if c == '.' then readBody alternatives (.dot :: items) budget
        else if c == '^' || c == '$' then readBody alternatives (.position :: items) budget
        else readBody alternatives (.char c false :: items) budget

/-- The tree of a pattern; `none` if it is no regular expression. -/
def Node.ofString? (pattern : String) : Option Node := do
  let (node, state) ← (readBody [] [] (pattern.length + 1)).run { rest := pattern.toList }
  if state.rest.isEmpty then some node else none

end DocQuery.Regex
