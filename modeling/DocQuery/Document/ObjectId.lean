import DocQuery.Text.Basic

/-!
# Object identifiers

An identifier of twelve bytes, kept as its 24 hexadecimal digits in lower case.

## Main Definitions

* `ObjectId` — the identifier
* `ObjectId.parse?` — reads an identifier, ignoring blanks around it and the case of its
  digits
* `ObjectId.render` — the shell form
-/

namespace DocQuery

open DocQuery.Text

/-- An identifier of twelve bytes. -/
structure ObjectId where
  hex : String
deriving Repr, DecidableEq

namespace ObjectId

def isHexDigit (c : Char) : Bool :=
  c.isDigit || ('a' ≤ c && c ≤ 'f') || ('A' ≤ c && c ≤ 'F')

/-- The identifier written in a text: 24 hexadecimal digits between blanks. -/
def parse? (text : String) : Option ObjectId :=
  let digits := trim text
  if digits.length == 24 && digits.toList.all isHexDigit then some ⟨lowerAscii digits⟩
  else none

def render (id : ObjectId) : String :=
  "ObjectId(\"" ++ id.hex ++ "\")"

end ObjectId

end DocQuery
