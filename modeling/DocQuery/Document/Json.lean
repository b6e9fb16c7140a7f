import DocQuery.Decimal.Layout
import DocQuery.Document.Basic

/-!
# JSON form of documents

Documents are written as compact JSON, with their fields in order or sorted by key.
Identifiers and dates become small objects of their own.

## Main Definitions

* `Json` — a JSON value; the order of the members of an object is part of it
* `Json.render` — the compact text
* `Value.toJson`, `Document.toJson` — members in the order of the fields
* `Value.toSortedJson`, `Document.toSortedJson` — members sorted by key at every level

## Design Notes

Both conversions go through the same leaves, so they can only differ in the order of members.
-/

namespace DocQuery

inductive Json where
  | null
  | bool (value : Bool)
  | int (value : Int)
  | double (value : Float)
  | string (value : String)
  | array (items : List Json)
  | object (members : List (String × Json))

namespace Json

/-! ### Text -/

/-- A hexadecimal digit in lower case. -/
def hexDigit (n : Nat) : Char :=
  Nat.digitChar n

/-- A character inside a JSON string: quotes, backslashes and control characters are
escaped. -/
def escapeChar (c : Char) : List Char :=
  match c with
  | '"' => ['\\', '"']
  | '\\' => ['\\', '\\']
  | '\n' => ['\\', 'n']
  | '\r' => ['\\', 'r']
  | '\t' => ['\\', 't']
  | '\x08' => ['\\', 'b']
  | '\x0c' => ['\\', 'f']
  | _ =>
    if c.toNat < 0x20 then
      ['\\', 'u', '0', '0', hexDigit (c.toNat / 16), hexDigit (c.toNat % 16)]
    else [c]

/-- A JSON string. -/
def quote (s : String) : String :=
  String.ofList ('"' :: s.toList.flatMap escapeChar ++ ['"'])

mutual

def render : Json → String
  | .null => "null"
  | .bool b => if b then "true" else "false"
  | .int n => toString n
  | .double x => Decimal.json.write x
  | .string s => quote s
  | .array items => "[" ++ String.intercalate "," (renderItems items) ++ "]"
  | .object members => "\x7b" ++ String.intercalate "," (renderMembers members) ++ "\x7d"

/-- The texts of the items of an array. -/
def renderItems : List Json → List String
  | [] => []
  | item :: rest => item.render :: renderItems rest

/-- The texts of the members of an object. -/
def renderMembers : List (String × Json) → List String
  | [] => []
  | (key, value) :: rest => (quote key ++ ":" ++ value.render) :: renderMembers rest

end

/-- Stores a member among members sorted by key. -/
def putSorted (key : String) (value : Json) : List (String × Json) → List (String × Json)
  | [] => [(key, value)]
  | entry :: rest =>
    if key < entry.1 then (key, value) :: entry :: rest
    else if key == entry.1 then (key, value) :: rest
    else entry :: putSorted key value rest

/-- Members sorted by key; of equal keys the last one counts. -/
def sortMembers (members : List (String × Json)) : List (String × Json) :=
  members.foldl (fun acc entry => putSorted entry.1 entry.2 acc) []

end Json

/-- The JSON form of a value that is no array and no document.  A double that is no finite
number is null; an identifier and a date are objects with one member. -/
def Value.leafJson : Value → Json
  | .bool b => .bool b
  | .int n => .int n
  | .double x => if x.isFinite then .double x else .null
  | .string s => .string s
  | .objectId id => .object [("$oid", .string id.hex)]
  | .date instant => .object [("$date", .string instant.render)]
  | _ => .null

mutual

/-- The JSON form of a value, members in the order of the fields. -/
def Value.toJson : Value → Json
  | .array items => .array (jsonOfItems items)
  | .document d => d.toJson
  | v => v.leafJson

/-- The JSON form of a document, members in the order of the fields. -/
def Document.toJson : Document → Json
  | ⟨entries⟩ => .object (jsonOfEntries entries)

/-- The JSON forms of the items of an array. -/
def jsonOfItems : List Value → List Json
  | [] => []
  | v :: rest => v.toJson :: jsonOfItems rest

/-- The members for the fields of a document. -/
def jsonOfEntries : List (String × Value) → List (String × Json)
  | [] => []
  | (key, v) :: rest => (key, v.toJson) :: jsonOfEntries rest

end

mutual

/-- The JSON form of a value, members sorted by key at every level. -/
def Value.toSortedJson : Value → Json
  | .array items => .array (sortedJsonOfItems items)
  | .document d => d.toSortedJson
  | v => v.leafJson

/-- The JSON form of a document, members sorted by key at every level. -/
def Document.toSortedJson : Document → Json
  | ⟨entries⟩ => .object (Json.sortMembers (sortedJsonOfEntries entries))

/-- The JSON forms of the items of an array. -/
def sortedJsonOfItems : List Value → List Json
  | [] => []
  | v :: rest => v.toSortedJson :: sortedJsonOfItems rest

/-- The members for the fields of a document, not yet sorted. -/
def sortedJsonOfEntries : List (String × Value) → List (String × Json)
  | [] => []
  | (key, v) :: rest => (key, v.toSortedJson) :: sortedJsonOfEntries rest

end

def Value.render (v : Value) : String :=
  v.toJson.render

def Document.render (d : Document) : String :=
  d.toJson.render

end DocQuery
