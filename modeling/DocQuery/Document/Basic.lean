import DocQuery.Calendar.Instant
import DocQuery.Document.ObjectId
import DocQuery.Entries

/-!
# Values and documents

A document maps field names to values and remembers the order in which the fields were first
stored; a value may again be a document.

## Main Definitions

* `Value`, `Document` — the two types, each built from the other
* `Document.insert`, `Document.erase`, `Document.extend` — the operations that build documents
* `Document.shiftInsert` — stores a field at a chosen place
* `Document.get?`, `Document.keys` — the two views

## Design Notes

A document is the list of its fields.  Storing under a present key replaces the value in
place, so a document built with these operations holds every key once; nothing else is
demanded of the list.
-/

namespace DocQuery

mutual

inductive Value where
  | null
  | bool (value : Bool)
  | int (value : Int)
  | double (value : Float)
  | string (value : String)
  | objectId (value : ObjectId)
  | date (value : Calendar.Instant)
  | array (items : List Value)
  | document (fields : Document)

/-- Fields in the order in which they were first stored. -/
structure Document where
  entries : List (String × Value)

end

namespace Value

def asString? : Value → Option String
  | .string s => some s
  | _ => none

def asDocument? : Value → Option Document
  | .document d => some d
  | _ => none

instance : Coe String Value := ⟨.string⟩

instance : Coe Bool Value := ⟨.bool⟩

instance : Coe Document Value := ⟨.document⟩

instance : Coe ObjectId Value := ⟨.objectId⟩

instance : Inhabited Value := ⟨.null⟩

end Value

namespace Document

def empty : Document := ⟨[]⟩

instance : EmptyCollection Document := ⟨empty⟩

instance : Inhabited Document := ⟨empty⟩

def keys (d : Document) : List String :=
  d.entries.map Prod.fst

def size (d : Document) : Nat :=
  d.entries.length

def isEmpty (d : Document) : Bool :=
  d.entries.isEmpty

def get? (d : Document) (key : String) : Option Value :=
  Entries.get? d.entries key

def contains (d : Document) (key : String) : Bool :=
  (d.get? key).isSome

def first? (d : Document) : Option (String × Value) :=
  d.entries.head?

/-- Stores a value under a key; a present key keeps its place. -/
def insert (d : Document) (key : String) (value : Value) : Document :=
  ⟨Entries.put key value d.entries⟩

def single (key : String) (value : Value) : Document :=
  ⟨[(key, value)]⟩

/-- Drops the field of a key; the others keep their order. -/
def erase (d : Document) (key : String) : Document :=
  ⟨Entries.erase d.entries key⟩

/-- Stores the fields of another document one by one. -/
def extend (d other : Document) : Document :=
  other.entries.foldl (fun acc entry => acc.insert entry.1 entry.2) d

/-- The document that results from storing fields one by one. -/
def ofList (entries : List (String × Value)) : Document :=
  entries.foldl (fun acc entry => acc.insert entry.1 entry.2) empty

/-- Stores a value under a key at a place counted from zero; places beyond the end mean
the end.  A present key moves there, and has no place after the last field to move to. -/
def shiftInsert (d : Document) (index : Nat) (key : String) (value : Value) :
    Option Document :=
  let place := min index d.size
  if d.contains key && place == d.size then none
  else some ⟨(d.erase key).entries.insertIdx place (key, value)⟩

/-- Stores a value under a key as the first field. -/
def insertFirst (d : Document) (key : String) (value : Value) : Document :=
  ⟨(key, value) :: (d.erase key).entries⟩

@[simp] theorem entries_empty : empty.entries = [] := rfl

@[simp] theorem entries_insert (d : Document) (key : String) (value : Value) :
    (d.insert key value).entries = Entries.put key value d.entries := rfl

@[simp] theorem keys_empty : empty.keys = [] := rfl

@[simp] theorem get?_empty (key : String) : empty.get? key = none := rfl

@[simp] theorem single_eq_insert (key : String) (value : Value) :
    empty.insert key value = single key value := rfl

/-- Placing a field first is placing it at index zero. -/
theorem shiftInsert_zero {d : Document} {key : String} (value : Value)
    (h : d.contains key = false) :
    d.shiftInsert 0 key value = some (d.insertFirst key value) := by
  simp [shiftInsert, insertFirst, h]

end Document

end DocQuery
