import DocQuery.Document.Basic
import DocQuery.Text.Casing

/-!
# Settings

What a caller declares before statements are converted.

## Main Definitions

* `FieldType` — how values compared with a field are read
* `FieldTypes` — the declared types, with a default
* `Settings` — the types and the options of aggregations
-/

namespace DocQuery

/-- How values compared with a field are read. -/
inductive FieldType where
  | string
  | number
  | boolean
  | date
  | unknown
deriving Repr, DecidableEq

namespace FieldType

def name : FieldType → String
  | .string => "STRING"
  | .number => "NUMBER"
  | .boolean => "BOOLEAN"
  | .date => "DATE"
  | .unknown => "UNKNOWN"

def list : List FieldType := [.string, .number, .boolean, .date, .unknown]

def ofName? (text : String) : Option FieldType :=
  list.find? (·.name == text)

/-- The type that a text names, in any case and between any blanks. -/
def parse? (text : String) : Option FieldType :=
  ofName? (Text.upper (Text.trim text))

end FieldType

/-- The declared types of fields, and the type of all others. -/
structure FieldTypes where
  default : FieldType := .unknown
  byField : Entries FieldType := []

def FieldTypes.typeOf (types : FieldTypes) (field : String) : FieldType :=
  (types.byField.get? field).getD types.default

/-- What a caller declares. -/
structure Settings where
  types : FieldTypes := {}
  allowDiskUse : Option Bool := none
  batchSize : Option Nat := none
  logQueries : Bool := true

def Settings.aggregationOptions (s : Settings) : Document :=
  let allow := s.allowDiskUse.map fun b => ("allowDiskUse", Value.bool b)
  let batch := s.batchSize.map fun n =>
    ("cursor", Value.document (.single "batchSize" (.int n)))
  ⟨allow.toList ++ batch.toList⟩

end DocQuery
