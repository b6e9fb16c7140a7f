import DocQuery.Scan.Failure

/-!
# Faults

Why a statement cannot be converted.

## Main Definitions

* `Fault` — the reasons
* `Fault.kind` — what sort of reason it is
* `Fault.message` — the wording for the person who wrote the statement

## Design Notes

Reasons that quote an expression carry its written form, so that this module stands below
the trees.
-/

namespace DocQuery

open Scan

/-- What sort of reason a fault is. -/
inductive FaultKind where
  /-- The text is no statement. -/
  | unreadable
  /-- A construct without counterpart among documents. -/
  | unsupported
  /-- A statement that is put together wrongly. -/
  | invalidStatement
  /-- A literal, pattern or name that cannot be interpreted. -/
  | invalidValue
deriving Repr, DecidableEq

/-- Why a statement cannot be converted. -/
inductive Fault where
  | unreadable (error : SyntaxError)
  -- Constructs without counterpart.
  | joinKind (kind : String)
  | nestingTooDeep (limit : Nat)
  | setOperation
  | joinedSubquery
  | predicateSubquery
  | listedSubquery
  | expression (text : String)
  | groupExpression (text : String)
  | projectExpression (text : String)
  | storedExpression (context text : String)
  | nullTest (text : String)
  | likeTest (text pattern : String)
  | dateComparison (text : String)
  | comparisonOperator (symbol : String)
  | idComparison (text : String)
  | negatedRegexOptions
  | oneParameter (function : String)
  | missingParameter (function : String)
  | unknownFunction (function : String)
  -- Statements put together wrongly.
  | boundTooLarge (value : Int)
  | insertWithoutTable
  | insertWithoutColumns
  | rowWidth (expected found : Nat)
  | updateWithoutTable
  | severalTargets
  | distinctColumns
  | selectExpressions
  -- Values that cannot be interpreted.
  | objectId (text : String)
  | ambiguousField (name : String)
  | fieldType (text : String)
  | numberFormat (text : String)
  | notDate (text : String)
  | dateFormat (text : String)
  | datePattern (value pattern : String)
  | regexFalse
  | regexPattern (pattern : String)
  | regexSize (pattern : String) (limit : Nat)
deriving Repr, DecidableEq

namespace Fault

def kind : Fault → FaultKind
  | .unreadable _ => .unreadable
  | .joinKind _ | .nestingTooDeep _ | .setOperation | .joinedSubquery | .predicateSubquery
  | .listedSubquery | .expression _ | .groupExpression _ | .projectExpression _
  | .storedExpression .. | .nullTest _ | .likeTest .. | .dateComparison _
  | .comparisonOperator _
  | .idComparison _ | .negatedRegexOptions | .oneParameter _ | .missingParameter _
  | .unknownFunction _ => .unsupported
  | .boundTooLarge _ | .insertWithoutTable | .insertWithoutColumns | .rowWidth .. |
    .updateWithoutTable | .severalTargets | .distinctColumns | .selectExpressions =>
    .invalidStatement
  | .objectId _ | .ambiguousField _ | .fieldType _ | .numberFormat _ | .notDate _
  | .dateFormat _ | .datePattern .. | .regexFalse | .regexPattern _ | .regexSize .. =>
    .invalidValue

/-- The wording of a syntax error for the person who wrote the statement: a hint for the
usual slips, the full error otherwise. -/
def syntaxMessage (e : SyntaxError) : String :=
  match e.cause.slip with
  | .doubleEquals =>
    "Unable to parse complete SQL string. " ++
      "One reason for this is the use of double equals (==)."
  | .multipleTables => "Only one simple table name is supported."
  | .unsupportedStatement => "Only SELECT statements are supported."
  | .syntaxError => e.render

def message : Fault → String
  | .unreadable e => syntaxMessage e
  | .joinKind kind =>
    "Unsupported join type: " ++ kind ++ ". Only INNER and LEFT JOINs are supported"
  | .nestingTooDeep limit =>
    "Subqueries nested deeper than " ++ toString limit ++ " levels are not supported"
  | .setOperation => "Unsupported set operation structure"
  | .joinedSubquery => "Currently only table-based JOIN is supported"
  | .predicateSubquery => "Subqueries are not supported in predicates"
  | .listedSubquery => "Subqueries are not supported in IN lists"
  | .expression text => "Unsupported expression: " ++ text
  | .groupExpression text => "Unsupported group expression: " ++ text
  | .projectExpression text => "Unsupported project expression: " ++ text
  | .storedExpression context text => "Unsupported " ++ context ++ " expression: " ++ text
  | .nullTest text => "Unsupported IS NULL expression: " ++ text
  | .likeTest text pattern => "Unsupported LIKE expression: " ++ text ++ " LIKE " ++ pattern
  | .dateComparison text => "Unsupported date comparison: " ++ text
  | .comparisonOperator symbol => "Unsupported comparison operator: " ++ symbol
  | .idComparison text => "Unsupported comparison expression: " ++ text
  | .negatedRegexOptions => "$not regex not supported with options"
  | .oneParameter function => function ++ " function can only have one parameter"
  | .missingParameter function => function ++ " function requires a field"
  | .unknownFunction function => "Unknown function: " ++ function
  | .boundTooLarge value => toString value ++ ": value is too large"
  | .insertWithoutTable => "An insert must specify a table."
  | .insertWithoutColumns => "An insert must list its columns."
  | .rowWidth expected found =>
    "Expected " ++ toString expected ++ " values per row but found " ++ toString found ++ "."
  | .updateWithoutTable => "An update must specify a table."
  | .severalTargets => "Only one table can be deleted at a time."
  | .distinctColumns => "Cannot run DISTINCT on more than one column."
  | .selectExpressions =>
    "Illegal expressions found in SELECT clause. Only column names are supported."
  | .objectId text => "Invalid ObjectId: " ++ text
  | .ambiguousField name => "Ambiguous field: " ++ name
  | .fieldType text => "Invalid field type: " ++ text
  | .numberFormat text => "Invalid number format: " ++ text
  | .notDate text => "Cannot convert value to date: " ++ text
  | .dateFormat text => "Invalid date format: " ++ text
  | .datePattern value pattern =>
    "Unable to parse date: " ++ value ++ " with format: " ++ pattern
  | .regexFalse => "False is not allowed for regexMatch function"
  | .regexPattern pattern => "Invalid regex pattern " ++ pattern
  | .regexSize pattern limit =>
    "Invalid regex pattern " ++ pattern ++ ": Compiled regex exceeds size limit of " ++
      toString limit ++ " bytes."

end Fault

end DocQuery
