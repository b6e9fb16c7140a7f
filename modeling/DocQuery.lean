import DocQuery.Aggregate.Group
import DocQuery.Aggregate.Name
import DocQuery.Calendar.Date
import DocQuery.Calendar.Fields
import DocQuery.Calendar.Format
import DocQuery.Calendar.Instant
import DocQuery.Calendar.Pattern
import DocQuery.Command
import DocQuery.Convert
import DocQuery.Decimal.Layout
import DocQuery.Decimal.Reading
import DocQuery.Decimal.Shortest
import DocQuery.Document.Basic
import DocQuery.Document.Json
import DocQuery.Document.ObjectId
import DocQuery.Entries
import DocQuery.Fault
import DocQuery.Join.Binding
import DocQuery.Join.Split
import DocQuery.Join.Stage
import DocQuery.Operand
import DocQuery.Pipeline.Draft
import DocQuery.Pipeline.Step
import DocQuery.Plan.Aliases
import DocQuery.Plan.Basic
import DocQuery.Plan.Build
import DocQuery.Plan.Strip
import DocQuery.Predicate.Call
import DocQuery.Predicate.Filter
import DocQuery.Predicate.Identity
import DocQuery.Predicate.Like
import DocQuery.Predicate.Match
import DocQuery.Predicate.Moment
import DocQuery.Proofs.Aggregate.Grouping
import DocQuery.Proofs.Aggregate.Having
import DocQuery.Proofs.Aggregate.Stored
import DocQuery.Proofs.Calendar.Consumed
import DocQuery.Proofs.Calendar.Patterns
import DocQuery.Proofs.Calendar.Segments
import DocQuery.Proofs.Document.Encoding
import DocQuery.Proofs.Document.History
import DocQuery.Proofs.Document.Ordering
import DocQuery.Proofs.Document.Places
import DocQuery.Proofs.Document.Shifting
import DocQuery.Proofs.Document.Storing
import DocQuery.Proofs.Document.Updating
import DocQuery.Proofs.Entries
import DocQuery.Proofs.Join.Evaluated
import DocQuery.Proofs.Join.Labels
import DocQuery.Proofs.Join.Partition
import DocQuery.Proofs.Join.Placement
import DocQuery.Proofs.Join.Pushdown
import DocQuery.Proofs.Join.Rows
import DocQuery.Proofs.Join.Variables
import DocQuery.Proofs.Join.Waiting
import DocQuery.Proofs.Operand.Coercion
import DocQuery.Proofs.Operand.Numerals
import DocQuery.Proofs.Operand.Quoted
import DocQuery.Proofs.Operand.Signs
import DocQuery.Proofs.Outcome
import DocQuery.Proofs.Pipeline.Assignments
import DocQuery.Proofs.Pipeline.Clauses
import DocQuery.Proofs.Pipeline.Drafts
import DocQuery.Proofs.Pipeline.Insertion
import DocQuery.Proofs.Pipeline.Levels
import DocQuery.Proofs.Pipeline.Nesting
import DocQuery.Proofs.Pipeline.Omission
import DocQuery.Proofs.Pipeline.Shape
import DocQuery.Proofs.Pipeline.Sorting
import DocQuery.Proofs.Pipeline.Steps
import DocQuery.Proofs.Pipeline.Window
import DocQuery.Proofs.Pipeline.WriteFilter
import DocQuery.Proofs.Plan.AliasOrder
import DocQuery.Proofs.Plan.Distinct
import DocQuery.Proofs.Plan.NameHistory
import DocQuery.Proofs.Plan.Qualifier
import DocQuery.Proofs.Predicate.Chains
import DocQuery.Proofs.Predicate.Comparison
import DocQuery.Proofs.Predicate.Emptiness
import DocQuery.Proofs.Predicate.Flat
import DocQuery.Proofs.Predicate.GroupTests
import DocQuery.Proofs.Predicate.Joined
import DocQuery.Proofs.Predicate.Lookups
import DocQuery.Proofs.Predicate.Meaning
import DocQuery.Proofs.Predicate.Modes
import DocQuery.Proofs.Predicate.Moments
import DocQuery.Proofs.Predicate.Patterns
import DocQuery.Proofs.Predicate.Ranges
import DocQuery.Proofs.Predicate.Reversed
import DocQuery.Proofs.Predicate.Special
import DocQuery.Proofs.Predicate.StrayConditions
import DocQuery.Proofs.Predicate.StrayTests
import DocQuery.Proofs.Predicate.Strays
import DocQuery.Proofs.Predicate.Trees
import DocQuery.Proofs.Scan.Ending
import DocQuery.Proofs.Scan.Following
import DocQuery.Proofs.Scan.Locating
import DocQuery.Proofs.Scan.Quotes
import DocQuery.Proofs.Scan.Reading
import DocQuery.Proofs.Scan.Recovering
import DocQuery.Proofs.Scan.Respacing
import DocQuery.Proofs.Scan.Shrinking
import DocQuery.Proofs.Scan.Spelling
import DocQuery.Proofs.Scan.Tokens
import DocQuery.Proofs.Scan.Words
import DocQuery.Proofs.Sql.Bounds
import DocQuery.Proofs.Sql.Chains
import DocQuery.Proofs.Sql.Ending
import DocQuery.Proofs.Sql.FollowingExpr
import DocQuery.Proofs.Sql.FollowingQuery
import DocQuery.Proofs.Sql.Locating
import DocQuery.Proofs.Sql.Operands
import DocQuery.Proofs.Sql.Parentheses
import DocQuery.Proofs.Sql.Parts
import DocQuery.Proofs.Sql.Predicates
import DocQuery.Proofs.Sql.RoundTrip
import DocQuery.Proofs.Sql.SelectRoundTrip
import DocQuery.Proofs.Sql.SelectText
import DocQuery.Proofs.Sql.Shapes
import DocQuery.Proofs.Sql.Shrinking
import DocQuery.Proofs.Sql.WhiteSpace
import DocQuery.Proofs.Sql.Written
import DocQuery.Proofs.Text.Blanks
import DocQuery.Proofs.Text.Dollars
import DocQuery.Proofs.Text.Doubled
import DocQuery.Regex.Property
import DocQuery.Regex.Reading
import DocQuery.Regex.Size
import DocQuery.Regex.Syntax
import DocQuery.Regex.Validity
import DocQuery.Scan.Cursor
import DocQuery.Scan.Failure
import DocQuery.Scan.Keyword
import DocQuery.Scan.Parser
import DocQuery.Scan.Token
import DocQuery.Scan.Word
import DocQuery.Settings
import DocQuery.Sql.Columns
import DocQuery.Sql.Display
import DocQuery.Sql.Expr
import DocQuery.Sql.Grammar.Expr
import DocQuery.Sql.Grammar.Literal
import DocQuery.Sql.Grammar.Query
import DocQuery.Sql.Grammar.Statement
import DocQuery.Sql.Literal
import DocQuery.Text.Alphanumeric
import DocQuery.Text.Basic
import DocQuery.Text.Casing
import DocQuery.Text.Range
