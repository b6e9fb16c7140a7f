import DocQuery.Pipeline.Step
import DocQuery.Plan.Build
import DocQuery.Sql.Grammar.Statement

/-!
# Conversion

From the text of a statement to the command that does its work on documents.

## Main Definitions

* `Settings.commandOfText` — the command of a statement
* `Settings.convert` — the text of the command
-/

namespace DocQuery

open Sql

def Plan.command (settings : Settings) (p : Plan) : Except Fault Command := do
  return (← p.draft).command p settings.aggregationOptions

def Settings.commandOfStatement (settings : Settings) (s : Statement) :
    Except Fault Command := do
  let plan ← Plan.ofStatement settings.types s
  plan.validate
  plan.command settings

/-- The command of a statement. -/
def Settings.commandOfText (settings : Settings) (text : String) : Except Fault Command := do
  let statement ← (Statement.ofString text).mapError .unreadable
  settings.commandOfStatement statement

/-- The text of the command of a statement. -/
def Settings.convert (settings : Settings) (text : String) : Except Fault String := do
  return (← settings.commandOfText text).render

end DocQuery
