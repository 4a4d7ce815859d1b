import SchemaMigration.Cycle.Attempt
import SchemaMigration.Migration.Basic

/-!
# SchemaMigration.History.LogEntry

What the log keeps about an applied migration.

* `LogEntry` : one row of the log.
* `LogEntry.ofRow` : the entry that a row of a query's result holds.
* `LogEntry.ofMigration` : the entry of a migration that was just executed.
* `LogEntry.insertParameters`, `LogEntry.updateParameters` : what is bound to write an entry.
-/

namespace SchemaMigration

open Sql

structure LogEntry where
  name : String
  filename : String
  author : String
  modifier : RunModifier
  /-- The migration's position in the order of the cycle that wrote it last. -/
  runOrder : Int
  hash : String
  createdAt : Option Instant
  lastExecutedAt : Option Instant
  userParameters : Option String
  /-- Whether the migration was met in the current cycle; never stored. -/
  applied : Bool := false
deriving DecidableEq, Repr

namespace LogEntry

/-- The entry in a row, which has the log's columns. The name is read first, so that a complaint
about the rest can tell it. -/
def ofRow (row : Row) : Except CycleError LogEntry := do
  let name ← Attempt.ofCell (row.str 0)
  if row.size ≠ logColumns.length then
    throw (.unreadableEntry name (.columns row.size))
  let modifierText ← Attempt.ofCell (row.str 3)
  let some modifier := RunModifier.ofText? modifierText
    | throw (.unreadableEntry name (.modifier modifierText))
  let filename ← Attempt.ofCell (row.str 1)
  let author ← Attempt.ofCell (row.str 2)
  let runOrder ← Attempt.ofCell (row.int 4)
  let hash ← Attempt.ofCell (row.str 5)
  let createdAt ← Attempt.ofCell (row.timestamp 6)
  let lastExecutedAt ← Attempt.ofCell (row.timestamp 7)
  let userParameters ← Attempt.ofCell (row.optStr 8)
  pure {
    name, filename, author, modifier, runOrder, hash, createdAt, lastExecutedAt, userParameters }

/-- The entry of a migration that was just executed at a position. The database sets the times. -/
def ofMigration (migration : Migration) (runOrder : Int) : LogEntry where
  name := migration.name.text
  filename := migration.filename
  author := migration.author
  modifier := migration.parameters.run
  runOrder := runOrder
  hash := migration.hash
  createdAt := none
  lastExecutedAt := none
  userParameters := some migration.userParameters.json
  applied := true

/-- The cells that an entry gives to a row, between the name and the free parameters. -/
def middleCells (entry : LogEntry) : List Value :=
  [.text entry.filename, .text entry.author, .text entry.modifier.text, .int entry.runOrder,
    .text entry.hash]

def parametersCell (entry : LogEntry) : Value :=
  match entry.userParameters with
  | some text => .text text
  | none => .null

def insertParameters (entry : LogEntry) : List Value :=
  .text entry.name :: (entry.middleCells ++ [entry.parametersCell])

def updateParameters (entry : LogEntry) : List Value :=
  entry.middleCells ++ [entry.parametersCell, .text entry.name]

end LogEntry
end SchemaMigration
