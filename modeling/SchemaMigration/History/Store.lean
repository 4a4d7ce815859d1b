import SchemaMigration.History.Log

/-!
# SchemaMigration.History.Store

The log as the database keeps it: reading all of it, writing one entry, and moving entries to
other run orders in one transaction.
-/

namespace SchemaMigration
namespace Store

open Sql

/-- The entries in rows, up to the first row that holds none. -/
def readEntries : List Row → Except CycleError (List LogEntry)
  | [] => .ok []
  | row :: rest => do
    let entry ← LogEntry.ofRow row
    let entries ← readEntries rest
    pure (entry :: entries)

def load : Attempt Log := do
  let rows ← Attempt.query .direct (.control .selectLog [])
  let entries ← Attempt.ofResult (readEntries rows)
  pure (Log.ofEntries entries)

/-- Write the entry of a migration that was executed for the first time. -/
def insert (migration : Migration) (runOrder : Int) : Attempt LogEntry := do
  let entry := LogEntry.ofMigration migration runOrder
  let _ ← Attempt.execute .direct (.control .insertLog entry.insertParameters)
  pure entry

/-- Update the entry of a migration that was executed again. -/
def update (migration : Migration) (runOrder : Int) : Attempt LogEntry := do
  let entry := LogEntry.ofMigration migration runOrder
  let _ ← Attempt.execute .direct (.control .updateLog entry.updateParameters)
  pure entry

/-- Move entries inside an open transaction. -/
def moveEach : List (String × Int) → Attempt Unit
  | [] => pure ()
  | (name, order) :: rest => do
    let _ ← Attempt.execute .transaction (.control .updateRunOrder [.int order, .text name])
    moveEach rest

/-- Move entries to other run orders, all of them or none. -/
def renumber (moves : List (String × Int)) : Attempt Unit :=
  if moves.isEmpty then pure ()
  else Attempt.inTransaction do
    moveEach moves
    pure (.commit, ())

end Store
end SchemaMigration
