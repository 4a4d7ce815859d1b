import SchemaMigration.Database.Error
import SchemaMigration.InputError
import SchemaMigration.Time.Span

/-!
# SchemaMigration.Cycle.Error

What can end a cycle. `CycleError.message` is the wording; errors of the database and of the
user's files keep theirs.
-/

namespace SchemaMigration

open Sql

inductive EntryProblem where
  | columns (found : Nat)
  | modifier (text : String)
deriving DecidableEq, Repr

def EntryProblem.message : EntryProblem → String
  | .columns found =>
    "expected " ++ toString logColumns.length ++ " columns, found " ++ toString found
  | .modifier text => (InputError.invalidParameterValue .run text).message

inductive CycleError where
  /-- Only the other one of the two control tables exists. -/
  | controlTableMissing (table : TableRef)
  /-- The lock was held for all attempts, over some milliseconds. -/
  | lockTimeout (attempts : Nat) (waited : Nat)
  | lockRowMissing (table : TableRef)
  /-- Applied migrations would run in another order. -/
  | orderDrift (logged current : List String)
  | deletedMigrations (names : List String)
  | ignoredButApplied (name : Name)
  | changedAfterApplied (name : Name)
  | statusUnassigned (name : Name)
  | statementFailed (migration : Name) (statement : String) (cause : DatabaseError)
  | unreadableEntry (name : String) (problem : EntryProblem)
  | database (error : DatabaseError)
  | input (error : InputError)
deriving DecidableEq, Repr

namespace CycleError

def message : CycleError → String
  | controlTableMissing table =>
    "[A001] Illegal database state: control table " ++ table.text ++ " is missing"
  | lockTimeout attempts waited =>
    "[A002] Could not acquire the migration lock after " ++ toString attempts ++ " attempts (" ++
      Time.spanText waited ++ ")"
  | lockRowMissing table => "[A003] Lock table " ++ table.text ++ " has no lock row"
  | orderDrift logged current =>
    "[A004] Migration order has changed since the last run: logged [" ++
      joinTexts ", " logged ++ "], current [" ++ joinTexts ", " current ++
      "]. Review migrations with runAfter/runBefore parameters"
  | deletedMigrations names =>
    "[A005] Applied migrations are missing from the changelog: " ++ joinTexts ", " names
  | ignoredButApplied name =>
    "[A006] Migration '" ++ name.text ++ "' is marked ignore:true but has already been applied"
  | changedAfterApplied name =>
    "[A007] Migration '" ++ name.text ++
      "' changed after it was applied; use run:onchange or run:always to re-apply it"
  | statusUnassigned name =>
    "[A008] Run status of migration '" ++ name.text ++ "' was not computed"
  | statementFailed migration statement cause =>
    "[A009] Migration '" ++ migration.text ++ "' failed on statement `" ++ statement ++ "`: " ++
      cause.message
  | unreadableEntry name problem =>
    "[A010] Cannot read migration log entry '" ++ name ++ "': " ++ problem.message
  | database error => error.message
  | input error => error.message

/-- Whether the error comes from two transactions that touched the same rows. -/
def isConflict : CycleError → Bool
  | database error => error.isConflict
  | _ => false

end CycleError
end SchemaMigration
