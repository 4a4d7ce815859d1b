import SchemaMigration.Cycle.Lock
import SchemaMigration.Cycle.Sieve
import SchemaMigration.History.Store
import SchemaMigration.Ordering.MigrationGraph

/-!
# SchemaMigration.Cycle.Engine

One cycle: control tables, lock, order, sieves, execution and the log.

* `Engine` : what a cycle needs besides the migrations and the database.
* `Engine.apply` : apply the migrations of a graph that are due, under the lock.
* `Engine.plan` : what `apply` would do now; it writes nothing and takes no lock.
* `Engine.unlock` : clear a lock that was left behind.
-/

namespace SchemaMigration

open Sql Attempt

/-- A migration that failed without ending the cycle. -/
structure FailedMigration where
  name : Name
  cause : CycleError
deriving DecidableEq, Repr

/-- What a cycle did, each list in the order of execution. -/
structure Report where
  executed : List Name := []
  skipped : List Name := []
  failed : List FailedMigration := []
deriving DecidableEq, Repr

def Report.isNoop (report : Report) : Bool := report.executed.isEmpty && report.failed.isEmpty

/-- What a cycle needs besides the migrations and the database. -/
structure Engine where
  dialect : Dialect
  /-- The schema with the control tables. -/
  schema : String
  environment : Option String := none
  lock : LockSettings := {}

/-- How far a cycle has come: the log as it should be by now, and the report. -/
structure Progress where
  log : Log
  report : Report := {}

namespace Progress

def skip (progress : Progress) (name : Name) : Progress where
  log := progress.log.markApplied name.text
  report := { progress.report with skipped := progress.report.skipped ++ [name] }

def execute (progress : Progress) (name : Name) (entry : LogEntry) : Progress where
  log := (progress.log.upsert entry).markApplied name.text
  report := { progress.report with executed := progress.report.executed ++ [name] }

def fail (progress : Progress) (name : Name) (cause : CycleError) : Progress where
  log := progress.log.markApplied name.text
  report := { progress.report with failed := progress.report.failed ++ [⟨name, cause⟩] }

end Progress

namespace Engine

/-- An engine for a schema, provided that the dialect's statements take what is bound to them. -/
def make (dialect : Dialect) (schema : String) : Except DatabaseError Engine :=
  match dialect.check schema with
  | .error mismatch => .error (.invalidStatement mismatch)
  | .ok () => .ok { dialect, schema }

/-- The engine that settings ask for, in the words of a kind of database. -/
def ofResolved (kind : DatabaseKind) (resolved : Resolved) : Except DatabaseError Engine :=
  match make (.builtin kind) resolved.database.schema with
  | .error e => .error e
  | .ok engine =>
    .ok { engine with environment := resolved.environment, lock := resolved.lock }

def tableExists (engine : Engine) (table : ControlTable) : Attempt Bool := do
  match ← query .direct (.control .tableExists [.text engine.schema, .text table.name]) with
  | [] => pure false
  | row :: _ => ofResult (ofCell (row.bool 0))

/-- Whether both control tables exist; one without the other is an error. -/
def controlTablesPresent (engine : Engine) : Attempt Bool := do
  let log ← engine.tableExists .log
  let lock ← engine.tableExists .lock
  match log, lock with
  | true, true => pure true
  | false, false => pure false
  | true, false => throw (.controlTableMissing (ControlTable.lock.inSchema engine.schema))
  | false, true => throw (.controlTableMissing (ControlTable.log.inSchema engine.schema))

/-- The logged migrations whose position is not their run order, with their position. -/
def movesOf (log : Log) (planned : List Planned) : List (String × Int) :=
  planned.filterMap fun p =>
    match log.get? p.migration.name.text with
    | none => none
    | some entry =>
      if entry.runOrder = p.actualOrder then none else some (entry.name, p.actualOrder)

/-- Bring the run orders in line with the positions before anything is executed, so that a cycle
that is cut off leaves no two equal ones. -/
def renumber (log : Log) (planned : List Planned) : Attempt Log := do
  let moves := movesOf log planned
  Store.renumber moves
  pure (moves.foldl (fun log (name, order) => log.setRunOrder name order) log)

/-- Send statements one after the other. A failing one is named in the error. -/
def sendStatements (scope : Scope) (name : Name) : List String → Attempt Unit
  | [] => pure ()
  | statement :: rest => do
    match ← outcome (batch scope (.migration statement)) with
    | .ok () => sendStatements scope name rest
    | .error (.database e) => throw (.statementFailed name statement e)
    | .error e => throw e

/-- Send the statements of a migration, inside one transaction if the migration is
transactional. -/
def execute (migration : Migration) : Attempt Unit :=
  if migration.parameters.transactional then
    inTransaction do
      sendStatements .transaction migration.name migration.statements
      pure (.commit, ())
  else sendStatements .direct migration.name migration.statements

/-- Write the entry of a migration that was executed. -/
def record (planned : Planned) : Attempt LogEntry :=
  if planned.logged then Store.update planned.migration planned.actualOrder
  else Store.insert planned.migration planned.actualOrder

/-- One migration: skipped, executed and logged, or failed. A failure ends the cycle unless the
migration allows to go on. -/
def process (engine : Engine) (progress : Progress) (planned : Planned) : Attempt Progress := do
  let name := planned.migration.name
  if ← ofResult (Sieve.standard engine.environment planned) then
    match ← outcome (execute planned.migration) with
    | .ok () =>
      let entry ← record planned
      pure (progress.execute name entry)
    | .error e =>
      if planned.migration.parameters.failFast then throw e else pure (progress.fail name e)
  else pure (progress.skip name)

def processAll (engine : Engine) : Progress → List Planned → Attempt Progress
  | progress, [] => pure progress
  | progress, planned :: rest => do
    let progress ← engine.process progress planned
    engine.processAll progress rest

/-- The part of a cycle that runs under the lock. -/
def applyLocked (engine : Engine) (graph : MigrationGraph) : Attempt Report := do
  let log ← Store.load
  let planned ← ofResult (validateOrder graph.orderedMigrations log)
  let log ← renumber log planned
  let progress ← engine.processAll { log } planned
  match progress.log.unapplied with
  | [] => pure progress.report
  | names => throw (.deletedMigrations names)

/-- Apply the migrations that are due. The control tables are created first where both are
absent. The lock is released whatever happened under it, and an error of the release counts only
if nothing else went wrong. -/
def apply (engine : Engine) (graph : MigrationGraph) : Attempt Report := do
  if ← engine.controlTablesPresent then pure ()
  else batch .direct (.control .createControlTables [])
  Lock.acquire engine.schema engine.lock
  let result ← outcome (engine.applyLocked graph)
  let released ← outcome Lock.release
  match result, released with
  | .error e, _ => throw e
  | .ok _, .error e => throw e
  | .ok report, .ok () => pure report

def planEntry (engine : Engine) (planned : Planned) : Except CycleError PlanEntry :=
  match Sieve.standard engine.environment planned with
  | .error e => .error e
  | .ok kept =>
    match planned.status with
    | none => .error (.statusUnassigned planned.migration.name)
    | some status => .ok {
        name := planned.migration.name
        author := planned.migration.author
        actualOrder := planned.actualOrder
        status
        decision := if kept then .execute else .skip }

/-- The lines of a plan, up to the first error. -/
def planEntries (engine : Engine) : List Planned → Except CycleError (List PlanEntry)
  | [] => .ok []
  | planned :: rest =>
    match engine.planEntry planned with
    | .error e => .error e
    | .ok entry =>
      match engine.planEntries rest with
      | .error e => .error e
      | .ok entries => .ok (entry :: entries)

def plan (engine : Engine) (graph : MigrationGraph) : Attempt (List PlanEntry) := do
  let log ← if ← engine.controlTablesPresent then Store.load else pure .empty
  let planned ← ofResult (validateOrder graph.orderedMigrations log)
  ofResult (engine.planEntries planned)

/-- Clear the lock, and tell whether it was set. Without control tables there is none. -/
def unlock (engine : Engine) : Attempt Bool := do
  if ← engine.controlTablesPresent then
    let held ← Lock.isLocked engine.schema
    Lock.release
    pure held
  else pure false

end Engine
end SchemaMigration
