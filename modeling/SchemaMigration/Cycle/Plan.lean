import SchemaMigration.History.Log

/-!
# SchemaMigration.Cycle.Plan

Where each migration stands in a cycle, compared with the log.

* `RunStatus` : whether a migration is new, applied, or applied with another body.
* `Planned` : a migration with its position and its status.
* `validateOrder` : the planned migrations, provided that the log's entries come in the order in
  which they were logged and none is missing.
* `Decision`, `PlanEntry` : what a cycle would do, for the reader.
-/

namespace SchemaMigration

/-- How a migration compares with its entry in the log. -/
inductive RunStatus where
  | new
  | applied
  | bodyChanged
deriving DecidableEq, Repr

namespace RunStatus

def text : RunStatus → String
  | new => "new"
  | applied => "applied"
  | bodyChanged => "body_changed"

def of (migration : Migration) : Option LogEntry → RunStatus
  | none => .new
  | some entry => if entry.hash = migration.hash then .applied else .bodyChanged

end RunStatus

structure Planned where
  migration : Migration
  /-- Its position in the order of execution, counted from 0. -/
  actualOrder : Nat
  /-- Assigned when the order is validated. -/
  status : Option RunStatus := none
  logged : Bool := false
deriving DecidableEq, Repr

namespace Planned

def compare (log : Log) (migration : Migration) (position : Nat) : Planned where
  migration := migration
  actualOrder := position
  status := some (.of migration (log.get? migration.name.text))
  logged := log.contains migration.name.text

/-- The names of the logged migrations, in the order of execution. -/
def loggedNames (planned : List Planned) : List String :=
  (planned.filter (·.logged)).map (·.migration.name.text)

end Planned

/-- Compare migrations, in the order of execution, with the log. An entry without a migration is
an error, and so are logged migrations in another order than that of their entries. -/
def validateOrder (ordered : List Migration) (log : Log) : Except CycleError (List Planned) :=
  let planned := ordered.zipIdx.map fun (migration, position) =>
    Planned.compare log migration position
  let current := Planned.loggedNames planned
  let persisted := log.namesByRunOrder
  if current.length ≠ persisted.length then
    .error (.deletedMigrations (persisted.filter fun name => !current.contains name))
  else if current ≠ persisted then .error (.orderDrift persisted current)
  else .ok planned

inductive Decision where
  | execute
  | skip
deriving DecidableEq, Repr

def Decision.text : Decision → String
  | .execute => "execute"
  | .skip => "skip"

structure PlanEntry where
  name : Name
  author : String
  actualOrder : Nat
  status : RunStatus
  decision : Decision
deriving DecidableEq, Repr

end SchemaMigration
