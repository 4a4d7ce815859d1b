import SchemaMigration.Proofs.Cycle.Keeping
import SchemaMigration.Proofs.Session.Marked

/-!
# SchemaMigration.Proofs.Cycle.Marking

A cycle that marks which migrations it has executed. A migration is marked when all its statements
have gone through, and its transaction has been committed if it has one; that is before its entry
is written.

* `Engine.processMarked`, `Engine.applyMarked` : the cycle with its marks.
* `Engine.erase_applyMarked` : without the marks it is the cycle.
-/

namespace SchemaMigration
namespace Engine

open Attempt MarkedAttempt

/-- One migration, marked once it is executed. -/
def processMarked (engine : Engine) (progress : Progress) (planned : Planned) :
    MarkedAttempt Migration Progress := do
  let name := planned.migration.name
  if ← ofAttempt (ofResult (Sieve.standard engine.environment planned)) then
    match ← ofAttempt (Attempt.outcome (execute planned.migration)) with
    | .ok () =>
      mark planned.migration
      let entry ← ofAttempt (record planned)
      pure (progress.execute name entry)
    | .error e =>
      if planned.migration.parameters.failFast then throw e else pure (progress.fail name e)
  else pure (progress.skip name)

def processAllMarked (engine : Engine) : Progress → List Planned → MarkedAttempt Migration Progress
  | progress, [] => pure progress
  | progress, planned :: rest => do
    let progress ← engine.processMarked progress planned
    engine.processAllMarked progress rest

def applyLockedMarked (engine : Engine) (graph : MigrationGraph) :
    MarkedAttempt Migration Report := do
  let log ← ofAttempt Store.load
  let planned ← ofAttempt (ofResult (validateOrder graph.orderedMigrations log))
  let log ← ofAttempt (renumber log planned)
  let progress ← engine.processAllMarked { log } planned
  match progress.log.unapplied with
  | [] => pure progress.report
  | names => throw (.deletedMigrations names)

def bracketMarked (engine : Engine) (graph : MigrationGraph) : MarkedAttempt Migration Report := do
  ofAttempt (Lock.acquire engine.schema engine.lock)
  let result ← outcome (engine.applyLockedMarked graph)
  let released ← ofAttempt (Attempt.outcome Lock.release)
  ofAttempt (ofResult (verdict result released))

def applyMarked (engine : Engine) (graph : MigrationGraph) : MarkedAttempt Migration Report := do
  if ← ofAttempt engine.controlTablesPresent then engine.bracketMarked graph
  else
    ofAttempt (batch .direct (.control .createControlTables []))
    engine.bracketMarked graph

theorem erase_processMarked (engine : Engine) (progress : Progress) (planned : Planned) :
    erase (engine.processMarked progress planned) = engine.process progress planned := by
  rw [processMarked, process, erase_bind, erase_ofAttempt]
  refine bind_congr fun kept => ?_
  cases kept with
  | false => rfl
  | true =>
    simp only [if_true]
    rw [erase_bind, erase_ofAttempt]
    refine bind_congr fun r => ?_
    cases r with
    | ok _ =>
      dsimp only
      rw [erase_bind, erase_mark, pure_bind, erase_bind, erase_ofAttempt]
      rfl
    | error e =>
      dsimp only
      split <;> rfl

theorem erase_processAllMarked (engine : Engine) (planned : List Planned) (progress : Progress) :
    erase (engine.processAllMarked progress planned) = engine.processAll progress planned := by
  induction planned generalizing progress with
  | nil => rfl
  | cons first rest ih =>
    rw [processAllMarked, processAll, erase_bind, erase_processMarked]
    exact bind_congr ih

theorem erase_applyLockedMarked (engine : Engine) (graph : MigrationGraph) :
    erase (engine.applyLockedMarked graph) = engine.applyLocked graph := by
  rw [applyLockedMarked, applyLocked, erase_bind, erase_ofAttempt]
  refine bind_congr fun log => ?_
  rw [erase_bind, erase_ofAttempt]
  refine bind_congr fun planned => ?_
  rw [erase_bind, erase_ofAttempt]
  refine bind_congr fun log => ?_
  rw [erase_bind, erase_processAllMarked]
  refine bind_congr fun progress => ?_
  cases progress.log.unapplied with
  | nil => rfl
  | cons name names => rfl

theorem erase_bracketMarked (engine : Engine) (graph : MigrationGraph) :
    erase (engine.bracketMarked graph) = engine.bracket graph := by
  rw [bracketMarked, bracket, erase_bind, erase_ofAttempt]
  refine bind_congr fun _ => ?_
  rw [erase_bind, erase_outcome, erase_applyLockedMarked]
  refine bind_congr fun result => ?_
  rw [erase_bind, erase_ofAttempt]
  exact bind_congr fun released => erase_ofAttempt _

/-- The marks are all that a marked cycle adds to a cycle. -/
theorem erase_applyMarked (engine : Engine) (graph : MigrationGraph) :
    erase (engine.applyMarked graph) = engine.apply graph := by
  rw [applyMarked, apply_eq, erase_bind, erase_ofAttempt]
  refine bind_congr fun present => ?_
  cases present with
  | true => exact erase_bracketMarked engine graph
  | false =>
    simp only [Bool.false_eq_true, if_false]
    rw [erase_bind, erase_ofAttempt]
    exact bind_congr fun _ => erase_bracketMarked engine graph

end Engine
end SchemaMigration
