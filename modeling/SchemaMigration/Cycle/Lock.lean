import SchemaMigration.Cycle.Attempt
import SchemaMigration.Settings.Basic

/-!
# SchemaMigration.Cycle.Lock

The lock that keeps cycles apart: one flag in a table of one row.

* `Lock.tryAcquire` : one attempt to set the flag, in a transaction of its own.
* `Lock.acquire` : attempts with pauses between them, as many as the settings allow.
* `Lock.release`, `Lock.isLocked` : clear the flag, whoever set it, and read it.
-/

namespace SchemaMigration
namespace Lock

open Sql Attempt

def rowMissing (schema : String) : CycleError := .lockRowMissing (ControlTable.lock.inSchema schema)

/-- Read the flag and set it if it is clear. The result is whether it was set, or that there is
no flag. -/
def attempt (schema : String) : Attempt (Except CycleError Bool) :=
  inTransaction do
    let rows ← query .transaction (.control .isLocked [])
    match rows with
    | [] => pure (.rollback, .error (rowMissing schema))
    | row :: _ =>
      if ← ofResult (ofCell (row.bool 0)) then pure (.rollback, .ok false)
      else
        let updated ← execute .transaction (.control .acquireLock [])
        pure (.commit, .ok (decide (0 < updated)))

/-- One attempt. To lose against another transaction counts as finding the lock held. -/
def tryAcquire (schema : String) : Attempt Bool := do
  match ← outcome (attempt schema) with
  | .ok result => ofResult result
  | .error e => if e.isConflict then pure false else throw e

/-- Up to so many attempts, with a pause between two of them. -/
def tryTimes (schema : String) (pause : Nat) : (attempts : Nat) → Attempt Bool
  | 0 => pure false
  | 1 => tryAcquire schema
  | n + 2 => do
    if ← tryAcquire schema then pure true
    else
      Attempt.sleep pause
      tryTimes schema pause (n + 1)

/-- Set the flag, or fail when it stays set for all attempts; there is one at least. -/
def acquire (schema : String) (settings : LockSettings) : Attempt Unit := do
  let attempts := max settings.maxAttempts 1
  if ← tryTimes schema settings.retryInterval attempts then pure ()
  else throw (.lockTimeout attempts ((attempts - 1) * settings.retryInterval))

def release : Attempt Unit := do
  let _ ← execute .direct (.control .releaseLock [])

def isLocked (schema : String) : Attempt Bool := do
  match ← query .direct (.control .isLocked []) with
  | [] => throw (rowMissing schema)
  | row :: _ => ofResult (ofCell (row.bool 0))

end Lock
end SchemaMigration
