import SchemaMigration.Cycle.Plan

/-!
# SchemaMigration.Cycle.Sieve

Which migrations a cycle executes. A sieve keeps a migration or drops it, or finds that the
migration must not stand there at all.

* `Sieve.notIgnored`, `Sieve.runs`, `Sieve.inEnvironment` : the three sieves.
* `Sieve.chain` : all sieves in order; a migration is kept when all of them keep it, and the first
  error counts.
* `Sieve.standard` : the chain that a cycle uses.
-/

namespace SchemaMigration

abbrev Sieve := Planned → Except CycleError Bool

namespace Sieve

/-- Drops what is to be ignored, which must not have been applied. -/
def notIgnored : Sieve := fun planned =>
  if !planned.migration.parameters.ignore then .ok true
  else if planned.logged then .error (.ignoredButApplied planned.migration.name)
  else .ok false

/-- Keeps what is new or runs always, and a changed body that runs on change. A changed body that
runs once is an error. -/
def runs : Sieve := fun planned =>
  match planned.status with
  | none => .error (.statusUnassigned planned.migration.name)
  | some status =>
    match status, planned.migration.parameters.run with
    | .new, _ => .ok true
    | _, .always => .ok true
    | .bodyChanged, .onChange => .ok true
    | .bodyChanged, .once => .error (.changedAfterApplied planned.migration.name)
    | .applied, _ => .ok false

/-- Keeps what asks for no environment or for the given one. -/
def inEnvironment (environment : Option String) : Sieve := fun planned =>
  match planned.migration.parameters.environment with
  | none => .ok true
  | some wanted => .ok (environment == some wanted)

/-- Sieves in order: each is asked, the first error counts, and all have to keep. -/
def chain : List Sieve → Sieve
  | [], _ => .ok true
  | sieve :: rest, planned =>
    match sieve planned with
    | .error e => .error e
    | .ok kept =>
      match chain rest planned with
      | .error e => .error e
      | .ok others => .ok (kept && others)

def standard (environment : Option String) : Sieve :=
  chain [notIgnored, runs, inEnvironment environment]

end Sieve
end SchemaMigration
