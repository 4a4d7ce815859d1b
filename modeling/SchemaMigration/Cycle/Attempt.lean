import SchemaMigration.Cycle.Error
import SchemaMigration.Database.Session

/-!
# SchemaMigration.Cycle.Attempt

Sessions that can fail.

* `Attempt` : a session that ends with a result or with an error of the cycle.
* `Attempt.execute`, `Attempt.batch`, `Attempt.query` : one request.
* `Attempt.inTransaction` : work inside a transaction. Work that fails leaves the transaction
  abandoned; work that succeeds says how the transaction ends.
-/

namespace SchemaMigration

open Sql

/-- A session that ends with a result or with an error. -/
abbrev Attempt := ExceptT CycleError Session

namespace Attempt

/-- A call whose failure is an error of the cycle. -/
def ofReply {α : Type} (call : Session (Except DatabaseError α)) : Attempt α :=
  ExceptT.mk ((Except.mapError .database) <$> call)

/-- A value or an error that is known without a call. -/
def ofResult {α : Type} (result : Except CycleError α) : Attempt α := ExceptT.mk (pure result)

def ofCell {α : Type} (result : Except DecodeError α) : Except CycleError α :=
  result.mapError fun e => .database (.decode e)

def execute (scope : Scope) (request : Request) : Attempt Nat :=
  ofReply (Session.send (.execute scope request))

def batch (scope : Scope) (request : Request) : Attempt Unit :=
  ofReply (Session.send (.batch scope request))

def query (scope : Scope) (request : Request) : Attempt (List Row) :=
  ofReply (Session.send (.query scope request))

def sleep (milliseconds : Nat) : Attempt Unit := ExceptT.lift (Session.send (.sleep milliseconds))

inductive Ending where
  | commit
  | rollback
deriving DecidableEq, Repr

def Ending.finish : Ending → Attempt Unit
  | .commit => ofReply (Session.send .commit)
  | .rollback => ofReply (Session.send .rollback)

/-- The result of an attempt, whether it fails or not. -/
def outcome {α : Type} (attempt : Attempt α) : Attempt (Except CycleError α) :=
  ExceptT.lift attempt.run

/-- Work inside a transaction, which says how the transaction ends. The transaction is abandoned
when the work fails. -/
def inTransaction {α : Type} (work : Attempt (Ending × α)) : Attempt α := do
  ofReply (Session.send .begin)
  match ← outcome work with
  | .error e =>
    ExceptT.lift (Session.send .abandon)
    throw e
  | .ok (ending, a) =>
    ending.finish
    pure a

end Attempt
end SchemaMigration
