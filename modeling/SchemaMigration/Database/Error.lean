import SchemaMigration.Sql.Dialect
import SchemaMigration.Sql.Value
import SchemaMigration.Text.Split

/-!
# SchemaMigration.Database.Error

What can go wrong between the program and a database.

* `DatabaseError` : the causes; `DatabaseError.message` is their wording.
* `DatabaseError.ofEngineText` : the cause behind an error text of the embedded database.
* `ServerFailure` : what a database server or the connection to it can report, with the cause
  that it amounts to.
-/

namespace SchemaMigration

open Sql

inductive DatabaseError where
  | connection (reason : String)
  | execution (reason : String)
  /-- Another transaction touched the same rows. -/
  | conflict (reason : String)
  /-- A transaction could not be begun or ended. -/
  | transaction (reason : String)
  | decode (error : DecodeError)
  | invalidStatement (mismatch : PlaceholderMismatch)
deriving DecidableEq, Repr

namespace DatabaseError

def message : DatabaseError → String
  | connection reason => "[D001] Database connection failed: " ++ reason
  | execution reason => "[D002] SQL execution failed: " ++ reason
  | conflict reason => "[D003] Transaction conflict: " ++ reason
  | transaction reason => "[D004] Transaction error: " ++ reason
  | decode error =>
    "[D007] Cannot read column " ++ toString error.column ++ " as " ++ error.expected.described ++
      ": found " ++ error.found.described
  | invalidStatement mismatch =>
    "[D008] Invalid query '" ++ mismatch.statement.name ++ "': " ++ toString mismatch.found ++
      " placeholders for " ++ toString mismatch.expected ++ " bound parameters (" ++
      mismatch.kind.name ++ " provider)"

/-- Whether the error comes from two transactions that touched the same rows. -/
def isConflict : DatabaseError → Bool
  | conflict _ => true
  | _ => false

/-- The cause behind an error text of the embedded database, which names its conflicts only in
words. -/
def ofEngineText (text : String) : DatabaseError :=
  if Text.occursIn "conflict".toList (Text.lowerAscii text.toList) then .conflict text
  else .execution text

/-- Name the statement in a plain execution error. -/
def withStatement (statement : String) : DatabaseError → DatabaseError
  | execution reason => .execution (reason ++ ": " ++ statement)
  | other => other

/-- Tell which end of a transaction failed, unless it was a conflict. -/
def whileEnding (statement : String) : DatabaseError → DatabaseError
  | execution reason => .transaction (statement ++ " failed: " ++ reason)
  | other => other

end DatabaseError

/-- What a database server, or the connection to one, reports. -/
inductive ServerFailure where
  /-- An error of the server, with its state code. -/
  | server (code : Option String) (reason : String)
  | io (reason : String)
  | tls (reason : String)
  | configuration (reason : String)
  | poolTimedOut
  | poolClosed
  | protocol (reason : String)
  | rowNotFound
  | workerCrashed
deriving DecidableEq, Repr

namespace ServerFailure

def message : ServerFailure → String
  | server _ reason => "error returned from database: " ++ reason
  | io reason => "error communicating with database: " ++ reason
  | tls reason => "error occurred while attempting to establish a TLS connection: " ++ reason
  | configuration reason => "error with configuration: " ++ reason
  | poolTimedOut => "pool timed out while waiting for an open connection"
  | poolClosed => "attempted to acquire a connection on a closed pool"
  | protocol reason => "encountered unexpected or invalid data: " ++ reason
  | rowNotFound => "no rows returned by a query that expected to return at least one row"
  | workerCrashed => "attempted to communicate with a crashed background worker"

/-- The state codes of a serialization failure and of a deadlock. -/
def conflictCodes : List String := ["40001", "40P01"]

def cause (failure : ServerFailure) : DatabaseError :=
  match failure with
  | .server (some code) _ =>
    if conflictCodes.contains code then .conflict failure.message
    else .execution failure.message
  | .io _ | .tls _ | .configuration _ | .poolTimedOut | .poolClosed =>
    .connection failure.message
  | _ => .execution failure.message

end ServerFailure
end SchemaMigration
