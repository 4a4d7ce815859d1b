import SchemaMigration.Sql.Identifier
import SchemaMigration.Sql.Placeholder

/-!
# SchemaMigration.Sql.Dialect

The statements on the control tables, one wording for each kind of database.

* `ControlTable` : the log of applied migrations and the one-row lock.
* `ControlStatement` : the statements by purpose, with the number of parameters bound to each.
* `Wording` : where the databases' dialects differ; `Wording.statement` is the text they share.
* `Dialect` : the text of every statement for every schema. `Dialect.builtin` has the two known
  ones; a statement can be replaced.
* `Dialect.check` : whether a dialect's statements take the parameters that are bound to them.
-/

namespace SchemaMigration

inductive DatabaseKind where
  | duckdb
  | postgres
deriving DecidableEq, Repr, Inhabited

namespace DatabaseKind

def name : DatabaseKind → String
  | duckdb => "duckdb"
  | postgres => "postgres"

def all : List DatabaseKind := [duckdb, postgres]

def ofName? (name : String) : Option DatabaseKind := all.find? (·.name = name)

end DatabaseKind

namespace Sql

inductive ControlTable where
  | log
  | lock
deriving DecidableEq, Repr

namespace ControlTable

def name : ControlTable → String
  | log => "migration_log"
  | lock => "migration_log_lock"

def inSchema (table : ControlTable) (schema : String) : TableRef := ⟨schema, table.name⟩

end ControlTable

inductive ControlStatement where
  /-- One row with whether a table exists. -/
  | tableExists
  /-- Create schema, tables and the lock's row, as far as they are absent. -/
  | createControlTables
  | isLocked
  /-- Set the flag where it is clear. -/
  | acquireLock
  | releaseLock
  | selectLog
  | insertLog
  | updateLog
  | updateRunOrder
deriving DecidableEq, Repr

namespace ControlStatement

def all : List ControlStatement :=
  [tableExists, createControlTables, isLocked, acquireLock, releaseLock, selectLog, insertLog,
    updateLog, updateRunOrder]

def name : ControlStatement → String
  | tableExists => "table_exists"
  | createControlTables => "create_control_tables"
  | isLocked => "is_locked"
  | acquireLock => "acquire_lock"
  | releaseLock => "release_lock"
  | selectLog => "select_log"
  | insertLog => "insert_log"
  | updateLog => "update_log"
  | updateRunOrder => "update_run_order"

def ofName? (name : String) : Option ControlStatement := all.find? (·.name = name)

/-- How many parameters are bound; the creation of the tables is sent without any. -/
def parameterCount? : ControlStatement → Option Nat
  | createControlTables => none
  | tableExists => some 2
  | isLocked | acquireLock | releaseLock | selectLog => some 0
  | insertLog | updateLog => some 7
  | updateRunOrder => some 2

end ControlStatement

/-- The columns of the log, in the order in which its rows are read. -/
def logColumns : List String :=
  ["name", "filename", "author", "run_modifier", "run_order", "hash", "created_at",
    "last_executed_at", "user_params"]

/-- Where the databases want different words. -/
structure Wording where
  /-- The place of the n-th parameter, counted from 1. -/
  parameter : Nat → String
  textType : String
  parametersType : String
  parametersRead : String
  parametersCast : String
  /-- What keeps the lock's row for the reader. -/
  rowLock : String

namespace Wording

/-- Question marks, and the free parameters as plain text. -/
def duckdb : Wording where
  parameter _ := "?"
  textType := "VARCHAR"
  parametersType := "VARCHAR"
  parametersRead := "user_params"
  parametersCast := ""
  rowLock := ""

/-- Numbered parameters, and a document column for the free parameters. -/
def postgres : Wording where
  parameter n := "$" ++ toString n
  textType := "TEXT"
  parametersType := "JSON NULL"
  parametersRead := "user_params::text AS user_params"
  parametersCast := "::json"
  rowLock := " FOR UPDATE"

def columns (wording : Wording) : String :=
  ", ".intercalate (logColumns.map fun column =>
    if column = "user_params" then wording.parametersRead else column)

def createStatement (wording : Wording) (schema : String) : String :=
  let log := (ControlTable.log.inSchema schema).text
  let lock := (ControlTable.lock.inSchema schema).text
  let text := wording.textType
  "\n".intercalate [
    "CREATE SCHEMA IF NOT EXISTS " ++ quoteIdentifier schema ++ ";",
    "CREATE TABLE IF NOT EXISTS " ++ log ++ " (",
    "    name " ++ text ++ " PRIMARY KEY,",
    "    filename " ++ text ++ " NOT NULL,",
    "    author " ++ text ++ " NOT NULL,",
    "    run_modifier " ++ text ++ " NOT NULL,",
    "    run_order BIGINT NOT NULL,",
    "    hash " ++ text ++ " NOT NULL,",
    "    created_at TIMESTAMPTZ NOT NULL,",
    "    last_executed_at TIMESTAMPTZ NOT NULL,",
    "    user_params " ++ wording.parametersType,
    ");",
    "CREATE TABLE IF NOT EXISTS " ++ lock ++ " (",
    "    locked BOOLEAN NOT NULL DEFAULT false",
    ");",
    "INSERT INTO " ++ lock ++ " (locked) SELECT false WHERE NOT EXISTS (SELECT 1 FROM " ++ lock ++
      ");"]

/-- The text of a statement on the control tables of a schema. -/
def statement (wording : Wording) (purpose : ControlStatement) (schema : String) : String :=
  let log := (ControlTable.log.inSchema schema).text
  let lock := (ControlTable.lock.inSchema schema).text
  let p := wording.parameter
  match purpose with
  | .tableExists =>
    "SELECT EXISTS (SELECT 1 FROM information_schema.tables WHERE table_schema = " ++ p 1 ++
      " AND table_name = " ++ p 2 ++ ") AS is_present"
  | .createControlTables => wording.createStatement schema
  | .isLocked => "SELECT locked FROM " ++ lock ++ " LIMIT 1" ++ wording.rowLock
  | .acquireLock => "UPDATE " ++ lock ++ " SET locked = true WHERE locked = false"
  | .releaseLock => "UPDATE " ++ lock ++ " SET locked = false"
  | .selectLog => "SELECT " ++ wording.columns ++ " FROM " ++ log ++ " ORDER BY run_order"
  | .insertLog =>
    "INSERT INTO " ++ log ++ " (name, filename, author, run_modifier, run_order, hash, " ++
      "created_at, last_executed_at, user_params) VALUES (" ++
      ", ".intercalate [p 1, p 2, p 3, p 4, p 5, p 6, "now()", "now()",
        p 7 ++ wording.parametersCast] ++ ")"
  | .updateLog =>
    "UPDATE " ++ log ++ " SET filename = " ++ p 1 ++ ", author = " ++ p 2 ++
      ", run_modifier = " ++ p 3 ++ ", run_order = " ++ p 4 ++ ", hash = " ++ p 5 ++
      ", user_params = " ++ p 6 ++ wording.parametersCast ++
      ", last_executed_at = now() WHERE name = " ++ p 7
  | .updateRunOrder => "UPDATE " ++ log ++ " SET run_order = " ++ p 1 ++ " WHERE name = " ++ p 2

end Wording

/-- A statement that takes another number of parameters than are bound to it. -/
structure PlaceholderMismatch where
  statement : ControlStatement
  found : Nat
  expected : Nat
  kind : DatabaseKind
deriving DecidableEq, Repr

/-- The text of every statement on the control tables of every schema. -/
structure Dialect where
  kind : DatabaseKind
  statement : ControlStatement → (schema : String) → String

namespace Dialect

def builtin : DatabaseKind → Dialect
  | .duckdb => ⟨.duckdb, Wording.duckdb.statement⟩
  | .postgres => ⟨.postgres, Wording.postgres.statement⟩

/-- Give one statement another text, the same for every schema. -/
def replace (dialect : Dialect) (purpose : ControlStatement) (text : String) : Dialect :=
  { dialect with
    statement := fun other schema =>
      if other = purpose then text else dialect.statement other schema }

/-- The first statement that takes another number of parameters than are bound to it. -/
def mismatch? (dialect : Dialect) (schema : String) :
    List ControlStatement → Option PlaceholderMismatch
  | [] => none
  | purpose :: rest =>
    match purpose.parameterCount? with
    | none => dialect.mismatch? schema rest
    | some expected =>
      let found := countPlaceholders (dialect.statement purpose schema)
      if found = expected then dialect.mismatch? schema rest
      else some ⟨purpose, found, expected, dialect.kind⟩

/-- Check that each statement takes the parameters that are bound to it. -/
def check (dialect : Dialect) (schema : String) : Except PlaceholderMismatch Unit :=
  match dialect.mismatch? schema ControlStatement.all with
  | none => .ok ()
  | some mismatch => .error mismatch

end Dialect
end Sql
end SchemaMigration
