import SchemaMigration.Sql.Identifier
import SchemaMigration.Text.Split

/-!
# SchemaMigration.Database.Statement

The statements whose effect on the control tables is known, told by their text.

* `Statement` : what a statement does.
* `Statement.read` : the statement that a text is; a text of another shape is opaque.
-/

namespace SchemaMigration
namespace Database

open Sql Text

inductive Statement where
  /-- Whether the table with the two bound names exists. -/
  | tableExists
  | createControlTables (schema : String)
  | readFlag (lock : TableRef)
  | setFlag (lock : TableRef)
  | clearFlags (lock : TableRef)
  | readLog (log : TableRef)
  | insertRow (log : TableRef)
  | updateRow (log : TableRef)
  | moveRow (log : TableRef)
  /-- A statement without an effect on the control tables. -/
  | opaqueText (text : String)
deriving DecidableEq, Repr

namespace Statement

/-- The table that stands behind the beginning `lead`, and what follows it. -/
def tableBehind? (lead : String) (text : List Char) : Option (TableRef × List Char) :=
  match dropStart? lead.toList text with
  | none => none
  | some rest => readTable? rest

def readTableExists? (text : List Char) : Option Statement :=
  if startsWith "SELECT EXISTS (SELECT 1 FROM information_schema.tables ".toList text then
    some .tableExists
  else none

def readCreate? (text : List Char) : Option Statement :=
  match dropStart? "CREATE SCHEMA IF NOT EXISTS ".toList text with
  | none => none
  | some rest =>
    match readIdentifier? rest with
    | none => none
    | some (schema, after) =>
      if startsWith ";\nCREATE TABLE IF NOT EXISTS ".toList after then
        some (.createControlTables schema)
      else none

def readReadFlag? (text : List Char) : Option Statement :=
  match tableBehind? "SELECT locked FROM " text with
  | some (table, rest) => if startsWith " LIMIT 1".toList rest then some (.readFlag table) else none
  | none => none

/-- The four statements that change rows of a table, told by what follows the table. -/
def readUpdate? (text : List Char) : Option Statement :=
  match tableBehind? "UPDATE " text with
  | none => none
  | some (table, rest) =>
    if rest = " SET locked = true WHERE locked = false".toList then some (.setFlag table)
    else if rest = " SET locked = false".toList then some (.clearFlags table)
    else if startsWith " SET filename = ".toList rest then some (.updateRow table)
    else if startsWith " SET run_order = ".toList rest then some (.moveRow table)
    else none

def readReadLog? (text : List Char) : Option Statement :=
  match dropStart? "SELECT name, filename, ".toList text with
  | none => none
  | some rest =>
    match cutFirstText? " FROM ".toList rest with
    | none => none
    | some (_, source) =>
      match readTable? source with
      | none => none
      | some (table, after) =>
        if after = " ORDER BY run_order".toList then some (.readLog table) else none

def readInsert? (text : List Char) : Option Statement :=
  match tableBehind? "INSERT INTO " text with
  | some (table, rest) =>
    if startsWith " (name, filename, ".toList rest then some (.insertRow table) else none
  | none => none

def read (text : String) : Statement :=
  let chars := text.toList
  ((readTableExists? chars).or ((readCreate? chars).or ((readReadFlag? chars).or
    ((readUpdate? chars).or ((readReadLog? chars).or (readInsert? chars)))))).getD
    (.opaqueText text)

end Statement
end Database
end SchemaMigration
