import SchemaMigration.Database.Statement
import SchemaMigration.Sql.Cell
import SchemaMigration.Sql.Dialect

/-!
# SchemaMigration.Database.Data

The contents of a database and what a statement does to them.

* `Data` : the tables, the journal of opaque statements and the clock that stamps log rows.
* `Data.rows?`, `Data.put`, `Data.drop` : a table's rows, read, written and removed.
* `Data.perform` : one statement with its parameters.
-/

namespace SchemaMigration
namespace Database

open Sql

/-- A table with its rows in the order of insertion. -/
structure Table where
  ref : TableRef
  rows : List (List Cell)
deriving Repr

structure Data where
  /-- At most one table per reference. -/
  tables : List Table := []
  /-- The opaque statements that were sent, oldest first. -/
  journal : List String := []
  /-- How many log rows were stamped. -/
  ticks : Nat := 0
deriving Repr, Inhabited

structure Outcome where
  rows : List (List Cell) := []
  affected : Nat := 0
deriving Repr

namespace Data

def rows? (data : Data) (ref : TableRef) : Option (List (List Cell)) :=
  (data.tables.find? (·.ref = ref)).map (·.rows)

/-- Replace the rows of a table among tables, at its place or at the end. -/
def putIn (ref : TableRef) (rows : List (List Cell)) : List Table → List Table
  | [] => [⟨ref, rows⟩]
  | table :: rest =>
    if table.ref = ref then ⟨ref, rows⟩ :: rest else table :: putIn ref rows rest

/-- Set the rows of a table, which is created when it is absent. -/
def put (data : Data) (ref : TableRef) (rows : List (List Cell)) : Data :=
  { data with tables := putIn ref rows data.tables }

def drop (data : Data) (ref : TableRef) : Data :=
  { data with tables := data.tables.filter (·.ref ≠ ref) }

theorem find?_putIn_self (ref : TableRef) (rows : List (List Cell)) (tables : List Table) :
    (putIn ref rows tables).find? (·.ref = ref) = some ⟨ref, rows⟩ := by
  induction tables with
  | nil => simp [putIn]
  | cons table rest ih =>
    simp only [putIn]
    split
    · simp
    · rename_i h; simp [h, ih]

theorem find?_putIn_of_ne {ref other : TableRef} (h : other ≠ ref) (rows : List (List Cell))
    (tables : List Table) :
    (putIn ref rows tables).find? (·.ref = other) = tables.find? (·.ref = other) := by
  induction tables with
  | nil => simp [putIn, Ne.symm h]
  | cons table rest ih =>
    simp only [putIn]
    split
    · rename_i ht; subst ht; simp [Ne.symm h]
    · simp only [List.find?_cons, ih]

theorem rows?_put_self (data : Data) (ref : TableRef) (rows : List (List Cell)) :
    (data.put ref rows).rows? ref = some rows := by
  simp [rows?, put, find?_putIn_self]

theorem rows?_put_of_ne (data : Data) {ref other : TableRef} (h : other ≠ ref)
    (rows : List (List Cell)) : (data.put ref rows).rows? other = data.rows? other := by
  simp [rows?, put, find?_putIn_of_ne h]

/-- The error of a statement on a table that does not exist. -/
def missingTable (ref : TableRef) : String :=
  "Catalog Error: Table with name " ++ ref.name ++ " does not exist!"

/-- Create a table without rows where it is absent. -/
def ensure (data : Data) (ref : TableRef) : Data :=
  match data.rows? ref with
  | some _ => data
  | none => data.put ref []

/-- Give a table a first row where it has none. -/
def seed (data : Data) (ref : TableRef) (row : List Cell) : Data :=
  match data.rows? ref with
  | some (_ :: _) => data
  | _ => data.put ref [row]

/-- Create the control tables of a schema, as far as they are absent. -/
def createControlTables (data : Data) (schema : String) : Data :=
  ((data.ensure (ControlTable.log.inSchema schema)).ensure
    (ControlTable.lock.inSchema schema)).seed (ControlTable.lock.inSchema schema)
    [.boolean false]

/-- The parameter at a position; one that is not bound is nothing. -/
def parameter (parameters : List Cell) (position : Nat) : Cell := parameters.getD position .null

/-- The text of a cell, as messages about duplicates show it. -/
def shownKey : Cell → String
  | .text content => content
  | other => other.described

def hasKey (key : Cell) (row : List Cell) : Bool :=
  match row with
  | first :: _ => first.same key
  | [] => false

/-- A log row, with all its columns, whose first cell is `key`. -/
def isLogRow (key : Cell) (row : List Cell) : Bool := row.length == 9 && hasKey key row

/-- The run order of a row, by which queries on the log sort. -/
def runOrder (row : List Cell) : Int :=
  match row.getD 4 .null with
  | .integer .big n => n
  | _ => 0

/-- The moment of the n-th stamp. -/
def stamp (ticks : Nat) : Cell := .timestamp .microsecond (ticks * 1000000)

/-- Set the flag of a row where it is clear. -/
def setFlag : List Cell → List Cell
  | .boolean false :: rest => .boolean true :: rest
  | row => row

def isClear : List Cell → Bool
  | .boolean false :: _ => true
  | _ => false

/-- Change the rows that satisfy `p`; as many rows are affected. -/
def updateRows (data : Data) (ref : TableRef) (rows : List (List Cell)) (p : List Cell → Bool)
    (f : List Cell → List Cell) : Data × Outcome :=
  (data.put ref (rows.map fun row => if p row then f row else row),
    { affected := (rows.filter p).length })

/-- The updated log row: five new cells behind the key, the old creation, a new stamp and the
new free parameters. -/
def updateRow (parameters : List Cell) (now : Cell) (row : List Cell) : List Cell :=
  [row.getD 0 .null, parameter parameters 0, parameter parameters 1, parameter parameters 2,
    parameter parameters 3, parameter parameters 4, row.getD 6 .null, now, parameter parameters 5]

/-- The statement on a table whose rows are given. -/
def performOn (data : Data) (statement : Statement) (parameters : List Cell) (ref : TableRef)
    (rows : List (List Cell)) : Except String (Data × Outcome) :=
  match statement with
  | .readFlag _ => .ok (data, { rows := rows.take 1 })
  | .setFlag _ => .ok (data.updateRows ref rows isClear setFlag)
  | .clearFlags _ => .ok (data.updateRows ref rows (fun _ => true) fun _ => [.boolean false])
  | .readLog _ => .ok (data, { rows := rows.mergeSort fun a b => runOrder a ≤ runOrder b })
  | .insertRow _ =>
    let key := parameter parameters 0
    if rows.any (hasKey key) then
      .error ("Constraint Error: Duplicate key \"name: " ++ shownKey key ++
        "\" violates primary key constraint.")
    else
      let now := stamp (data.ticks + 1)
      let row := (List.range 6).map (parameter parameters) ++ [now, now, parameter parameters 6]
      .ok ({ data.put ref (rows ++ [row]) with ticks := data.ticks + 1 }, { affected := 1 })
  | .updateRow _ =>
    let now := stamp (data.ticks + 1)
    let (changed, outcome) := data.updateRows ref rows (isLogRow (parameter parameters 6))
      (updateRow parameters now)
    .ok ({ changed with ticks := data.ticks + 1 }, outcome)
  | .moveRow _ =>
    .ok (data.updateRows ref rows (isLogRow (parameter parameters 1))
      fun row => row.set 4 (parameter parameters 0))
  | _ => .ok (data, {})

def tableOf? : Statement → Option TableRef
  | .readFlag t | .setFlag t | .clearFlags t | .readLog t | .insertRow t | .updateRow t
  | .moveRow t => some t
  | _ => none

def hasTable (data : Data) : Cell → Cell → Bool
  | .text schema, .text name => (data.rows? ⟨schema, name⟩).isSome
  | _, _ => false

/-- Perform a statement. An opaque one is recorded in the journal when `recorded`. -/
def perform (data : Data) (statement : Statement) (parameters : List Cell) (recorded : Bool) :
    Except String (Data × Outcome) :=
  match statement with
  | .tableExists =>
    .ok (data, { rows := [[.boolean
      (data.hasTable (parameter parameters 0) (parameter parameters 1))]] })
  | .createControlTables schema => .ok (data.createControlTables schema, {})
  | .opaqueText text =>
    .ok (if recorded then { data with journal := data.journal ++ [text] } else data, {})
  | other =>
    match tableOf? other with
    | none => .ok (data, {})
    | some ref =>
      match data.rows? ref with
      | none => .error (missingTable ref)
      | some rows => data.performOn other parameters ref rows

end Data
end Database
end SchemaMigration
