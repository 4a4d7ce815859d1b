import SchemaMigration.Proofs.Sql.Command
import SchemaMigration.Sql.Cell

/-!
# SchemaMigration.Proofs.Sql.Execution

Tables with declared columns, and what a command does to them, as its text says.

* `Record`, `Relation` : a row by the names of its columns, and a table with its declaration.
* `Relation.Valid` : rows that the declaration allows.
* `Term.cells?` : the values of a command, which take the parameters one after the other.
* `Command.change` : the rows after a command.
* `Executes` : the text of a command run on tables. Rows that are not allowed stop it.
* `Selects` : what the text of a query shows.
-/

namespace SchemaMigration
namespace Sql

/-- A row: a cell for each name of a column. -/
abbrev Record := String → Cell

namespace Record

def blank : Record := fun _ => .null

def set (record : Record) (column : String) (cell : Cell) : Record :=
  fun other => if other = column then cell else record other

/-- Assign to columns, one after the other. -/
def assign (record : Record) : List (String × Cell) → Record
  | [] => record
  | (column, cell) :: rest => (record.set column cell).assign rest

/-- Some columns of a row, as the program gets them. -/
def shown (columns : List String) (record : Record) : Row :=
  ⟨columns.map fun column => (record column).value⟩

end Record

structure Relation where
  columns : List Column
  rows : List Record

def ColumnType.holds : ColumnType → Cell → Bool
  | .varchar, .text _ => true
  | .bigint, .integer .big n => IntegerType.big.holds n
  | .timestamptz, .timestamp .microsecond _ => true
  | _, _ => false

/-- A column takes the values of its type, and nothing at all unless that is forbidden. -/
def Column.Admits (column : Column) (cell : Cell) : Prop :=
  column.type.holds cell = true ∨
    cell = .null ∧ column.isKey = false ∧ column.isRequired = false

/-- The rows are of the types of their columns, and no two have the same key. -/
structure Relation.Valid (relation : Relation) : Prop where
  admits : ∀ row ∈ relation.rows, ∀ column ∈ relation.columns, column.Admits (row column.name)
  distinct : ∀ column ∈ relation.columns, column.isKey = true →
    (relation.rows.map (· column.name)).Nodup

/-- The cells of some values. The parameters are used up. -/
def Term.cells? (now : Cell) : List Term → List Cell → Option (List Cell)
  | [], [] => some []
  | [], _ :: _ => none
  | .now :: terms, parameters => (cells? now terms parameters).map (now :: ·)
  | .parameter :: terms, cell :: parameters => (cells? now terms parameters).map (cell :: ·)
  | .parameter :: _, [] => none

/-- Equality in a condition. Nothing is equal to null. -/
def Cell.equals : Cell → Cell → Bool
  | .null, _ => false
  | a, b => a.same b

theorem Cell.equals_text {cell : Cell} {content : String} :
    cell.equals (.text content) = true ↔ cell = .text content := by
  cases cell <;> simp [equals, same]

namespace Command

def values : Command → List Term
  | insert _ _ values => values
  | update _ assignments _ value => assignments.map Prod.snd ++ [value]
  | select _ _ _ => []

/-- The rows after a command, and how many are new or were met, given the cells of its values. -/
def change (cells : List Cell) (rows : List Record) : Command → List Record × Nat
  | insert _ columns _ => (rows ++ [Record.blank.assign (columns.zip cells)], 1)
  | update _ assignments key _ =>
    -- the last value is the one in the condition
    let isMet : Record → Bool := fun row => (row key).equals (cells.getD assignments.length .null)
    (rows.map fun row =>
        if isMet row then row.assign ((assignments.map Prod.fst).zip cells) else row,
      rows.countP isMet)
  | select _ _ _ => (rows, 0)

end Command

abbrev Tables := TableRef → Option Relation

def Tables.put (tables : Tables) (ref : TableRef) (relation : Relation) : Tables :=
  fun other => if other = ref then some relation else tables other

/-- Run the text of a command. -/
inductive Executes (now : Cell) (tables : Tables) (text : String) (parameters : List Cell) :
    Tables → Nat → Prop where
  | mk {command : Command} {relation : Relation} {cells : List Cell}
      (hread : Command.read? text = some command)
      (htable : tables command.table = some relation)
      (hcells : Term.cells? now command.values parameters = some cells)
      (hvalid : Relation.Valid ⟨relation.columns, (command.change cells relation.rows).1⟩) :
      Executes now tables text parameters
        (tables.put command.table ⟨relation.columns, (command.change cells relation.rows).1⟩)
        (command.change cells relation.rows).2

/-- The number by which a cell is sorted. -/
def Cell.rank : Cell → Int
  | .integer _ number => number
  | _ => 0

/-- Ask by the text of a query. Rows of the same rank come in any order. -/
inductive Selects (tables : Tables) (text : String) : List Row → Prop where
  | mk {columns : List String} {table : TableRef} {sortedBy : String} {relation : Relation}
      {rows : List Record} (hread : Command.read? text = some (.select columns table sortedBy))
      (htable : tables table = some relation) (hperm : rows.Perm relation.rows)
      (hsorted : rows.Pairwise fun a b => (a sortedBy).rank ≤ (b sortedBy).rank) :
      Selects tables text (rows.map (Record.shown columns))

variable {now : Cell} {tables : Tables} {text : String} {parameters : List Cell}
  {command : Command} {relation : Relation} {cells : List Cell}

theorem Tables.put_self (ref : TableRef) : tables.put ref relation ref = some relation :=
  if_pos rfl

theorem executes_iff (hread : Command.read? text = some command)
    (htable : tables command.table = some relation)
    (hcells : Term.cells? now command.values parameters = some cells) {tables' : Tables}
    {affected : Nat} :
    Executes now tables text parameters tables' affected ↔
      Relation.Valid ⟨relation.columns, (command.change cells relation.rows).1⟩ ∧
        tables' =
          tables.put command.table ⟨relation.columns, (command.change cells relation.rows).1⟩ ∧
        affected = (command.change cells relation.rows).2 := by
  constructor
  · rintro ⟨hread', htable', hcells', hvalid⟩
    cases hread.symm.trans hread'
    cases htable.symm.trans htable'
    cases hcells.symm.trans hcells'
    exact ⟨hvalid, rfl, rfl⟩
  · rintro ⟨hvalid, rfl, rfl⟩
    exact .mk hread htable hcells hvalid

variable {columns : List String} {table : TableRef} {sortedBy : String}

theorem exists_selects (hread : Command.read? text = some (.select columns table sortedBy))
    (htable : tables table = some relation) : ∃ rows, Selects tables text rows := by
  let le : Record → Record → Bool := fun a b => (a sortedBy).rank ≤ (b sortedBy).rank
  have hsorted : (relation.rows.mergeSort le).Pairwise fun a b =>
      (a sortedBy).rank ≤ (b sortedBy).rank := by
    have hpairs : (relation.rows.mergeSort le).Pairwise fun a b => le a b = true := by
      refine List.pairwise_mergeSort (fun a b c hab hbc => ?_) (fun a b => ?_) relation.rows
      · simp only [le, decide_eq_true_eq] at *
        omega
      · simp only [le, Bool.or_eq_true, decide_eq_true_eq]
        omega
    exact hpairs.imp fun h => of_decide_eq_true h
  exact ⟨_, .mk hread htable (List.mergeSort_perm _ _) hsorted⟩

/-- What a query shows is made of the rows of the table, each once. -/
theorem Selects.exists_perm {shown : List Row} (h : Selects tables text shown)
    (hread : Command.read? text = some (.select columns table sortedBy))
    (htable : tables table = some relation) :
    ∃ rows : List Record, rows.Perm relation.rows ∧ shown = rows.map (Record.shown columns) := by
  obtain ⟨hread', htable', hperm, -⟩ := h
  cases hread.symm.trans hread'
  cases htable.symm.trans htable'
  exact ⟨_, hperm, rfl⟩

end Sql
end SchemaMigration
