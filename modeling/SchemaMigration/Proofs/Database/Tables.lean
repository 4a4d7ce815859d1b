import SchemaMigration.Proofs.Database.Service

/-!
# SchemaMigration.Proofs.Database.Tables

Statements on a table that is there or missing, and that no request takes a control table away.

* `perform_on`, `perform_missing`, `performOn_of_perform` : a statement and the table that it is on.
* `HasTable` : one of the control tables is there.
* `Effect.hasTable`, `Torn.hasTable` : whatever is asked of a database, it stays there.
-/

namespace SchemaMigration
namespace Database

open Sql

variable {schema : String} {data data' : Data}

theorem perform_on {statement : Statement} {ref : TableRef} {rows : List (List Cell)}
    (ht : Data.tableOf? statement = some ref) (hr : data.rows? ref = some rows)
    (cells : List Cell) (recorded : Bool) :
    data.perform statement cells recorded = data.performOn statement cells ref rows := by
  cases statement <;> cases ht <;> simp only [Data.perform, Data.tableOf?, hr]

theorem perform_missing {statement : Statement} {ref : TableRef}
    (ht : Data.tableOf? statement = some ref) (hr : data.rows? ref = none)
    (cells : List Cell) (recorded : Bool) :
    data.perform statement cells recorded = .error (Data.missingTable ref) := by
  cases statement <;> cases ht <;> simp only [Data.perform, Data.tableOf?, hr]

/-- A statement on a table that is performed finds the table. -/
theorem performOn_of_perform {statement : Statement} {ref : TableRef} {cells : List Cell}
    {recorded : Bool} {result : Data × Outcome} (ht : Data.tableOf? statement = some ref)
    (h : data.perform statement cells recorded = .ok result) :
    ∃ rows, data.rows? ref = some rows ∧ data.performOn statement cells ref rows = .ok result := by
  cases hr : data.rows? ref with
  | none => rw [perform_missing ht hr] at h; cases h
  | some rows => exact ⟨rows, rfl, by rw [← h, perform_on ht hr]⟩

/-! ## The control tables -/

def HasTable (schema : String) (table : ControlTable) (data : Data) : Prop :=
  (data.rows? (table.inSchema schema)).isSome = true

namespace HasTable

variable {table : ControlTable} (h : HasTable schema table data)

include h

theorem put (ref : TableRef) (rows : List (List Cell)) :
    HasTable schema table (data.put ref rows) := by
  by_cases hsame : table.inSchema schema = ref
  · rw [HasTable, hsame, Data.rows?_put_self, Option.isSome_some]
  · rw [HasTable, Data.rows?_put_of_ne _ hsame]
    exact h

theorem ensure (ref : TableRef) : HasTable schema table (data.ensure ref) := by
  rw [Data.ensure]
  split
  · exact h
  · exact h.put ref []

theorem seed (ref : TableRef) (row : List Cell) : HasTable schema table (data.seed ref row) := by
  rw [Data.seed.eq_def]
  split
  · exact h
  · exact h.put ref [row]

theorem performOn {statement : Statement} {cells : List Cell} {ref : TableRef}
    {rows : List (List Cell)} {outcome : Outcome}
    (hp : data.performOn statement cells ref rows = .ok (data', outcome)) :
    HasTable schema table data' := by
  cases statement with
  | insertRow other =>
    simp only [Data.performOn] at hp
    split at hp
    · cases hp
    · cases hp
      exact h.put ref _
  | setFlag | clearFlags | updateRow | moveRow => cases hp; exact h.put ref _
  | _ => cases hp; exact h

theorem perform {statement : Statement} {cells : List Cell} {outcome : Outcome}
    (hp : data.perform statement cells true = .ok (data', outcome)) :
    HasTable schema table data' := by
  cases htable : Data.tableOf? statement with
  | some ref =>
    obtain ⟨rows, -, hrows⟩ := performOn_of_perform htable hp
    exact h.performOn hrows
  | none =>
    cases statement with
    | tableExists => cases hp; exact h
    | createControlTables other => cases hp; exact ((h.ensure _).ensure _).seed _ _
    | opaqueText text => cases hp; exact h
    | _ => cases htable

omit h in
theorem ensure_self (table : ControlTable) (data : Data) :
    HasTable schema table (data.ensure (table.inSchema schema)) := by
  rw [Data.ensure]
  split
  · rename_i rows hrows
    rw [HasTable, hrows, Option.isSome_some]
  · rw [HasTable, Data.rows?_put_self, Option.isSome_some]

end HasTable

/-- No request takes a control table away. -/
theorem Effect.hasTable {request : Request} {outcome : Outcome} {table : ControlTable}
    (he : Effect schema data request data' outcome) (h : HasTable schema table data) :
    HasTable schema table data' := by
  cases he with
  | migration text outcome hsame => rwa [HasTable, hsame table]
  | control hp => exact h.perform hp

theorem Torn.hasTable {request : Request} {table : ControlTable}
    (ht : Torn schema data request data') (h : HasTable schema table data) :
    HasTable schema table data' := by
  cases ht with
  | whole he => exact he.hasTable h
  | nothing => exact h
  | logOnly => exact h.ensure _
  | withoutRow => exact (h.ensure _).ensure _

end Database
end SchemaMigration
