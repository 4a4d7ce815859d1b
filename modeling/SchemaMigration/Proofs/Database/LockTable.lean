import SchemaMigration.Proofs.Database.Serving

/-!
# SchemaMigration.Proofs.Database.LockTable

The row of the lock stays where it is.

* `HasLockRow` : the table of the lock has a row.
* `Effect.hasLockRow`, `Torn.hasLockRow` : no request takes the row away.
-/

namespace SchemaMigration
namespace Database

open Sql

/-- The table of the lock is there and has a row. -/
def HasLockRow (schema : String) (data : Data) : Prop :=
  ∃ row rest, data.rows? (ControlTable.lock.inSchema schema) = some (row :: rest)

variable {schema : String} {data data' : Data}

theorem HasLockRow.of_rows? (h : HasLockRow schema data)
    (hrows : data'.rows? (ControlTable.lock.inSchema schema) =
      data.rows? (ControlTable.lock.inSchema schema)) : HasLockRow schema data' := by
  obtain ⟨row, rest, hlock⟩ := h
  exact ⟨row, rest, hrows.trans hlock⟩

theorem HasLockRow.put_log (h : HasLockRow schema data) (rows : List (List Cell)) :
    HasLockRow schema (data.put (ControlTable.log.inSchema schema) rows) :=
  h.of_rows? (Data.rows?_put_of_ne data (log_ne_lock schema).symm rows)

theorem hasLockRow_map {rows : List (List Cell)} (h : HasLockRow schema data)
    (hrows : data.rows? (ControlTable.lock.inSchema schema) = some rows)
    (f : List Cell → List Cell) :
    HasLockRow schema (data.put (ControlTable.lock.inSchema schema) (rows.map f)) := by
  obtain ⟨row, rest, hlock⟩ := h
  cases hrows.symm.trans hlock
  exact ⟨f row, rest.map f, Data.rows?_put_self _ _ _⟩

theorem HasLockRow.ensure_log (h : HasLockRow schema data) :
    HasLockRow schema (data.ensure (ControlTable.log.inSchema schema)) := by
  rw [Data.ensure]
  split
  · exact h
  · exact h.put_log []

theorem HasLockRow.ensure_lock (h : HasLockRow schema data) :
    data.ensure (ControlTable.lock.inSchema schema) = data := by
  obtain ⟨row, rest, hlock⟩ := h
  rw [Data.ensure, hlock]

theorem HasLockRow.seed_lock (h : HasLockRow schema data) (cells : List Cell) :
    data.seed (ControlTable.lock.inSchema schema) cells = data := by
  obtain ⟨row, rest, hlock⟩ := h
  rw [Data.seed.eq_def, hlock]

theorem HasLockRow.createControlTables (h : HasLockRow schema data) :
    HasLockRow schema (data.createControlTables schema) := by
  have hlog := h.ensure_log
  rw [Data.createControlTables, hlog.ensure_lock, hlog.seed_lock]
  exact hlog

theorem Effect.hasLockRow {request : Request} {outcome : Outcome}
    (he : Effect schema data request data' outcome) (h : HasLockRow schema data) :
    HasLockRow schema data' := by
  cases he with
  | migration text outcome hsame => exact h.of_rows? (hsame .lock)
  | @control purpose cells _ _ hp =>
    cases purpose with
    | tableExists => cases hp; exact h
    | createControlTables => cases hp; exact h.createControlTables
    | isLocked =>
      obtain ⟨rows, -, hrows⟩ := performOn_of_perform rfl hp
      cases hrows
      exact h
    | acquireLock =>
      obtain ⟨rows, hr, hrows⟩ := performOn_of_perform rfl hp
      cases hrows
      exact hasLockRow_map h hr _
    | releaseLock =>
      obtain ⟨rows, hr, hrows⟩ := performOn_of_perform rfl hp
      cases hrows
      exact hasLockRow_map h hr _
    | selectLog =>
      obtain ⟨rows, -, hrows⟩ := performOn_of_perform rfl hp
      cases hrows
      exact h
    | insertLog =>
      obtain ⟨rows, -, hrows⟩ := performOn_of_perform rfl hp
      simp only [Request.statement, Data.performOn] at hrows
      split at hrows
      · cases hrows
      · cases hrows
        exact h.put_log (rows ++ [_])
    | updateLog =>
      obtain ⟨rows, -, hrows⟩ := performOn_of_perform rfl hp
      cases hrows
      exact h.put_log _
    | updateRunOrder =>
      obtain ⟨rows, -, hrows⟩ := performOn_of_perform rfl hp
      cases hrows
      exact h.put_log _

theorem Torn.hasLockRow {request : Request} (ht : Torn schema data request data')
    (h : HasLockRow schema data) : HasLockRow schema data' := by
  cases ht with
  | whole he => exact he.hasLockRow h
  | nothing => exact h
  | logOnly => exact h.ensure_log
  | withoutRow =>
    rw [h.ensure_log.ensure_lock]
    exact h.ensure_log

end Database
end SchemaMigration
