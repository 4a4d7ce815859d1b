import SchemaMigration.Cycle.Plan
import SchemaMigration.Proofs.Database.Serving

/-!
# SchemaMigration.Proofs.History.StoredEntry

The log as a list of entries, and what the statements on the log do to the list.

* `StoredEntry` : a row of the log as its table declares it.
* `storedEntries`, `Tabular` : the entries in some contents, and that all rows are entries, each
  with a name of its own.
* `moveEntry`, `insertEntry`, `updateEntry` : the three statements that write to the log.
* `cells_moveEntry`, `cells_updateEntry` : what they do to the rows.
* `Carries` : contents with both control tables and a log of given entries.

`Carries.move`, `Carries.insert`, `Carries.update` say that the statements do to the contents what
these functions do to the entries.
-/

namespace SchemaMigration

open Sql Database

/-- A row of the log: texts, a number of 64 bits, two times and the free parameters. -/
structure StoredEntry where
  name : String
  filename : String
  author : String
  modifier : String
  runOrder : Int
  hash : String
  createdAt : Cell
  lastExecutedAt : Cell
  userParameters : Cell

namespace StoredEntry

def cells (e : StoredEntry) : List Cell :=
  [.text e.name, .text e.filename, .text e.author, .text e.modifier, .big e.runOrder, .text e.hash,
    e.createdAt, e.lastExecutedAt, e.userParameters]

def ofCells? : List Cell → Option StoredEntry
  | [.text name, .text filename, .text author, .text modifier, .integer .big runOrder, .text hash,
      createdAt, lastExecutedAt, userParameters] =>
    some ⟨name, filename, author, modifier, runOrder, hash, createdAt, lastExecutedAt,
      userParameters⟩
  | _ => none

/-- What is kept of a migration that was executed at a position. -/
def ofMigration (m : Migration) (position : Int) (createdAt now : Cell) : StoredEntry where
  name := m.name.text
  filename := m.filename
  author := m.author
  modifier := m.parameters.run.text
  runOrder := position
  hash := m.hash
  createdAt := createdAt
  lastExecutedAt := now
  userParameters := .text m.userParameters.json

theorem ofCells?_cells (e : StoredEntry) : ofCells? e.cells = some e := rfl

theorem hasKey_cells (e : StoredEntry) (name : String) :
    Data.hasKey (.text name) e.cells = true ↔ e.name = name := by
  simp [cells, Data.hasKey, Cell.same]

theorem isLogRow_cells (e : StoredEntry) (name : String) :
    Data.isLogRow (.text name) e.cells = true ↔ e.name = name := by
  rw [Data.isLogRow, Bool.and_eq_true, hasKey_cells]
  simp [cells]

end StoredEntry

/-- The rows of the log that have the form which its table declares. -/
def storedEntries (schema : String) (data : Data) : List StoredEntry :=
  (logRows schema data).filterMap StoredEntry.ofCells?

/-- The log is as its table declares it: every row has the columns' types, and names are keys.
Contents without a log are so, too. -/
structure Tabular (schema : String) (data : Data) : Prop where
  shape : ∀ row ∈ logRows schema data, ∃ e : StoredEntry, row = e.cells
  distinct : ((storedEntries schema data).map (·.name)).Nodup

variable {schema : String} {data data' : Data} {entries : List StoredEntry}

theorem filterMap_ofCells? (entries : List StoredEntry) :
    (entries.map StoredEntry.cells).filterMap StoredEntry.ofCells? = entries := by
  induction entries with
  | nil => rfl
  | cons e rest ih =>
    rw [List.map_cons, List.filterMap_cons, StoredEntry.ofCells?_cells]
    simp only [ih]

theorem storedEntries_of_logRows (h : logRows schema data = entries.map StoredEntry.cells) :
    storedEntries schema data = entries := by
  rw [storedEntries, h, filterMap_ofCells?]

theorem map_cells_storedEntries
    (h : ∀ row ∈ logRows schema data, ∃ e : StoredEntry, row = e.cells) :
    logRows schema data = (storedEntries schema data).map StoredEntry.cells := by
  rw [storedEntries]
  generalize logRows schema data = rows at h ⊢
  induction rows with
  | nil => rfl
  | cons row rest ih =>
    rw [List.forall_mem_cons] at h
    obtain ⟨⟨e, rfl⟩, hrest⟩ := h
    rw [List.filterMap_cons, StoredEntry.ofCells?_cells]
    simp only [List.map_cons, ← ih hrest]

theorem Tabular.of_logRows (h : logRows schema data = entries.map StoredEntry.cells)
    (hd : (entries.map (·.name)).Nodup) : Tabular schema data where
  shape row hrow := by
    rw [h] at hrow
    obtain ⟨e, -, rfl⟩ := List.mem_map.mp hrow
    exact ⟨e, rfl⟩
  distinct := by
    rw [storedEntries_of_logRows h]
    exact hd

/-! ## Writing -/

def moveEntry (name : String) (order : Int) (entries : List StoredEntry) : List StoredEntry :=
  entries.map fun e => if e.name = name then { e with runOrder := order } else e

/-- Add an entry for a migration, with the stamp of a tick of the database's clock. -/
def insertEntry (m : Migration) (position : Int) (tick : Nat) (entries : List StoredEntry) :
    List StoredEntry :=
  entries ++ [.ofMigration m position (Data.stamp tick) (Data.stamp tick)]

/-- Write the entry of a migration anew; it keeps the time of its creation. -/
def updateEntry (m : Migration) (position : Int) (tick : Nat) (entries : List StoredEntry) :
    List StoredEntry :=
  entries.map fun e =>
    if e.name = m.name.text then .ofMigration m position e.createdAt (Data.stamp tick) else e

def recordEntry (planned : Planned) (tick : Nat) (entries : List StoredEntry) : List StoredEntry :=
  if planned.logged then updateEntry planned.migration planned.actualOrder tick entries
  else insertEntry planned.migration planned.actualOrder tick entries

theorem names_updateEntry (m : Migration) (position : Int) (tick : Nat)
    (entries : List StoredEntry) :
    (updateEntry m position tick entries).map (·.name) = entries.map (·.name) := by
  rw [updateEntry, List.map_map]
  refine List.map_congr_left fun e _ => ?_
  dsimp only [Function.comp_apply]
  split
  · rename_i h; exact h.symm
  · rfl

theorem names_insertEntry (m : Migration) (position : Int) (tick : Nat)
    (entries : List StoredEntry) :
    (insertEntry m position tick entries).map (·.name) = entries.map (·.name) ++ [m.name.text] := by
  rw [insertEntry, List.map_append]
  rfl

theorem cells_moveEntry (name : String) (order : Int) (entries : List StoredEntry) :
    (moveEntry name order entries).map StoredEntry.cells =
      (entries.map StoredEntry.cells).map fun row =>
        if Data.isLogRow (.text name) row then row.set 4 (.big order) else row := by
  rw [moveEntry, List.map_map, List.map_map]
  refine List.map_congr_left fun e _ => ?_
  dsimp only [Function.comp_apply]
  by_cases hname : e.name = name
  · rw [if_pos ((e.isLogRow_cells name).mpr hname), if_pos hname]
    rfl
  · rw [if_neg (mt (e.isLogRow_cells name).mp hname), if_neg hname]

theorem cells_updateEntry (m : Migration) (position : Int) (tick : Nat)
    (entries : List StoredEntry) :
    (updateEntry m position tick entries).map StoredEntry.cells =
      (entries.map StoredEntry.cells).map fun row =>
        if Data.isLogRow (.text m.name.text) row then
          Data.updateRow ((LogEntry.ofMigration m position).updateParameters.map Cell.ofValue)
            (Data.stamp tick) row
        else row := by
  rw [updateEntry, List.map_map, List.map_map]
  refine List.map_congr_left fun e _ => ?_
  dsimp only [Function.comp_apply]
  by_cases hname : e.name = m.name.text
  · rw [if_pos ((e.isLogRow_cells _).mpr hname), if_pos hname]
    show _ = Cell.text e.name :: _
    rw [hname]
    rfl
  · rw [if_neg (mt (e.isLogRow_cells _).mp hname), if_neg hname]

/-- Contents with both control tables, whose log has the given entries. -/
structure Carries (schema : String) (entries : List StoredEntry) (data : Data) : Prop where
  log : data.rows? (ControlTable.log.inSchema schema) = some (entries.map StoredEntry.cells)
  lock : (data.rows? (ControlTable.lock.inSchema schema)).isSome = true

namespace Carries

theorem logRows (h : Carries schema entries data) :
    logRows schema data = entries.map StoredEntry.cells :=
  logRows_of_rows? h.log

theorem storedEntries (h : Carries schema entries data) : storedEntries schema data = entries :=
  storedEntries_of_logRows h.logRows

theorem hasLog (h : Carries schema entries data) : hasLog schema data = true := by
  rw [Database.hasLog, h.log, Option.isSome_some]

theorem sameTables (h : Carries schema entries data) (hs : SameTables schema data data') :
    Carries schema entries data' where
  log := by rw [hs .log, h.log]
  lock := by rw [hs .lock, h.lock]

theorem put_log (h : Carries schema entries data) (entries' : List StoredEntry) :
    Carries schema entries'
      (data.put (ControlTable.log.inSchema schema) (entries'.map StoredEntry.cells)) where
  log := Data.rows?_put_self _ _ _
  lock := by rw [Data.rows?_put_of_ne data (log_ne_lock schema).symm, h.lock]

theorem ticked (h : Carries schema entries data) (ticks : Nat) :
    Carries schema entries { data with ticks } := ⟨h.log, h.lock⟩

theorem move (h : Carries schema entries data) (name : String) (order : Int) :
    ∃ data' outcome, data.control schema .updateRunOrder [.int order, .text name] =
      .ok (data', outcome) ∧ Carries schema (moveEntry name order entries) data' := by
  refine ⟨_, _, perform_on rfl h.log _ _, ?_⟩
  have hput := h.put_log (moveEntry name order entries)
  rw [cells_moveEntry] at hput
  exact hput

theorem insert (h : Carries schema entries data) {m : Migration}
    (hnew : ∀ e ∈ entries, e.name ≠ m.name.text) (position : Int) :
    ∃ data' outcome tick, data.control schema .insertLog
        (LogEntry.ofMigration m position).insertParameters = .ok (data', outcome) ∧
      Carries schema (insertEntry m position tick entries) data' := by
  have hfree : ¬ (entries.map StoredEntry.cells).any (Data.hasKey (.text m.name.text)) = true := by
    intro hany
    obtain ⟨row, hrow, hkey⟩ := List.any_eq_true.mp hany
    obtain ⟨e, he, rfl⟩ := List.mem_map.mp hrow
    exact hnew e he ((e.hasKey_cells _).mp hkey)
  refine ⟨_, _, data.ticks + 1, (perform_on rfl h.log _ _).trans (if_neg hfree), ?_⟩
  have hput := h.put_log (insertEntry m position (data.ticks + 1) entries)
  rw [insertEntry, List.map_append] at hput
  exact hput.ticked _

theorem update (h : Carries schema entries data) (m : Migration) (position : Int) :
    ∃ data' outcome tick, data.control schema .updateLog
        (LogEntry.ofMigration m position).updateParameters = .ok (data', outcome) ∧
      Carries schema (updateEntry m position tick entries) data' := by
  refine ⟨_, _, data.ticks + 1, perform_on rfl h.log _ _, ?_⟩
  have hput := h.put_log (updateEntry m position (data.ticks + 1) entries)
  rw [cells_updateEntry] at hput
  exact hput.ticked _

end Carries
end SchemaMigration
