import SchemaMigration.Proofs.Database.Tables

/-!
# SchemaMigration.Proofs.Database.LogTable

What each request does to the rows of the log.

* `logRows`, `hasLog` : the rows of the log, and whether there is one.
* `Request.isEntry`, `Request.writesLog` : whether a request writes an entry, or the log at all.
* `Effect.leavesLog` : a request that does not write the log leaves its rows as they are.
* `Effect.logRows_cases` : any request that writes no entry leaves the log's rows as they are or
  moves some of them to another run order.
* `logRows_insert`, `logRows_update`, `logRows_move`, `rows_load` : the requests on the log.
* `free_of_insert`, `insert_refused`, `update_not_refused` : when the log does not take an entry.
-/

namespace SchemaMigration

open Sql

/-- Whether a request writes an entry of the log. -/
def Request.isEntry : Request → Bool
  | .control .insertLog _ | .control .updateLog _ => true
  | _ => false

/-- Whether a request writes an entry of the log or moves one. -/
def Request.writesLog : Request → Bool
  | .control .updateRunOrder _ => true
  | request => request.isEntry

namespace Database

/-- The rows of the log; none where there is no log. -/
def logRows (schema : String) (data : Data) : List (List Cell) :=
  (data.rows? (ControlTable.log.inSchema schema)).getD []

def hasLog (schema : String) (data : Data) : Bool :=
  (data.rows? (ControlTable.log.inSchema schema)).isSome

variable {schema : String} {data data' : Data}

theorem log_ne_lock (schema : String) :
    ControlTable.log.inSchema schema ≠ ControlTable.lock.inSchema schema := by
  intro h
  have hname : ControlTable.log.name = ControlTable.lock.name := congrArg TableRef.name h
  exact absurd hname (by decide)

theorem logRows_of_rows? {rows : List (List Cell)}
    (h : data.rows? (ControlTable.log.inSchema schema) = some rows) :
    logRows schema data = rows := by
  rw [logRows, h, Option.getD_some]

theorem rows?_log (h : hasLog schema data = true) :
    data.rows? (ControlTable.log.inSchema schema) = some (logRows schema data) := by
  rw [hasLog, Option.isSome_iff_exists] at h
  obtain ⟨rows, hrows⟩ := h
  rw [logRows_of_rows? hrows, hrows]

theorem logRows_put_log (rows : List (List Cell)) :
    logRows schema (data.put (ControlTable.log.inSchema schema) rows) = rows := by
  rw [logRows, Data.rows?_put_self, Option.getD_some]

theorem hasLog_put_log (rows : List (List Cell)) :
    hasLog schema (data.put (ControlTable.log.inSchema schema) rows) = true := by
  rw [hasLog, Data.rows?_put_self, Option.isSome_some]

def SameLog (schema : String) (data data' : Data) : Prop :=
  logRows schema data' = logRows schema data ∧
    (hasLog schema data = true → hasLog schema data' = true)

theorem SameLog.refl (data : Data) : SameLog schema data data := ⟨rfl, id⟩

theorem SameLog.trans {data'' : Data} (h : SameLog schema data data')
    (h' : SameLog schema data' data'') : SameLog schema data data'' :=
  ⟨h'.1.trans h.1, fun hl => h'.2 (h.2 hl)⟩

theorem sameLog_of_rows? (h : data'.rows? (ControlTable.log.inSchema schema) =
    data.rows? (ControlTable.log.inSchema schema)) : SameLog schema data data' := by
  refine ⟨by rw [logRows, h, logRows], fun hl => ?_⟩
  rw [hasLog, h]
  exact hl

theorem sameLog_put_lock (rows : List (List Cell)) :
    SameLog schema data (data.put (ControlTable.lock.inSchema schema) rows) :=
  sameLog_of_rows? (Data.rows?_put_of_ne data (log_ne_lock schema) rows)

theorem sameLog_ensure_log :
    SameLog schema data (data.ensure (ControlTable.log.inSchema schema)) := by
  rw [Data.ensure]
  split
  · exact .refl data
  · rename_i hnone
    refine ⟨?_, fun _ => hasLog_put_log []⟩
    rw [logRows_put_log, logRows, hnone, Option.getD_none]

theorem sameLog_ensure_lock :
    SameLog schema data (data.ensure (ControlTable.lock.inSchema schema)) := by
  rw [Data.ensure]
  split
  · exact .refl data
  · exact sameLog_put_lock []

theorem sameLog_seed_lock (row : List Cell) :
    SameLog schema data (data.seed (ControlTable.lock.inSchema schema) row) := by
  rw [Data.seed.eq_def]
  split
  · exact .refl data
  · exact sameLog_put_lock _

theorem sameLog_createControlTables : SameLog schema data (data.createControlTables schema) :=
  (sameLog_ensure_log.trans sameLog_ensure_lock).trans (sameLog_seed_lock _)

/-- The log's rows after some of them were moved to another run order. -/
def Moved (schema : String) (data data' : Data) : Prop :=
  ∃ key cell, logRows schema data' =
      (logRows schema data).map (fun row => if Data.isLogRow key row then row.set 4 cell else row) ∧
    (hasLog schema data = true → hasLog schema data' = true)

/-- A request that does not write the log leaves it as it is. -/
theorem Effect.leavesLog {request : Request} {outcome : Outcome}
    (he : Effect schema data request data' outcome) (h : request.writesLog = false) :
    SameLog schema data data' := by
  cases he with
  | migration text outcome hsame => exact sameLog_of_rows? (hsame .log)
  | @control purpose cells _ _ hp =>
    cases purpose with
    | tableExists => cases hp; exact .refl data
    | createControlTables => cases hp; exact sameLog_createControlTables
    | isLocked =>
      obtain ⟨rows, -, hrows⟩ := performOn_of_perform rfl hp
      cases hrows
      exact .refl data
    | acquireLock =>
      obtain ⟨rows, -, hrows⟩ := performOn_of_perform rfl hp
      cases hrows
      exact sameLog_put_lock _
    | releaseLock =>
      obtain ⟨rows, -, hrows⟩ := performOn_of_perform rfl hp
      cases hrows
      exact sameLog_put_lock _
    | selectLog =>
      obtain ⟨rows, -, hrows⟩ := performOn_of_perform rfl hp
      cases hrows
      exact .refl data
    | insertLog | updateLog | updateRunOrder => cases h

/-- A move changes the run order of the rows with its key. -/
theorem logRows_move {cells : List Value} {outcome : Outcome}
    (he : Effect schema data (.control .updateRunOrder cells) data' outcome) :
    logRows schema data' = (logRows schema data).map (fun row =>
        if Data.isLogRow (Data.parameter (cells.map Cell.ofValue) 1) row then
          row.set 4 (Data.parameter (cells.map Cell.ofValue) 0)
        else row) ∧
      hasLog schema data' = true := by
  cases he with
  | control hp =>
    obtain ⟨rows, hr, hrows⟩ := performOn_of_perform rfl hp
    cases hrows
    rw [logRows_of_rows? hr]
    exact ⟨logRows_put_log _, hasLog_put_log _⟩

/-- A request that writes no entry leaves the log as it is or moves rows of it. -/
theorem Effect.logRows_cases {request : Request} {outcome : Outcome}
    (he : Effect schema data request data' outcome) (h : request.isEntry = false) :
    SameLog schema data data' ∨ Moved schema data data' := by
  by_cases hmove : ∃ cells, request = .control .updateRunOrder cells
  · obtain ⟨cells, rfl⟩ := hmove
    obtain ⟨hrows, hlog⟩ := logRows_move he
    exact .inr ⟨_, _, hrows, fun _ => hlog⟩
  · refine .inl (he.leavesLog ?_)
    rw [Request.writesLog.eq_def]
    split
    · exact absurd ⟨_, rfl⟩ hmove
    · exact h

/-- What a failing batch leaves of the log is the log. -/
theorem Torn.sameLog {request : Request} (ht : Torn schema data request data')
    (h : request.isEntry = false) : SameLog schema data data' ∨ Moved schema data data' := by
  cases ht with
  | whole he => exact he.logRows_cases h
  | nothing => exact .inl (.refl data)
  | logOnly => exact .inl sameLog_ensure_log
  | withoutRow => exact .inl (sameLog_ensure_log.trans sameLog_ensure_lock)

theorem Torn.leavesLog {request : Request} (ht : Torn schema data request data')
    (h : request.writesLog = false) : SameLog schema data data' := by
  cases ht with
  | whole he => exact he.leavesLog h
  | nothing => exact .refl data
  | logOnly => exact sameLog_ensure_log
  | withoutRow => exact sameLog_ensure_log.trans sameLog_ensure_lock

/-- The row that an insert adds. -/
def insertedRow (data : Data) (cells : List Cell) : List Cell :=
  (List.range 6).map (Data.parameter cells) ++
    [Data.stamp (data.ticks + 1), Data.stamp (data.ticks + 1), Data.parameter cells 6]

theorem logRows_insert {cells : List Value} {outcome : Outcome}
    (he : Effect schema data (.control .insertLog cells) data' outcome) :
    logRows schema data' = logRows schema data ++ [insertedRow data (cells.map Cell.ofValue)] ∧
      hasLog schema data' = true := by
  cases he with
  | control hp =>
    obtain ⟨rows, hr, hrows⟩ := performOn_of_perform rfl hp
    simp only [Request.statement, Data.performOn] at hrows
    split at hrows
    · cases hrows
    · cases hrows
      rw [logRows_of_rows? hr]
      exact ⟨logRows_put_log (rows ++ [_]), hasLog_put_log (rows ++ [_])⟩

/-- The log takes an insert only where no row has the same key. -/
theorem free_of_insert {cells : List Value} {outcome : Outcome}
    (he : Effect schema data (.control .insertLog cells) data' outcome) :
    ∀ row ∈ logRows schema data,
      Data.hasKey (Data.parameter (cells.map Cell.ofValue) 0) row ≠ true := by
  cases he with
  | control hp =>
    obtain ⟨rows, hr, hrows⟩ := performOn_of_perform rfl hp
    simp only [Request.statement, Data.performOn] at hrows
    split at hrows
    · cases hrows
    · rename_i hfree
      rw [logRows_of_rows? hr]
      intro row hrow hkey
      exact hfree (List.any_eq_true.mpr ⟨row, hrow, hkey⟩)

/-- The log refuses an insert only for a row with the same key. -/
theorem insert_refused {cells : List Value} {message : String} (hl : hasLog schema data = true)
    (hr : data.perform ((Request.control .insertLog cells).statement schema)
      (cells.map Cell.ofValue) true = .error message) :
    ∃ row ∈ logRows schema data,
      Data.hasKey (Data.parameter (cells.map Cell.ofValue) 0) row = true := by
  rw [perform_on rfl (rows?_log hl)] at hr
  simp only [Request.statement, Data.performOn] at hr
  split at hr
  · rename_i hany
    exact List.any_eq_true.mp hany
  · cases hr

/-- An update changes the rows with its key. -/
theorem logRows_update {cells : List Value} {outcome : Outcome}
    (he : Effect schema data (.control .updateLog cells) data' outcome) :
    logRows schema data' = (logRows schema data).map (fun row =>
        if Data.isLogRow (Data.parameter (cells.map Cell.ofValue) 6) row then
          Data.updateRow (cells.map Cell.ofValue) (Data.stamp (data.ticks + 1)) row
        else row) ∧
      hasLog schema data' = true := by
  cases he with
  | control hp =>
    obtain ⟨rows, hr, hrows⟩ := performOn_of_perform rfl hp
    cases hrows
    rw [logRows_of_rows? hr]
    exact ⟨logRows_put_log _, hasLog_put_log _⟩

/-- No request takes the log away. -/
theorem Effect.hasLog {request : Request} {outcome : Outcome}
    (he : Effect schema data request data' outcome) (hl : hasLog schema data = true) :
    hasLog schema data' = true := by
  have htable : HasTable schema .log data := hl
  exact he.hasTable htable

theorem Torn.hasLog {request : Request} (ht : Torn schema data request data')
    (hl : hasLog schema data = true) : hasLog schema data' = true := by
  have htable : HasTable schema .log data := hl
  exact ht.hasTable htable

theorem update_not_refused {cells : List Value} {message : String}
    (hl : hasLog schema data = true) :
    data.perform ((Request.control .updateLog cells).statement schema) (cells.map Cell.ofValue)
      true ≠ .error message := by
  rw [perform_on rfl (rows?_log hl)]
  exact fun h => by cases h

/-- A query on the log gets the rows of the log. -/
theorem rows_load {cells : List Value} {outcome : Outcome}
    (he : Effect schema data (.control .selectLog cells) data' outcome) :
    outcome.rows.Perm (logRows schema data) ∧ data' = data ∧ hasLog schema data = true := by
  cases he with
  | control hp =>
    obtain ⟨rows, hr, hrows⟩ := performOn_of_perform rfl hp
    cases hrows
    rw [logRows_of_rows? hr, hasLog, hr]
    exact ⟨List.mergeSort_perm _ _, rfl, rfl⟩

end Database
end SchemaMigration
