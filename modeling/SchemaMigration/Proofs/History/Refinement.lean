import SchemaMigration.Proofs.Database.Server
import SchemaMigration.Proofs.History.Represents
import SchemaMigration.Proofs.Ordering.Declaration

/-!
# SchemaMigration.Proofs.History.Refinement

The log in the database refines a map from names to entries.

* `LogOperation` : one change of the log, as it is made through the store (`LogOperation.attempt`)
  and as it is meant (`LogOperation.apply`).
* `Server.Logs` : a database whose log represents a map.
* `LogOperation.meets_attempt` : one change. It comes to pass, or it fails and leaves no trace.
* `Performed`, `Applied` : changes one after the other, in the database and on the map.
* `Server.loads_of_performed` : what is read after any changes is the map that they make.
-/

namespace SchemaMigration

open Sql Attempt

/-- The entry that the log holds of a migration which was first executed at a time. -/
def LogEntry.recorded (migration : Migration) (runOrder : Int64) (now : Option Instant) :
    LogEntry where
  name := migration.name.text
  filename := migration.filename
  author := migration.author
  modifier := migration.parameters.run
  runOrder := runOrder.toInt
  hash := migration.hash
  createdAt := now
  lastExecutedAt := now
  userParameters := some migration.userParameters.json
  applied := false

inductive LogOperation where
  | insert (migration : Migration) (runOrder : Int64)
  | update (migration : Migration) (runOrder : Int64)
  | renumber (moves : List (String × Int64))

namespace LogOperation

/-- The change in the database. -/
def attempt : LogOperation → Attempt Unit
  | insert migration runOrder => do
    let _ ← Store.insert migration runOrder.toInt
    pure ()
  | update migration runOrder => do
    let _ ← Store.update migration runOrder.toInt
    pure ()
  | renumber moves => Store.renumber (moves.map fun (name, order) => (name, order.toInt))

/-- The change of the map. An entry is not inserted over another one. -/
def apply (now : Option Instant) (map : LogMap) : LogOperation → Option LogMap
  | insert migration runOrder =>
    if (map migration.name.text).isSome then none
    else some (map.put (.recorded migration runOrder now))
  | update migration runOrder =>
    some (map.adjust migration.name.text fun old =>
      { LogEntry.recorded migration runOrder now with createdAt := old.createdAt })
  | renumber moves => some (map.renumber moves)

end LogOperation

/-- The log of a schema is declared as its creation says, and represents a map. -/
def Sql.Tables.Logs (schema : String) (map : LogMap) (tables : Tables) : Prop :=
  ∃ columns rows, readCreate? ((Dialect.builtin .duckdb).statement .createControlTables schema) =
      some (ControlTable.log.inSchema schema, columns) ∧
    tables (ControlTable.log.inSchema schema) = some ⟨columns, rows⟩ ∧ Represents rows map

/-- A database without an open transaction, whose log represents a map. -/
structure Server.Logs (schema : String) (map : LogMap) (s : Server) : Prop where
  closed : s.draft = none
  tables : s.tables.Logs schema map

theorem Sql.Tables.logs_iff {schema : String} {map : LogMap} {tables : Tables} :
    tables.Logs schema map ↔ ∃ rows,
      tables (ControlTable.log.inSchema schema) = some ⟨logDeclaration, rows⟩ ∧
        Represents rows map := by
  simp [Logs, readCreate?_createControlTables]

theorem Sql.Tables.logs_put {schema : String} {map : LogMap} {rows : List Record}
    (h : Represents rows map) (tables : Tables) :
    (tables.put (ControlTable.log.inSchema schema) ⟨logDeclaration, rows⟩).Logs schema map :=
  logs_iff.mpr ⟨rows, put_self _, h⟩

theorem holds_toInt (n : Int64) : IntegerType.big.holds n.toInt = true := by
  have hlow := n.le_toInt
  have hhigh := n.toInt_lt
  have hhalf : ((Nat.pow 2 (IntegerType.big.bits - 1) : Nat) : Int) = 2 ^ 63 := rfl
  simp only [IntegerType.holds, IntegerType.isSigned, if_true, hhalf, Bool.and_eq_true,
    decide_eq_true_eq]
  omega

/-! ## What the statements do to rows -/

/-- The cells by which an entry is inserted, in the order of the columns. -/
def LogEntry.insertCells (entry : LogEntry) (now : Cell) : List Cell :=
  [.text entry.name, .text entry.filename, .text entry.author, .text entry.modifier.text,
    .big entry.runOrder, .text entry.hash, now, now, Cell.ofValue entry.parametersCell]

/-- The cells by which an entry is updated, with its name at the end. -/
def LogEntry.updateCells (entry : LogEntry) (now : Cell) : List Cell :=
  [.text entry.filename, .text entry.author, .text entry.modifier.text, .big entry.runOrder,
    .text entry.hash, Cell.ofValue entry.parametersCell, now, .text entry.name]

theorem holdsEntry_inserted (migration : Migration) (runOrder : Int64) (now : Int) :
    HoldsEntry (Record.blank.assign (logColumns.zip
        ((LogEntry.ofMigration migration runOrder.toInt).insertCells
          (.timestamp .microsecond now))))
      (.recorded migration runOrder (Instant.ofMicros? now)) where
  name := rfl
  filename := rfl
  author := rfl
  modifier := rfl
  runOrder := rfl
  fits := holds_toInt runOrder
  hash := rfl
  createdAt := ⟨now, rfl, rfl⟩
  lastExecutedAt := ⟨now, rfl, rfl⟩
  userParameters := rfl
  applied := rfl

namespace HoldsEntry

variable {row : Record} {entry : LogEntry}

theorem updated (h : HoldsEntry row entry) {migration : Migration} (runOrder : Int64) (now : Int)
    (hname : entry.name = migration.name.text) :
    HoldsEntry (row.assign (["filename", "author", "run_modifier", "run_order", "hash",
        "user_params", "last_executed_at"].zip
          ((LogEntry.ofMigration migration runOrder.toInt).updateCells
            (.timestamp .microsecond now))))
      { LogEntry.recorded migration runOrder (Instant.ofMicros? now) with
        createdAt := entry.createdAt } where
  name := h.name.trans (congrArg Cell.text hname)
  filename := rfl
  author := rfl
  modifier := rfl
  runOrder := rfl
  fits := holds_toInt runOrder
  hash := rfl
  createdAt := h.createdAt
  lastExecutedAt := ⟨now, rfl, rfl⟩
  userParameters := rfl
  applied := rfl

theorem moved (h : HoldsEntry row entry) (runOrder : Int64) (cells : List Cell) :
    HoldsEntry (row.assign (["run_order"].zip (.big runOrder.toInt :: cells)))
      { entry with runOrder := runOrder.toInt } where
  name := h.name
  filename := h.filename
  author := h.author
  modifier := h.modifier
  runOrder := rfl
  fits := holds_toInt runOrder
  hash := h.hash
  createdAt := h.createdAt
  lastExecutedAt := h.lastExecutedAt
  userParameters := h.userParameters
  applied := h.applied

end HoldsEntry

/-! ## One change -/

namespace LogOperation

/-- No call failed, and the change has come to pass. -/
def Done (operation : LogOperation) (schema : String) (now : Int) (map : LogMap) (t : Server) :
    Prop :=
  t.failed = false ∧ ∃ map', operation.apply (Instant.ofMicros? now) map = some map' ∧
    t.Logs schema map'

/-- A call failed or the change was refused, and everything is as before. -/
def Undone (operation : LogOperation) (schema : String) (now : Int) (mayFail : Prop)
    (map : LogMap) (t : Server) : Prop :=
  (mayFail ∧ t.failed = true ∨
    t.failed = false ∧ operation.apply (Instant.ofMicros? now) map = none) ∧ t.Logs schema map

variable {schema : String} {now : Int} {mayFail : Prop} {map : LogMap} {s : Server}

theorem undone_failing (operation : LogOperation) (hs : s.Logs schema map) (hf : mayFail) :
    operation.Undone schema now mayFail map s.failing :=
  ⟨.inl ⟨hf, rfl⟩, hs.closed, hs.tables⟩

theorem meets_insert (hs : s.Logs schema map) (hcalm : s.failed = false) (migration : Migration)
    (runOrder : Int64) :
    Meets (Server.protocol schema now mayFail)
      (fun _ => (insert migration runOrder).Done schema now map)
      (fun _ => (insert migration runOrder).Undone schema now mayFail map)
      (insert migration runOrder).attempt s := by
  obtain ⟨rows, htable, hrows⟩ := Sql.Tables.logs_iff.mp hs.tables
  have hrow := holdsEntry_inserted migration runOrder now
  have hiff := hrows.valid_append_iff hrow
  refine meets_bind.mpr (meets_bind.mpr (Server.meets_execute rfl (read?_insertLog schema) htable
    rfl rfl (fun hvalid => ?_) (fun hinvalid _ => ?_) fun hf _ => undone_failing _ hs hf))
  · have hnew : map migration.name.text = none := hiff.mp hvalid
    refine ⟨hcalm, map.put (.recorded migration runOrder (Instant.ofMicros? now)), ?_, hs.closed,
      Sql.Tables.logs_put (hrows.append hrow hnew) _⟩
    rw [apply, hnew]
    rfl
  · refine ⟨.inr ⟨hcalm, ?_⟩, hs⟩
    rw [apply, if_pos]
    exact Option.isSome_iff_ne_none.mpr fun hnew => hinvalid (hiff.mpr hnew)

theorem meets_update (hs : s.Logs schema map) (hcalm : s.failed = false) (migration : Migration)
    (runOrder : Int64) :
    Meets (Server.protocol schema now mayFail)
      (fun _ => (update migration runOrder).Done schema now map)
      (fun _ => (update migration runOrder).Undone schema now mayFail map)
      (update migration runOrder).attempt s := by
  obtain ⟨rows, htable, hrows⟩ := Sql.Tables.logs_iff.mp hs.tables
  have hadjust := hrows.adjust migration.name.text
    (fun row entry hholds hname => hholds.updated runOrder now hname) fun entry _ => rfl
  refine meets_bind.mpr (meets_bind.mpr (Server.meets_execute rfl (read?_updateLog schema) htable
    rfl rfl (fun _ => ?_) (fun hinvalid => absurd hadjust.valid hinvalid)
    fun hf _ => undone_failing _ hs hf))
  exact ⟨hcalm, _, rfl, hs.closed, Sql.Tables.logs_put hadjust _⟩

theorem meets_moveEach {draft : Tables} (moves : List (String × Int64))
    (hclosed : s.draft = none) (hdraft : draft.Logs schema map) :
    Meets (Server.protocol schema now mayFail)
      (fun _ t => ∃ draft', t = { s with draft := some draft' } ∧
        draft'.Logs schema (map.renumber moves))
      (fun _ t => mayFail ∧ t.closed = s.failing)
      (Store.moveEach (moves.map fun (name, order) => (name, order.toInt)))
      { s with draft := some draft } := by
  induction moves generalizing map draft with
  | nil => exact ⟨draft, rfl, hdraft⟩
  | cons move rest ih =>
    obtain ⟨rows, htable, hrows⟩ := Sql.Tables.logs_iff.mp hdraft
    have hadjust := hrows.adjust move.1 (fun row entry hholds _ =>
      hholds.moved move.2 [.text move.1]) fun entry hname => hname
    refine meets_bind.mpr (Server.meets_execute rfl (read?_updateRunOrder schema) htable rfl rfl
      (fun _ => ih (Sql.Tables.logs_put hadjust draft))
      (fun hinvalid => absurd hadjust.valid hinvalid) fun hf _ => ⟨hf, ?_⟩)
    rw [Server.failing, Server.failing, Server.closed, hclosed]

theorem meets_renumber (hs : s.Logs schema map) (hcalm : s.failed = false)
    (moves : List (String × Int64)) :
    Meets (Server.protocol schema now mayFail)
      (fun _ => (renumber moves).Done schema now map)
      (fun _ => (renumber moves).Undone schema now mayFail map)
      (renumber moves).attempt s := by
  rw [attempt, Store.renumber]
  split
  · rename_i hnone
    have hmoves : moves = [] := by simpa using hnone
    subst hmoves
    exact ⟨hcalm, map, rfl, hs⟩
  · refine (Server.meets_inTransaction hs.closed ((meets_moveEach moves hs.closed hs.tables).mono
      (fun _ _ ht => ht) fun _ _ ht => ⟨ht.2, undone_failing _ hs ht.1⟩)
      fun hf _ => undone_failing _ hs hf).mono ?_ fun _ _ ht => ht
    rintro _ t ⟨tables, rfl, htables⟩
    exact ⟨hcalm, _, rfl, hs.closed, htables⟩

/-- A change comes to pass, unless it is refused or a call fails, and then nothing changes. -/
theorem meets_attempt (operation : LogOperation) (hs : s.Logs schema map)
    (hcalm : s.failed = false) :
    Meets (Server.protocol schema now mayFail) (fun _ => operation.Done schema now map)
      (fun _ => operation.Undone schema now mayFail map) operation.attempt s := by
  cases operation with
  | insert migration runOrder => exact meets_insert hs hcalm migration runOrder
  | update migration runOrder => exact meets_update hs hcalm migration runOrder
  | renumber moves => exact meets_renumber hs hcalm moves

end LogOperation

/-! ## Changes one after the other -/

/-- How a change ended: whether it succeeded, and whether a call failed on the way. -/
structure LogOutcome where
  succeeded : Bool
  failed : Bool
deriving DecidableEq, Repr

/-- A change and the time at which it is made. -/
structure LogStep where
  operation : LogOperation
  now : Int

/-- What a step makes of a map, given how it ended. -/
inductive LogStep.Changes (step : LogStep) (map : LogMap) : LogOutcome → LogMap → Prop where
  | done {map' : LogMap}
      (h : step.operation.apply (Instant.ofMicros? step.now) map = some map') :
      Changes step map { succeeded := true, failed := false } map'
  | refused (h : step.operation.apply (Instant.ofMicros? step.now) map = none) :
      Changes step map { succeeded := false, failed := false } map
  | failed : Changes step map { succeeded := false, failed := true } map

/-- The map after some steps. -/
inductive Applied : LogMap → List LogStep → List LogOutcome → LogMap → Prop where
  | nil (map : LogMap) : Applied map [] [] map
  | cons {step : LogStep} {steps : List LogStep} {outcome : LogOutcome}
      {outcomes : List LogOutcome} {map map' final : LogMap} (h : step.Changes map outcome map')
      (hr : Applied map' steps outcomes final) :
      Applied map (step :: steps) (outcome :: outcomes) final

/-- Steps that are taken in a database, each to its end. Any of their calls may fail. -/
inductive Performed (schema : String) :
    Server → List LogStep → List LogOutcome → Server → Prop where
  | nil (s : Server) : Performed schema s [] [] s
  | cons {step : LogStep} {steps : List LogStep} {outcomes : List LogOutcome} {s t u : Server}
      {result : Except CycleError Unit}
      (h : Session.Runs (Server.Answers schema step.now True) step.operation.attempt.run s.calm
        (some result) t)
      (hr : Performed schema t steps outcomes u) :
      Performed schema s (step :: steps) (⟨result.isOk, t.failed⟩ :: outcomes) u

/-- The log is read as a map, unless the query fails. -/
structure Server.Loads (schema : String) (map : LogMap) (s : Server) : Prop where
  reads : ∀ now mayFail log t,
    Session.Runs (Server.Answers schema now mayFail) Store.load.run s.calm (some (.ok log)) t →
      ∀ name, log.get? name = map name
  fails : ∀ now mayFail e t,
    Session.Runs (Server.Answers schema now mayFail) Store.load.run s.calm (some (.error e)) t →
      mayFail ∧ t.failed = true
  returns : ∀ now mayFail, ∃ log t,
    Session.Runs (Server.Answers schema now mayFail) Store.load.run s.calm (some (.ok log)) t

variable {schema : String} {map : LogMap} {s t : Server}

theorem Server.Logs.calm (hs : s.Logs schema map) : s.calm.Logs schema map :=
  ⟨hs.closed, hs.tables⟩

/-- What an ended change leaves. -/
theorem LogStep.changes_of_ends {step : LogStep} {mayFail : Prop}
    {result : Except CycleError Unit}
    (h : Ends (fun _ => step.operation.Done schema step.now map)
      (fun _ => step.operation.Undone schema step.now mayFail map) result t) :
    (∃ map', step.Changes map ⟨result.isOk, t.failed⟩ map' ∧ t.Logs schema map') ∧
      (t.failed = true → mayFail) := by
  cases result with
  | ok _ =>
    obtain ⟨hcalm, map', happly, ht⟩ := h
    rw [hcalm]
    exact ⟨⟨map', .done happly, ht⟩, Bool.noConfusion⟩
  | error e =>
    obtain ⟨⟨hf, hfailed⟩ | ⟨hcalm, hnone⟩, ht⟩ := h
    · rw [hfailed]
      exact ⟨⟨map, .failed, ht⟩, fun _ => hf⟩
    · rw [hcalm]
      exact ⟨⟨map, .refused hnone, ht⟩, Bool.noConfusion⟩

/-- Any steps can be taken, and no call has to fail. -/
theorem exists_performed (hs : s.Logs schema map) (steps : List LogStep) :
    ∃ outcomes t, Performed schema s steps outcomes t ∧
      ∀ outcome ∈ outcomes, outcome.failed = false := by
  induction steps generalizing s map with
  | nil => exact ⟨[], s, .nil s, by simp⟩
  | cons step rest ih =>
    have hmeets : Meets (Server.protocol schema step.now False) _ _ _ _ :=
      step.operation.meets_attempt hs.calm rfl
    obtain ⟨result, t, hrun, hend⟩ := Session.Meets.completes hmeets fun _ _ h => h
    obtain ⟨⟨map', -, ht⟩, hcalm⟩ := LogStep.changes_of_ends hend
    obtain ⟨outcomes, u, hrest, hnone⟩ := ih ht
    refine ⟨_, u, .cons (hrun.mono fun _ _ _ _ h => h.mono False.elim) hrest, ?_⟩
    exact List.forall_mem_cons.mpr ⟨Bool.eq_false_iff.mpr hcalm, hnone⟩

theorem Performed.exists_applied {steps : List LogStep} {outcomes : List LogOutcome}
    (h : Performed schema s steps outcomes t) (hs : s.Logs schema map) :
    ∃ final, Applied map steps outcomes final ∧ t.Logs schema final := by
  induction h generalizing map with
  | nil s => exact ⟨map, .nil map, hs⟩
  | @cons step _ _ _ _ _ _ hrun _ ih =>
    obtain ⟨⟨map', hchanges, ht⟩, -⟩ :=
      LogStep.changes_of_ends ((step.operation.meets_attempt hs.calm rfl).of_runs hrun)
    obtain ⟨final, happlied, hfinal⟩ := ih ht
    exact ⟨final, .cons hchanges happlied, hfinal⟩

theorem Server.Logs.meets_load (hs : s.Logs schema map) {now : Int} {mayFail : Prop} :
    Meets (Server.protocol schema now mayFail) (fun log _ => ∀ name, log.get? name = map name)
      (fun _ t => mayFail ∧ t.failed = true) Store.load s := by
  obtain ⟨rows, htable, hrows⟩ := Sql.Tables.logs_iff.mp hs.tables
  refine meets_bind.mpr (Server.meets_query rfl rfl (read?_selectLog schema) htable
    (fun shown hperm => ?_) fun hf _ => ⟨hf, rfl⟩)
  obtain ⟨entries, hread, hget⟩ := (hrows.perm hperm).exists_readEntries
  refine meets_bind.mpr (meets_ofResult.mpr ?_)
  rw [hread]
  exact hget

theorem Server.Logs.loads (hs : s.Logs schema map) : s.Loads schema map where
  reads _ _ _ _ h := hs.calm.meets_load.of_runs h
  fails _ _ _ _ h := hs.calm.meets_load.of_runs h
  returns now mayFail := by
    have hmeets : Meets (Server.protocol schema now False) _ _ _ _ := hs.calm.meets_load
    obtain ⟨result, t, hrun, hend⟩ := Session.Meets.completes hmeets fun _ _ h => h
    cases result with
    | ok log => exact ⟨log, t, hrun.mono fun _ _ _ _ h => h.mono False.elim⟩
    | error e => exact hend.1.elim

/-- If no call fails, a change is passed over only where it is refused. -/
theorem Applied.eq_foldl {steps : List LogStep} {outcomes : List LogOutcome} {final : LogMap}
    (h : Applied map steps outcomes final) (hcalm : ∀ outcome ∈ outcomes, outcome.failed = false) :
    final = steps.foldl (fun map step =>
      (step.operation.apply (Instant.ofMicros? step.now) map).getD map) map := by
  induction h with
  | nil map => rfl
  | cons hchanges _ ih =>
    obtain ⟨hfirst, hrest⟩ := List.forall_mem_cons.mp hcalm
    rw [List.foldl_cons]
    cases hchanges with
    | done happly => rw [happly, Option.getD_some, ih hrest]
    | refused happly => rw [happly, Option.getD_none, ih hrest]
    | failed => cases hfirst

/-- A database in which the log was just created. -/
def Server.fresh (schema : String) : Server where
  tables ref := if ref = ControlTable.log.inSchema schema then some ⟨logDeclaration, []⟩ else none

theorem Server.logs_fresh (schema : String) : (fresh schema).Logs schema .empty :=
  ⟨rfl, Sql.Tables.logs_iff.mpr ⟨[], if_pos rfl, represents_empty⟩⟩

def ledgerMigration : Migration := .bare ⟨"ledger", by decide⟩ 0 [] []

/-- An entry is inserted, inserted again, updated and moved. -/
def ledgerSteps : List LogStep :=
  [⟨.insert ledgerMigration 0, 1000000⟩, ⟨.insert ledgerMigration 1, 2000000⟩,
    ⟨.update { ledgerMigration with author := "bob" } 4, 3000000⟩,
    ⟨.renumber [("ledger", 3)], 4000000⟩]

/-- The log in the database refines a map from names to entries: any changes can be made, and
after them, whichever of their calls failed, the log is read as the map that they make. -/
theorem Server.loads_of_performed (hs : s.Logs schema map) (steps : List LogStep) :
    (∃ outcomes t, Performed schema s steps outcomes t ∧
        ∀ outcome ∈ outcomes, outcome.failed = false) ∧
      ∀ outcomes t, Performed schema s steps outcomes t →
        ∃ final, Applied map steps outcomes final ∧ t.Loads schema final := by
  refine ⟨exists_performed hs steps, fun outcomes t h => ?_⟩
  obtain ⟨final, happlied, ht⟩ := h.exists_applied hs
  exact ⟨final, happlied, ht.loads⟩

theorem Server.loads_of_performed_ledger : ∃ outcomes t final,
    Performed "main" (fresh "main") ledgerSteps outcomes t ∧ t.Loads "main" final ∧
      final "ledger" = some {
        name := "ledger", filename := "m.sql", author := "bob", modifier := .once, runOrder := 3,
        hash := ledgerMigration.hash, createdAt := some ⟨1, 0⟩, lastExecutedAt := some ⟨3, 0⟩,
        userParameters := some "\x7b\x7d" } := by
  obtain ⟨⟨outcomes, t, hperformed, hcalm⟩, hall⟩ :=
    loads_of_performed (logs_fresh "main") ledgerSteps
  obtain ⟨final, happlied, hloads⟩ := hall outcomes t hperformed
  refine ⟨outcomes, t, final, hperformed, hloads, ?_⟩
  rw [happlied.eq_foldl hcalm]
  rfl

end SchemaMigration
