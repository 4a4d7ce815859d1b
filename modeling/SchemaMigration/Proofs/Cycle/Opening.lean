import SchemaMigration.Proofs.Cycle.Keeping
import SchemaMigration.Proofs.Cycle.Securing
import SchemaMigration.Proofs.Cycle.Standing

/-!
# SchemaMigration.Proofs.Cycle.Opening

A cycle in two halves, and what the first half does.

* `Engine.opening` : the tables, the lock, the order and the renumbering.
* `Engine.closing` : the migrations, and the release of the lock.
* `planIn`, `foresee` : what is planned for a graph on some contents, or why nothing can be.
* `foresee_of_readable` : a log that can be read and is in order can be planned for.
* `OldOrMoved` : the log as it was, or renumbered.
* `Opened` : what the first half leaves when it succeeds.

`Engine.apply_eq_opening_closing` puts the halves together, `Engine.serving_opening` is the
specification of the first one.
-/

namespace SchemaMigration

open Sql Database Attempt

/-- What is planned for a graph on the log that contents hold, or why nothing can be. -/
def planIn (schema : String) (graph : MigrationGraph) (data : Data) :
    Except CycleError (List Planned) :=
  match Store.readIn schema data with
  | .error e => .error e
  | .ok log => validateOrder graph.orderedMigrations log

/-- What is planned for a graph on some contents, given their control tables. -/
def foresee (schema : String) (graph : MigrationGraph) (data : Data) :
    Except CycleError (List Planned) :=
  match presence schema data with
  | .error e => .error e
  | .ok _ => planIn schema graph data

theorem planIn_congr {schema : String} {graph : MigrationGraph} {data data' : Data}
    (h : logRows schema data' = logRows schema data) :
    planIn schema graph data' = planIn schema graph data := by
  rw [planIn, planIn, Store.readIn, Store.readIn, h]

theorem exists_readIn_of_foresee {schema : String} {graph : MigrationGraph} {data : Data}
    {planned : List Planned} (h : foresee schema graph data = .ok planned) :
    ∃ log, Store.readIn schema data = .ok log := by
  cases hread : Store.readIn schema data with
  | ok log => exact ⟨log, rfl⟩
  | error e =>
    rw [foresee, planIn, hread] at h
    split at h <;> cases h

/-- A plan can be made for entries that can be read, if they come in the order of the graph. -/
theorem foresee_of_readable {schema : String} {graph : MigrationGraph} {data : Data}
    {entries : List StoredEntry} {present : Bool}
    (hrows : logRows schema data = entries.map StoredEntry.cells)
    (hd : (entries.map (·.name)).Nodup) (hread : ∀ e ∈ entries, Readable e)
    (horder : InOrder (texts graph.orderedMigrations) entries)
    (hpresent : presence schema data = .ok present) :
    foresee schema graph data = .ok (planOf entries graph.orderedMigrations) := by
  obtain ⟨log, hlog⟩ := (exists_readIn_iff hrows).mpr hread
  rw [foresee, hpresent, planIn, hlog]
  exact (validateOrder_eq_ok_iff (mirrors_of_readIn hrows hd hlog)).mpr ⟨horder, rfl⟩

theorem Carries.presence {schema : String} {entries : List StoredEntry} {data : Data}
    (h : Carries schema entries data) : presence schema data = .ok true := by
  rw [SchemaMigration.presence, h.log, h.lock]
  rfl

namespace Engine

/-- Under the lock, until the log is renumbered. -/
def prepare (graph : MigrationGraph) : Attempt (Log × List Planned) := do
  let log ← Store.load
  let planned ← ofResult (validateOrder graph.orderedMigrations log)
  let log ← renumber log planned
  pure (log, planned)

/-- Under the lock, once the log is renumbered. -/
def finish (engine : Engine) (prepared : Log × List Planned) : Attempt Report := do
  let progress ← engine.processAll { log := prepared.1 } prepared.2
  match progress.log.unapplied with
  | [] => pure progress.report
  | names => throw (.deletedMigrations names)

def secured (engine : Engine) (graph : MigrationGraph) : Attempt (Log × List Planned) := do
  Lock.acquire engine.schema engine.lock
  match ← outcome (prepare graph) with
  | .ok prepared => pure prepared
  | .error e =>
    let _ ← outcome Lock.release
    throw e

def opening (engine : Engine) (graph : MigrationGraph) : Attempt (Log × List Planned) := do
  if ← engine.controlTablesPresent then engine.secured graph
  else
    batch .direct (.control .createControlTables [])
    engine.secured graph

def closing (engine : Engine) (prepared : Log × List Planned) : Attempt Report := do
  let result ← outcome (engine.finish prepared)
  let released ← outcome Lock.release
  ofResult (verdict result released)

theorem outcome_bind {α β : Type} (attempt : Attempt α) (f : α → Attempt β) :
    outcome (attempt >>= f) = (do
      match ← outcome attempt with
      | .ok a => outcome (f a)
      | .error e => pure (.error e)) := by
  refine ExceptT.ext ?_
  rw [outcome, ExceptT.run_lift, ExceptT.run_bind, ExceptT.run_bind, outcome, ExceptT.run_lift,
    map_bind, bind_map_left]
  refine bind_congr fun r => ?_
  cases r with
  | ok a => rfl
  | error e => rfl

theorem bracket_eq_secured_closing (engine : Engine) (graph : MigrationGraph) :
    engine.bracket graph = engine.secured graph >>= engine.closing := by
  have hlocked : engine.applyLocked graph = prepare graph >>= engine.finish := by
    rw [applyLocked, prepare, bind_assoc]
    refine bind_congr fun log => ?_
    rw [bind_assoc]
    refine bind_congr fun planned => ?_
    rw [bind_assoc]
    rfl
  rw [bracket, secured, bind_assoc, hlocked, outcome_bind]
  refine bind_congr fun _ => ?_
  rw [bind_assoc, bind_assoc]
  refine bind_congr fun r => ?_
  cases r with
  | ok prepared => rfl
  | error e =>
    simp only [pure_bind, bind_assoc]
    rfl

theorem apply_eq_opening_closing (engine : Engine) (graph : MigrationGraph) :
    engine.apply graph = engine.opening graph >>= engine.closing := by
  rw [apply_eq, opening, bind_assoc]
  refine bind_congr fun present => ?_
  rw [bracket_eq_secured_closing]
  cases present with
  | true => rfl
  | false =>
    simp only [Bool.false_eq_true, if_false]
    rw [bind_assoc]

end Engine

/-! ## The first half -/

variable {schema : String} {mayFail : Call → Prop} {guard : Guard} {data : Data}
  {sent : List Sent} {entries : List StoredEntry} {graph : MigrationGraph}

/-- What is asked of a guard in the first half of a cycle. -/
structure Guard.Opens (guard : Guard) (names : List String) (entries : List StoredEntry) :
    Prop where
  holds : guard.holds (entries.map StoredEntry.cells)
  placed : InOrder names entries → guard.holds ((inPlace names entries).map StoredEntry.cells)
  moves : InOrder names entries → guard.moves (entries.map StoredEntry.cells)
    ((inPlace names entries).map StoredEntry.cells)

def OldOrMoved (schema : String) (names : List String) (entries : List StoredEntry)
    (data : Data) : Prop :=
  logRows schema data = entries.map StoredEntry.cells ∨
    InOrder names entries ∧ logRows schema data = (inPlace names entries).map StoredEntry.cells

/-- What the first half of a cycle leaves: the log renumbered, the entries compared with the
migrations, and none of them met yet. -/
structure Opened (schema : String) (graph : MigrationGraph) (entries : List StoredEntry)
    (sent : List Sent) (prepared : Log × List Planned) (t : Watched) : Prop where
  state : t = ⟨{ data := t.service.data }, sent⟩
  inOrder : InOrder (texts graph.orderedMigrations) entries
  carries : Carries schema (inPlace (texts graph.orderedMigrations) entries) t.service.data
  planned : prepared.2 = planOf entries graph.orderedMigrations
  pending : prepared.1.Pending (texts graph.orderedMigrations)

theorem OldOrMoved.of_beside {names : List String} {data' : Data}
    (h : OldOrMoved schema names entries data) (hb : Beside schema data data') :
    OldOrMoved schema names entries data' := by
  rw [OldOrMoved, hb.logRows]
  exact h

theorem OldOrMoved.holds {names : List String} (h : OldOrMoved schema names entries data)
    (hguard : guard.Opens names entries) : guard.holds (logRows schema data) := by
  rcases h with hrows | ⟨horder, hrows⟩
  · exact hrows ▸ hguard.holds
  · exact hrows ▸ hguard.placed horder

theorem Carries.beside {data' : Data} (h : Carries schema entries data)
    (hb : Beside schema data data') : Carries schema entries data' :=
  ⟨by rw [hb.log, h.log], hb.lock h.lock⟩

namespace Store

theorem serving_load (hlog : hasLog schema data = true)
    (hholds : guard.holds (logRows schema data)) :
    Meets (serving schema mayFail guard)
      (fun log t => t = ⟨{ data }, sent⟩ ∧ readIn schema data = .ok log)
      (fun e t => t = ⟨{ data }, sent⟩ ∧ (Fallible mayFail ∨ readIn schema data = .error e))
      load ⟨{ data }, sent⟩ := by
  let rows := (logRows schema data).mergeSort fun a b => Data.runOrder a ≤ Data.runOrder b
  have hread : data.control schema .selectLog [] = .ok (data, { rows }) :=
    perform_on rfl (rows?_log hlog) _ _
  refine meets_bind.mpr (meets_query_control rfl hread hholds ?_ fun hf _ => ⟨rfl, .inl ⟨_, hf⟩⟩)
  refine meets_bind.mpr (meets_ofResult.mpr ?_)
  rw [readIn]
  cases readEntries _ with
  | error e => exact ⟨rfl, .inr rfl⟩
  | ok read => exact ⟨rfl, rfl⟩

/-- Entries moved one after the other. -/
def moved (moves : List (String × Int)) (entries : List StoredEntry) : List StoredEntry :=
  moves.foldl (fun entries (name, order) => moveEntry name order entries) entries

theorem serving_moveEach {draft : Data} (moves : List (String × Int))
    (hdraft : Carries schema entries draft) (hholds : guard.holds (logRows schema data)) :
    Meets (serving schema mayFail guard)
      (fun _ t => ∃ draft', t = ⟨{ data, draft := some draft' }, sent⟩ ∧
        Carries schema (moved moves entries) draft')
      (fun _ t => (∃ draft', t = ⟨{ data, draft := some draft' }, sent⟩) ∧ Fallible mayFail)
      (moveEach moves) ⟨{ data, draft := some draft }, sent⟩ := by
  induction moves generalizing entries draft with
  | nil => exact ⟨draft, rfl, hdraft⟩
  | cons move rest ih =>
    obtain ⟨draft', outcome, hmove, hdraft'⟩ := hdraft.move move.1 move.2
    exact meets_bind.mpr (meets_execute_control rfl hmove hholds (guard.refl _) (ih hdraft')
      fun hf _ => ⟨⟨⟨draft, rfl⟩, _, hf⟩, ⟨draft', rfl⟩, _, hf⟩)

theorem serving_renumber (moves : List (String × Int)) (hdata : Carries schema entries data)
    (hholds : guard.holds (entries.map StoredEntry.cells))
    (hmoves : guard.moves (entries.map StoredEntry.cells)
      ((moved moves entries).map StoredEntry.cells)) :
    Meets (serving schema mayFail guard)
      (fun _ t => ∃ data', t = ⟨{ data := data' }, sent⟩ ∧
        Carries schema (moved moves entries) data')
      (fun _ t => (∃ data', t = ⟨{ data := data' }, sent⟩ ∧
        (Carries schema entries data' ∨ Carries schema (moved moves entries) data')) ∧
          Fallible mayFail)
      (renumber moves) ⟨{ data }, sent⟩ := by
  rw [renumber]
  split
  · rename_i hnone
    rw [List.isEmpty_iff.mp hnone]
    exact ⟨data, rfl, hdata⟩
  rw [← hdata.logRows] at hholds
  let good : Ending × Unit → Data → List Sent → Prop := fun r draft sent' =>
    r.1 = .commit ∧ sent' = sent ∧ Carries schema (moved moves entries) draft
  let bad : CycleError → List Sent → Prop := fun _ sent' => sent' = sent ∧ Fallible mayFail
  refine meets_transaction good bad hholds
    (fun hf _ => ⟨⟨data, rfl, .inl hdata⟩, _, hf⟩) ?_ ?_ ?_ ?_
  · refine meets_bind.mpr ((serving_moveEach moves hdata hholds).mono ?_ ?_)
    · rintro _ t ⟨draft, rfl, hdraft⟩
      exact ⟨draft, sent, rfl, rfl, rfl, hdraft⟩
    · rintro e t ⟨⟨draft, rfl⟩, hf⟩
      exact ⟨draft, sent, rfl, rfl, hf⟩
  · rintro _ draft sent' ⟨-, rfl, hdraft⟩
    rw [hdata.logRows, hdraft.logRows]
    exact ⟨hmoves, ⟨draft, rfl, hdraft⟩, fun hf _ =>
      ⟨⟨⟨data, rfl, .inl hdata⟩, _, hf⟩, ⟨draft, rfl, .inr hdraft⟩, _, hf⟩⟩
  · rintro _ draft sent' ⟨hending, -⟩
    cases hending
  · rintro e sent' ⟨rfl, hf⟩
    exact ⟨⟨data, rfl, .inl hdata⟩, hf⟩

end Store

namespace Engine

theorem serving_prepare (hdata : Carries schema entries data)
    (hd : (entries.map (·.name)).Nodup) (hn : (texts graph.orderedMigrations).Nodup)
    (hguard : guard.Opens (texts graph.orderedMigrations) entries) :
    Meets (serving schema mayFail guard)
      (fun prepared t => Opened schema graph entries sent prepared t ∧
        planIn schema graph data = .ok prepared.2)
      (fun e t => (∃ data', t = ⟨{ data := data' }, sent⟩ ∧
          (data'.rows? (ControlTable.lock.inSchema schema)).isSome = true ∧
          OldOrMoved schema (texts graph.orderedMigrations) entries data') ∧
        (Fallible mayFail ∨ planIn schema graph data = .error e))
      (prepare graph) ⟨{ data }, sent⟩ := by
  have hold : OldOrMoved schema (texts graph.orderedMigrations) entries data := .inl hdata.logRows
  refine meets_bind.mpr ((Store.serving_load hdata.hasLog (hold.holds hguard)).mono ?_ ?_)
  · rintro log t ⟨rfl, hread⟩
    have hmirror : log.Mirrors entries := mirrors_of_readIn hdata.logRows hd hread
    have hplan : planIn schema graph data = validateOrder graph.orderedMigrations log := by
      rw [planIn, hread]
    refine meets_bind.mpr (meets_ofResult.mpr ?_)
    cases hvalid : validateOrder graph.orderedMigrations log with
    | error e => exact ⟨⟨data, rfl, hdata.lock, hold⟩, .inr (hplan.trans hvalid)⟩
    | ok planned =>
      obtain ⟨horder, hplanned⟩ := (validateOrder_eq_ok_iff hmirror).mp hvalid
      have hmoved : Store.moved (movesOf log planned) entries =
          inPlace (texts graph.orderedMigrations) entries := by
        rw [hplanned]
        exact foldl_movesOf hmirror hn horder
      have hpending := hmirror.pending (fun e he => horder.mem he)
      have hmoves := hguard.moves horder
      rw [← hmoved] at hmoves
      refine meets_bind.mpr (meets_bind.mpr
        ((Store.serving_renumber (movesOf log planned) hdata hguard.holds hmoves).mono ?_ ?_))
      · rintro _ t ⟨data', rfl, hdata'⟩
        rw [hmoved] at hdata'
        exact ⟨⟨rfl, horder, hdata', hplanned, hpending.foldl_setRunOrder _⟩, hplan.trans hvalid⟩
      · rintro e t ⟨⟨data', rfl, hdata'⟩, hf⟩
        rw [hmoved] at hdata'
        rcases hdata' with hdata' | hdata'
        · exact ⟨⟨data', rfl, hdata'.lock, .inl hdata'.logRows⟩, .inl hf⟩
        · exact ⟨⟨data', rfl, hdata'.lock, .inr ⟨horder, hdata'.logRows⟩⟩, .inl hf⟩
  · rintro e t ⟨rfl, hcause⟩
    refine ⟨⟨data, rfl, hdata.lock, hold⟩, hcause.imp_right fun hread => ?_⟩
    rw [planIn, hread]

variable {engine : Engine}

theorem serving_secured (hdata : Carries engine.schema entries data)
    (hd : (entries.map (·.name)).Nodup) (hn : (texts graph.orderedMigrations).Nodup)
    (hguard : guard.Opens (texts graph.orderedMigrations) entries) :
    Meets (serving engine.schema mayFail guard)
      (fun prepared t => Opened engine.schema graph entries sent prepared t ∧
        planIn engine.schema graph data = .ok prepared.2)
      (fun e t => (∃ data', t = ⟨{ data := data' }, sent⟩ ∧
          OldOrMoved engine.schema (texts graph.orderedMigrations) entries data') ∧
        (Blocked engine.schema mayFail data ∨ planIn engine.schema graph data = .error e))
      (engine.secured graph) ⟨{ data }, sent⟩ := by
  have hold : OldOrMoved engine.schema (texts graph.orderedMigrations) entries data :=
    .inl hdata.logRows
  refine meets_bind.mpr
    ((Lock.serving_acquire engine.lock hdata.lock (hold.holds hguard)).mono ?_ ?_)
  · rintro _ t ⟨locked, rfl, hbeside⟩
    refine meets_bind.mpr (meets_outcome.mpr
      ((serving_prepare (hdata.beside hbeside) hd hn hguard).mono ?_ ?_))
    · rintro prepared t ⟨hopened, hplan⟩
      exact ⟨hopened, (planIn_congr hbeside.logRows).symm.trans hplan⟩
    · rintro e t ⟨⟨data', rfl, hlock, hrows⟩, hcause⟩
      have hcause' : Blocked engine.schema mayFail data ∨
          planIn engine.schema graph data = .error e :=
        hcause.imp .inl fun hplan => (planIn_congr hbeside.logRows).symm.trans hplan
      refine meets_bind.mpr (meets_outcome.mpr
        ((Lock.serving_release hlock (hrows.holds hguard)).mono ?_ ?_))
      · rintro _ t ⟨data'', rfl, hreleased⟩
        exact ⟨⟨data'', rfl, hrows.of_beside hreleased⟩, hcause'⟩
      · rintro _ t ⟨data'', rfl, hreleased, -⟩
        exact ⟨⟨data'', rfl, hrows.of_beside hreleased⟩, hcause'⟩
  · rintro e t ⟨data', rfl, hbeside, hblocked⟩
    exact ⟨⟨data', rfl, hold.of_beside hbeside⟩, .inl hblocked⟩

/-- The first half of a cycle. Where it fails, a call can fail, a lock that exists is not clear, or
the contents do not allow a plan. -/
theorem serving_opening (htab : Tabular engine.schema data)
    (hn : (texts graph.orderedMigrations).Nodup)
    (hguard : guard.Opens (texts graph.orderedMigrations) (storedEntries engine.schema data)) :
    Meets (serving engine.schema mayFail guard)
      (fun prepared t =>
        Opened engine.schema graph (storedEntries engine.schema data) sent prepared t ∧
        foresee engine.schema graph data = .ok prepared.2)
      (fun e t => (∃ data', t = ⟨{ data := data' }, sent⟩ ∧ OldOrMoved engine.schema
          (texts graph.orderedMigrations) (storedEntries engine.schema data) data') ∧
        (Fallible mayFail ∨
          (presence engine.schema data = .ok true ∧ ¬ LockClear engine.schema data) ∨
          foresee engine.schema graph data = .error e))
      (engine.opening graph) ⟨{ data }, sent⟩ := by
  have hrows := map_cells_storedEntries htab.shape
  have hold : OldOrMoved engine.schema (texts graph.orderedMigrations)
      (storedEntries engine.schema data) data := .inl hrows
  refine meets_bind.mpr ((serving_controlTablesPresent (hold.holds hguard)).mono ?_ ?_)
  · rintro present t ⟨hpresent, rfl⟩
    have hforesee : foresee engine.schema graph data = planIn engine.schema graph data := by
      rw [foresee, hpresent]
    cases present with
    | true =>
      obtain ⟨hlog, hlock⟩ := presence_eq_ok_true hpresent
      have hdata : Carries engine.schema (storedEntries engine.schema data) data :=
        ⟨by rw [rows?_log hlog, hrows], hlock⟩
      refine (serving_secured hdata htab.distinct hn hguard).mono ?_ ?_
      · rintro prepared t ⟨hopened, hplan⟩
        exact ⟨hopened, hforesee.trans hplan⟩
      · rintro e t ⟨hstate, hcause⟩
        refine ⟨hstate, ?_⟩
        rcases hcause with (hf | hlocked) | hplan
        · exact .inl hf
        · exact .inr (.inl ⟨hpresent, hlocked⟩)
        · exact .inr (.inr (hforesee.trans hplan))
    | false =>
      obtain ⟨hlog, hlock⟩ := createControlTables_of_absent hpresent
      have hcreated : SameLog engine.schema data (data.createControlTables engine.schema) :=
        sameLog_createControlTables
      have hdata : Carries engine.schema (storedEntries engine.schema data)
          (data.createControlTables engine.schema) := by
        refine ⟨?_, by rw [hlock, Option.isSome_some]⟩
        rw [hlog, ← hrows, ← hcreated.1, logRows_of_rows? hlog]
      refine meets_bind.mpr (meets_batch_create (hold.holds hguard) ?_ ?_)
      · refine (serving_secured hdata htab.distinct hn hguard).mono ?_ ?_
        · rintro prepared t ⟨hopened, hplan⟩
          exact ⟨hopened, hforesee.trans ((planIn_congr hcreated.1).symm.trans hplan)⟩
        · rintro e t ⟨hstate, hcause⟩
          refine ⟨hstate, ?_⟩
          rcases hcause with (hf | hlocked) | hplan
          · exact .inl hf
          · exact absurd ⟨[], [], hlock⟩ hlocked
          · exact .inr (.inr (hforesee.trans ((planIn_congr hcreated.1).symm.trans hplan)))
      · intro hf data' hsame e
        exact ⟨⟨data', rfl, .inl (hsame.1.trans hrows)⟩, .inl ⟨_, hf⟩⟩
  · rintro e t ⟨rfl, hcause⟩
    refine ⟨⟨data, rfl, hold⟩, hcause.imp_right fun hpresent => .inr ?_⟩
    rw [foresee, hpresent]

end Engine
end SchemaMigration
