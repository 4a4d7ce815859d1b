import SchemaMigration.Proofs.Cycle.Enactment

/-!
# SchemaMigration.Proofs.Cycle.Prediction

A plan, and the cycle that is run after it.

* `Foretells` : the lines of a plan agree with a report.
* `Engine.unchanged_of_plan` : a plan changes nothing, wherever it stops.
* `Engine.serving_plan` : a plan is the prognosis, or a call failed.
* `Ran.foretells` : what the lines say of a cycle that succeeds.

`plan_predicts_apply` : a plan foretells the report of a cycle, and its error.
-/

namespace SchemaMigration

open Sql Database Attempt

/-- The lines have the migrations of a graph in its order and at their positions. Those to be
skipped are the ones that were skipped, and those to be executed were executed or failed, in the
same order. -/
structure Foretells (graph : MigrationGraph) (lines : List PlanEntry) (report : Report) : Prop where
  names : lines.map (·.name) = graph.orderedNames
  orders : lines.map (·.actualOrder) = List.range lines.length
  skip : (lines.filter (·.decision = .skip)).map (·.name) = report.skipped
  execute : ((lines.filter (·.decision = .execute)).map (·.name)).Perm
    (report.executed ++ report.failed.map (·.name))
  executed : report.executed.Sublist ((lines.filter (·.decision = .execute)).map (·.name))
  failed : (report.failed.map (·.name)).Sublist
    ((lines.filter (·.decision = .execute)).map (·.name))

variable {mayFail : Call → Prop} {guard : Guard} {graph : MigrationGraph} {engine : Engine}
  {data : Data} {sent : List Sent} {schema : String}

/-! ## A plan changes nothing -/

/-- A session in which nothing has changed since the start. -/
def resting (schema : String) (mayFail : Call → Prop) (start : Watched) : Protocol Watched where
  allows w _ := w = start
  answers := watching schema mayFail

theorem resting_keeps {purpose : ControlStatement}
    (hp : purpose = .tableExists ∨ purpose = .selectLog) (cells : List Value) (start : Watched) :
    (resting schema mayFail start).Keeps (· = start) (.query .direct (.control purpose cells)) := by
  rintro w rfl
  refine ⟨rfl, ?_⟩
  rintro reply ⟨service, sent⟩ ⟨ha, hsent⟩
  have hservice : service = w.service := by
    cases ha with
    | query hv he =>
      cases hv
      rcases hp with rfl | rfl
      · cases he with
        | control h => cases h; rfl
      · obtain ⟨-, rfl, -⟩ := rows_load he
        rfl
    | queryRefused => rfl
    | queryFails => rfl
  have hunsent : sent = w.sent := by
    rw [← List.append_nil w.sent]
    exact hsent
  rw [hservice, hunsent]

theorem Engine.unchanged_of_plan {start stopped : Watched}
    {result : Option (Except CycleError (List PlanEntry))}
    (hr : Session.Runs (watching schema mayFail) (engine.plan graph).run start result stopped) :
    stopped = start := by
  have hkeeps : Keeps (resting schema mayFail start) (· = start) (engine.plan graph) :=
    keeps_plan (fun cells => resting_keeps (.inl rfl) cells start)
      (resting_keeps (.inr rfl) [] start) engine graph
  have hallow : ∀ w c, (resting schema mayFail start).allows w c → w = start := fun _ _ h => h
  have hstill := (hkeeps.session rfl).stays hallow (fun _ _ h => h) hr
  exact hstill

/-! ## What a plan says -/

namespace Engine

/-- The lines, once the log is read. -/
theorem serving_lines {log : Log}
    (hforesee : foresee engine.schema graph data = validateOrder graph.orderedMigrations log) :
    Meets (serving engine.schema mayFail guard)
      (fun lines t => t = ⟨{ data }, sent⟩ ∧ engine.prognosis graph data = .ok lines)
      (fun e t => t = ⟨{ data }, sent⟩ ∧
        (Fallible mayFail ∨ engine.prognosis graph data = .error e))
      (ofResult (validateOrder graph.orderedMigrations log) >>= fun planned =>
        ofResult (engine.planEntries planned)) ⟨{ data }, sent⟩ := by
  refine meets_bind.mpr (meets_ofResult.mpr ?_)
  rw [prognosis, hforesee]
  cases validateOrder graph.orderedMigrations log with
  | error e => exact ⟨rfl, .inr rfl⟩
  | ok planned =>
    refine meets_ofResult.mpr ?_
    dsimp only
    cases engine.planEntries planned with
    | error e => exact ⟨rfl, .inr rfl⟩
    | ok lines => exact ⟨rfl, rfl⟩

theorem serving_plan (hholds : guard.holds (logRows engine.schema data)) :
    Meets (serving engine.schema mayFail guard)
      (fun lines t => t = ⟨{ data }, sent⟩ ∧ engine.prognosis graph data = .ok lines)
      (fun e t => t = ⟨{ data }, sent⟩ ∧
        (Fallible mayFail ∨ engine.prognosis graph data = .error e))
      (engine.plan graph) ⟨{ data }, sent⟩ := by
  refine meets_bind.mpr ((serving_controlTablesPresent hholds).mono ?_ ?_)
  · rintro present t ⟨hpresent, rfl⟩
    have hforesee : foresee engine.schema graph data = planIn engine.schema graph data := by
      rw [foresee, hpresent]
    cases present with
    | true =>
      obtain ⟨hlog, -⟩ := presence_eq_ok_true hpresent
      refine meets_bind.mpr ((Store.serving_load hlog hholds).mono ?_ ?_)
      · rintro log t ⟨rfl, hread⟩
        refine serving_lines (hforesee.trans ?_)
        rw [planIn, hread]
      · rintro e t ⟨rfl, hcause⟩
        refine ⟨rfl, hcause.imp_right fun hread => ?_⟩
        rw [prognosis, hforesee, planIn, hread]
    | false =>
      have hrows : logRows engine.schema data = [] := by
        rw [logRows, (presence_eq_ok_false hpresent).1, Option.getD_none]
      refine serving_lines (hforesee.trans ?_)
      rw [planIn, Store.readIn_of_empty hrows]
  · rintro e t ⟨rfl, hcause⟩
    refine ⟨rfl, hcause.imp_right fun hpresent => ?_⟩
    rw [prognosis, foresee, hpresent]

theorem eq_prognosis_of_plan {planned : Except CycleError (List PlanEntry)} {final : Watched}
    (hr : Session.Runs (watching engine.schema never) (engine.plan graph).run ⟨{ data }, sent⟩
      (some planned) final) : planned = engine.prognosis graph data := by
  have hplan : Meets (serving engine.schema never unguarded) _ _ (engine.plan graph)
      ⟨{ data }, sent⟩ := serving_plan trivial
  have hend := Session.Meets.of_runs hplan hr
  cases planned with
  | ok lines => exact hend.2.symm
  | error e => exact (hend.2.resolve_left not_fallible_never).symm

end Engine

/-! ## What a plan says of a cycle -/

theorem Step.Fits.decision_line {step : Step} (h : step.Fits engine.environment mayFail) :
    (engine.line step.planned).decision = if step.fate.isSkipped then .skip else .execute := by
  rw [Engine.line, Sieve.keeps]
  cases h with
  | skipped h => rw [h]; rfl
  | executed h => rw [h]; rfl
  | failed h => rw [h]; rfl

theorem map_actualOrder_planOf (entries : List StoredEntry) (ordered : List Migration) :
    (planOf entries ordered).map (·.actualOrder) = List.range ordered.length := by
  rw [planOf, List.map_map, List.range_eq_range', ← List.zipIdx_map_snd]
  rfl

section Foretold

variable {entries : List StoredEntry} {course : List Step} {t : Watched}
  (h : Ran schema engine.environment mayFail (planOf entries graph.orderedMigrations)
    (inPlace (texts graph.orderedMigrations) entries) sent course t)

include h

theorem Ran.planEntries_eq :
    engine.planEntries (planOf entries graph.orderedMigrations) =
      .ok (course.map fun step => engine.line step.planned) := by
  rw [← h.whole]
  refine (Engine.planEntries_eq_ok ?_).trans (by rw [List.map_map]; rfl)
  intro p hp
  obtain ⟨step, hstep, rfl⟩ := List.mem_map.mp hp
  exact (h.fits step hstep).standard

theorem Ran.foretells {migrations : List Migration}
    (hg : MigrationGraph.build migrations = .ok graph) :
    Foretells graph (course.map fun step => engine.line step.planned) (reported course {}) := by
  have hnames : ∀ q : PlanEntry → Bool,
      ((course.map fun step => engine.line step.planned).filter q).map (·.name) =
        (course.filter fun step => q (engine.line step.planned)).map Step.name := by
    intro q
    rw [List.filter_map, List.map_map]
    rfl
  have hskip : ∀ step ∈ course,
      decide ((engine.line step.planned).decision = .skip) = step.fate.isSkipped := by
    intro step hstep
    rw [(h.fits step hstep).decision_line]
    cases step.fate <;> rfl
  have hexecute : ∀ step ∈ course,
      decide ((engine.line step.planned).decision = .execute) = !step.fate.isSkipped := by
    intro step hstep
    rw [(h.fits step hstep).decision_line]
    cases step.fate <;> rfl
  have hlength : course.length = graph.orderedMigrations.length := by
    rw [← h.migrations, List.length_map]
  refine ⟨?_, ?_, ?_, ?_, ?_, ?_⟩
  · rw [← (MigrationGraph.built_of_build hg).map_name_orderedMigrations, ← h.names, List.map_map]
    rfl
  · rw [List.length_map, hlength, ← map_actualOrder_planOf entries, ← h.whole, List.map_map,
      List.map_map]
    rfl
  · rw [hnames, List.filter_congr hskip, skipped_reported]
  · rw [hnames, List.filter_congr hexecute]
    exact (perm_kept course).symm
  · rw [hnames, List.filter_congr hexecute, executed_reported]
    refine (List.monotone_filter_right course fun step hexecuted => ?_).map _
    cases hfate : step.fate <;> simp_all [Fate.isExecuted, Fate.isSkipped]
  · rw [hnames, List.filter_congr hexecute, failed_reported]
    refine (List.monotone_filter_right course fun step hfailed => ?_).map _
    cases hfate : step.fate <;> simp_all [Fate.isFailed, Fate.isSkipped]

end Foretold

/-- A cycle that the contents do not allow ends in the error of the prognosis when no call
fails. -/
theorem Engine.serving_apply_of_error (htab : Tabular engine.schema data)
    (hn : (texts graph.orderedMigrations).Nodup)
    (hclear : presence engine.schema data = .ok true → LockClear engine.schema data)
    {e : CycleError} (herror : engine.prognosis graph data = .error e) :
    Meets (serving engine.schema never (advancing engine.environment never
        graph.orderedMigrations (storedEntries engine.schema data)))
      (fun _ _ => False) (fun e' _ => e' = e) (engine.apply graph) ⟨{ data }, sent⟩ := by
  refine (serving_apply htab hn).mono ?_ ?_
  · rintro report t ⟨course, -, hforesee, hran, -⟩
    rw [prognosis, hforesee] at herror
    cases hran.planEntries_eq.symm.trans herror
  · rintro e' t ⟨-, hf | ⟨hpresent, hheld⟩ | herror'⟩
    · exact (not_fallible_never hf).elim
    · exact (hheld (hclear hpresent)).elim
    · exact Except.error.inj (herror'.symm.trans herror)

/-- What a plan says of the cycle that is run after it on the same contents, whose control tables
are both absent, are both present with a clear lock, or of which one is missing. Wherever a plan
stops, nothing has changed. If its calls went through, it foretells the report of a cycle that
succeeds, though calls of the cycle may fail; and where it ends in an error, so does every cycle
without failing calls. -/
theorem plan_predicts_apply {migrations : List Migration} {graph : MigrationGraph}
    (hg : MigrationGraph.build migrations = .ok graph) {engine : Engine} {data : Data}
    (htab : Tabular engine.schema data)
    (hclear : presence engine.schema data = .ok true → LockClear engine.schema data)
    (sent : List Sent) :
    (∀ result stopped, Session.Runs (watching engine.schema anyCall) (engine.plan graph).run
      ⟨{ data }, sent⟩ result stopped → stopped = ⟨{ data }, sent⟩) ∧
    (∃ planned final, Session.Runs (watching engine.schema never) (engine.plan graph).run
      ⟨{ data }, sent⟩ (some planned) final) ∧
    ∀ planned final, Session.Runs (watching engine.schema never) (engine.plan graph).run
        ⟨{ data }, sent⟩ (some planned) final →
      (∀ report applied, Session.Runs (watching engine.schema anyCall) (engine.apply graph).run
          ⟨{ data }, sent⟩ (some (.ok report)) applied →
        ∃ lines, planned = .ok lines ∧ Foretells graph lines report) ∧
      ∀ e, planned = .error e →
        (∃ result applied, Session.Runs (watching engine.schema never) (engine.apply graph).run
          ⟨{ data }, sent⟩ (some result) applied) ∧
        ∀ result applied, Session.Runs (watching engine.schema never) (engine.apply graph).run
          ⟨{ data }, sent⟩ (some result) applied → result = .error e := by
  have hn := nodup_texts hg
  refine ⟨fun result stopped hr => Engine.unchanged_of_plan hr, ?_, ?_⟩
  · have hplan : Meets (serving engine.schema never unguarded) _ _ (engine.plan graph)
        ⟨{ data }, sent⟩ := Engine.serving_plan trivial
    obtain ⟨planned, final, hruns, -⟩ := exists_runs hplan
    exact ⟨planned, final, hruns⟩
  intro planned final hruns
  have hplanned := Engine.eq_prognosis_of_plan hruns
  refine ⟨fun report applied happly => ?_, fun e he => ?_⟩
  · obtain ⟨course, -, hforesee, hran, rfl⟩ := (Engine.serving_apply htab hn).of_runs happly
    refine ⟨_, ?_, hran.foretells hg⟩
    rw [hplanned, Engine.prognosis, hforesee]
    exact hran.planEntries_eq
  · have hcycle : Meets (serving engine.schema never _) _ _ (engine.apply graph)
        ⟨{ data }, sent⟩ := Engine.serving_apply_of_error htab hn hclear (hplanned.symm.trans he)
    refine ⟨?_, fun result applied happly => ?_⟩
    · obtain ⟨result, applied, happly, -⟩ := exists_runs hcycle
      exact ⟨result, applied, happly⟩
    · have hend := Session.Meets.of_runs hcycle happly
      cases result with
      | ok report => exact hend.elim
      | error e' => rw [show e' = e from hend]

/-- Before a second cycle, with new migrations, a plan tells to skip one and to execute three, of
which one then fails. -/
theorem plan_predicts_apply_shop :
    ∃ data lines final report applied,
      Session.Runs (watching "ordo" never) (Shop.engine.plan Shop.grown).run ⟨{ data }, []⟩
        (some (.ok lines)) final ∧
      Session.Runs (watching "ordo" anyCall) (Shop.engine.apply Shop.grown).run ⟨{ data }, []⟩
        (some (.ok report)) applied ∧
      report.executed = [Shop.orders.name, Shop.views.name] ∧
      report.failed.map (·.name) = [Shop.backfill.name] ∧
      (lines.filter (·.decision = .skip)).map (·.name) = [Shop.accounts.name] ∧
      Foretells Shop.grown lines report := by
  obtain ⟨data, hstocked⟩ := Shop.exists_stocked
  obtain ⟨prepared, opened, report, applied, hopening, hclosing, hexecuted, hskipped, hfailed, -⟩ :=
    hstocked.exists_late anyCall true fun _ _ _ => trivial
  have happly := Engine.runs_halves hopening hclosing
  obtain ⟨-, ⟨planned, final, hplan⟩, hpredicts⟩ :=
    plan_predicts_apply Shop.build_grown hstocked.tabular (fun _ => hstocked.clear) []
  obtain ⟨lines, rfl, hforetells⟩ := (hpredicts planned final hplan).1 report applied happly
  exact ⟨data, lines, final, report, applied, hplan, happly, hexecuted, hfailed,
    hforetells.skip.trans hskipped, hforetells⟩

end SchemaMigration
