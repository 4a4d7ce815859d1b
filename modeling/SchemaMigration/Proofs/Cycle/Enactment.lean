import SchemaMigration.Proofs.Cycle.Clearing
import SchemaMigration.Proofs.Cycle.Selection

/-!
# SchemaMigration.Proofs.Cycle.Enactment

What can come of a cycle: migrations that may fail do fail, and it stops between any two of them.

* `Expendable` : a migration that can fail without ending the cycle.
* `Step.Heeds` : a step in which a migration fails exactly if it was chosen for that and is due.
* `Engine.exists_runs_process`, `Engine.exists_runs_processAll` : every choice can come true.
* `Engine.exists_halves`, `Engine.exists_cut` : so it can for a cycle that the contents allow, which
  may be run to its end or cut off between two migrations.
* `Ran.reported_of_heeds` : the report, in terms of the plan and the choice.

The cycles of `Shop` are ones in which migrations are executed for the first time and again,
skipped, and fail, and in which entries are renumbered.
-/

namespace SchemaMigration

open Sql Database Attempt

variable {environment : Option String} {mayFail : Call → Prop} {entries : List StoredEntry}
  {planned : List Planned} {course : List Step} {step : Step} {data : Data} {sent : List Sent}

/-- A migration that can fail without ending the cycle, at its first statement. -/
structure Expendable (mayFail : Call → Prop) (m : Migration) : Prop where
  lenient : m.parameters.failFast = false
  sends : ∃ statement rest, m.statements = statement :: rest ∧
    ∀ scope, mayFail (.batch scope (.migration statement))

/-- A migration fails if it is due and was chosen for that. -/
def Step.Heeds (environment : Option String) (spoiled : Migration → Bool) (step : Step) : Prop :=
  step.fate.isFailed =
    (Sieve.keeps environment step.planned && spoiled step.planned.migration)

theorem Step.Fits.of_never (h : step.Fits environment never) : step.Fits environment mayFail := by
  cases h with
  | skipped h => exact .skipped h
  | executed h tick => exact .executed h tick
  | failed _ _ hf => exact absurd hf not_fallible_never

theorem Step.Fits.isFailed_of_never (h : step.Fits environment never) :
    step.fate.isFailed = false := by
  cases h with
  | skipped => rfl
  | executed => rfl
  | failed _ _ hf => exact absurd hf not_fallible_never

namespace Engine

variable {engine : Engine}

/-! ## One migration, and all of them -/

theorem unguarded_follows : unguarded.Follows environment mayFail planned entries :=
  ⟨fun _ _ => trivial, fun _ _ _ => trivial⟩

theorem runs_execute_of_expendable {m : Migration} (h : Expendable mayFail m) (schema : String)
    (data : Data) (sent : List Sent) :
    ∃ cause more, CutShort m cause more ∧
      Session.Runs (watching schema mayFail) (execute m).run ⟨{ data }, sent⟩
        (some (.error cause)) ⟨{ data }, sent ++ more⟩ := by
  obtain ⟨statement, rest, hstatements, hmay⟩ := h.sends
  let e : DatabaseError := .execution "no such column"
  refine ⟨.statementFailed m.name statement e, [⟨statement, .error e⟩],
    ⟨[], statement, rest, e, hstatements, rfl, rfl⟩, ?_⟩
  have hfails : ∀ {service : Service} {scope : Scope}, service.view scope = some data →
      watching schema mayFail ⟨service, sent⟩ (.batch scope (.migration statement)) (.error e)
        ⟨service, sent ++ [⟨statement, .error e⟩]⟩ := by
    intro service scope hview
    have ha : Answers schema mayFail service (.batch scope (.migration statement)) (.error e)
        (service.store scope data) := .batchTorn hview (.nothing _) (hmay scope) e
    rw [Service.store_view hview] at ha
    exact ⟨ha, rfl⟩
  rw [execute, hstatements]
  split
  · have hbegin : watching schema mayFail ⟨{ data }, sent⟩ .begin (.ok ())
        ⟨{ data, draft := some data }, sent⟩ := ⟨.begin, (List.append_nil sent).symm⟩
    have habandon : ∀ sent, watching schema mayFail ⟨{ data, draft := some data }, sent⟩ .abandon
        () ⟨{ data }, sent⟩ := fun sent => ⟨.abandon, (List.append_nil sent).symm⟩
    exact .call hbegin (.call (hfails rfl) (.call (habandon _) (.done _ _)))
  · exact .call (hfails rfl) (.done _ _)

/-- What can come of a migration: it fails if it is chosen for that and due. -/
theorem exists_runs_process {spoiled : Migration → Bool} (progress : Progress) (sent : List Sent)
    {p : Planned} {names : List String} (hdata : Carries engine.schema entries data)
    (htracked : Tracked entries (p :: planned))
    (hpending : progress.log.Pending (p.migration.name.text :: names))
    (hpasses : ∃ kept, Sieve.standard engine.environment p = .ok kept)
    (hspoiled : spoiled p.migration = true → Expendable mayFail p.migration) :
    ∃ (next : Progress) (step : Step) (data' : Data),
      Session.Runs (watching engine.schema mayFail) (engine.process progress p).run
        ⟨{ data }, sent⟩ (some (.ok next)) ⟨{ data := data' }, sent ++ step.sent⟩ ∧
      step.planned = p ∧ step.Fits engine.environment mayFail ∧
      step.Heeds engine.environment spoiled ∧ Carries engine.schema (step.write entries) data' ∧
      next.report = step.report progress.report ∧ next.log.Pending names := by
  obtain ⟨kept, hkept⟩ := hpasses
  have hkeeps : Sieve.keeps engine.environment p = kept := by rw [Sieve.keeps, hkept]
  by_cases hfails : kept = true ∧ spoiled p.migration = true
  · obtain ⟨rfl, hchosen⟩ := hfails
    have hexpendable := hspoiled hchosen
    obtain ⟨cause, more, hcut, hexecute⟩ :=
      runs_execute_of_expendable hexpendable engine.schema data sent
    obtain ⟨statement, rest, -, hmay⟩ := hexpendable.sends
    refine ⟨progress.fail p.migration.name cause, ⟨p, .failed cause, more⟩, data, ?_, rfl,
      .failed hkept hexpendable.lenient ⟨_, hmay .direct⟩ (.inr hcut), ?_, hdata, rfl,
      hpending.markApplied⟩
    · have hsieve : Session.Runs (watching engine.schema mayFail)
          (ofResult (Sieve.standard engine.environment p)).run ⟨{ data }, sent⟩ (some (.ok true))
          ⟨{ data }, sent⟩ := by
        rw [hkept]
        exact .done _ _
      refine runs_bind hsieve (runs_bind (runs_outcome hexecute) ?_)
      dsimp only
      rw [hexpendable.lenient]
      exact .done _ _
    · simp [Step.Heeds, Fate.isFailed, hkeeps, hchosen]
  · have hnext : Meets (serving engine.schema never unguarded) _ _ (engine.process progress p)
        ⟨{ data }, sent⟩ := serving_process progress hdata htracked hpending unguarded_follows
    obtain ⟨result, final, hruns, hend⟩ := exists_runs hnext
    cases result with
    | error e =>
      exfalso
      obtain ⟨-, hf | herror⟩ := hend
      · exact not_fallible_never hf
      · obtain ⟨status, -, hentry⟩ := planEntry_of_standard hkept
        cases hentry.symm.trans herror
    | ok next =>
      obtain ⟨step, data', rfl, hfits, rfl, hdata', hreport, hpending'⟩ := hend
      refine ⟨next, step, data', hruns.mono (watching_mono fun _ h => h.elim), rfl, hfits.of_never,
        ?_, hdata', hreport, hpending'⟩
      rw [Step.Heeds, hfits.isFailed_of_never, hkeeps]
      cases kept <;> simp_all

theorem exists_runs_processAll {spoiled : Migration → Bool} (progress : Progress)
    (sent : List Sent) {names : List String} (hdata : Carries engine.schema entries data)
    (htracked : Tracked entries planned)
    (hpending : progress.log.Pending (planned.map (·.migration.name.text) ++ names))
    (hpasses : ∀ p ∈ planned, ∃ kept, Sieve.standard engine.environment p = .ok kept)
    (hspoiled : ∀ p ∈ planned, spoiled p.migration = true → Expendable mayFail p.migration) :
    ∃ (last : Progress) (final : Watched) (course : List Step),
      Session.Runs (watching engine.schema mayFail) (engine.processAll progress planned).run
        ⟨{ data }, sent⟩ (some (.ok last)) final ∧
      Ran engine.schema engine.environment mayFail planned entries sent course final ∧
      (∀ step ∈ course, step.Heeds engine.environment spoiled) ∧
      last.report = reported course progress.report ∧ last.log.Pending names := by
  -- on the migrations that are left; the entries change on the way
  induction planned generalizing entries data sent progress with
  | nil =>
    have hstate : (⟨{ data }, sent⟩ : Watched) = ⟨{ data }, sent ++ sentBy []⟩ := by
      rw [sentBy, List.flatMap_nil, List.append_nil]
    exact ⟨progress, _, [], .done _ _, ⟨rfl, fun _ h => (by cases h), hstate, hdata⟩,
      fun _ h => (by cases h), rfl, hpending⟩
  | cons p planned ih =>
    rw [List.forall_mem_cons] at hpasses hspoiled
    obtain ⟨next, step, data', hfirst, rfl, hfits, hheeds, hdata', hreport, hpending'⟩ :=
      exists_runs_process progress sent hdata htracked hpending hpasses.1 hspoiled.1
    obtain ⟨last, final, course, hrest, hran, hall, hlast, hnone⟩ :=
      ih next (sent ++ step.sent) hdata' htracked.tail hpending' hpasses.2 hspoiled.2
    refine ⟨last, final, step :: course, runs_bind hfirst hrest, hran.cons hfits,
      List.forall_mem_cons.mpr ⟨hheeds, hall⟩, ?_, hnone⟩
    rw [hlast, hreport]
    rfl

/-! ## Whole cycles -/

theorem processAll_append (engine : Engine) (progress : Progress) (front rest : List Planned) :
    engine.processAll progress (front ++ rest) =
      engine.processAll progress front >>= fun progress => engine.processAll progress rest := by
  induction front generalizing progress with
  | nil => rfl
  | cons first front ih =>
    rw [List.cons_append, processAll, processAll, bind_assoc]
    exact bind_congr ih

variable {σ : Type} {answers : σ → (c : Call) → c.Reply → σ → Prop} {s t u : σ}
  {prepared : Log × List Planned} {progress : Progress} {graph : MigrationGraph}

/-- The second half of a cycle can be cut off between two migrations. -/
theorem cut_closing {front rest : List Planned} (hplanned : prepared.2 = front ++ rest)
    (h : Session.Runs answers (engine.processAll { log := prepared.1 } front).run s
      (some (.ok progress)) t) :
    Session.Runs answers (engine.closing prepared).run s none t := by
  have hall : Session.Runs answers (engine.processAll { log := prepared.1 } prepared.2).run s none
      t := by
    rw [hplanned, processAll_append]
    exact runs_bind h (.cut _ t)
  exact Session.Runs.cut_bind (Session.Runs.cut_bind (Session.Runs.cut_bind hall))

theorem runs_closing
    (h : Session.Runs answers (engine.processAll { log := prepared.1 } prepared.2).run s
      (some (.ok progress)) t) (hall : progress.log.unapplied = [])
    (hrelease : Session.Runs answers Lock.release.run t (some (.ok ())) u) :
    Session.Runs answers (engine.closing prepared).run s (some (.ok progress.report)) u := by
  have hfinish : Session.Runs answers (engine.finish prepared).run s (some (.ok progress.report))
      t := by
    refine runs_bind h ?_
    rw [hall]
    exact .done _ t
  exact runs_bind (runs_outcome hfinish) (runs_bind (runs_outcome hrelease) (.done _ u))

theorem exists_runs_release {schema : String} (mayFail : Call → Prop) (sent : List Sent)
    (hdata : Carries schema entries data) :
    ∃ data', Session.Runs (watching schema mayFail) Lock.release.run ⟨{ data }, sent⟩
      (some (.ok ())) ⟨{ data := data' }, sent⟩ ∧ Carries schema entries data' := by
  have hrelease : Meets (serving schema never unguarded) _ _ Lock.release ⟨{ data }, sent⟩ :=
    Lock.serving_release hdata.lock trivial
  obtain ⟨result, final, hruns, hend⟩ := exists_runs hrelease
  cases result with
  | error e =>
    obtain ⟨data', -, -, hf⟩ := hend
    exact absurd hf not_fallible_never
  | ok _ =>
    obtain ⟨data', rfl, hbeside⟩ := hend
    exact ⟨data', hruns.mono (watching_mono fun _ h => h.elim), hdata.beside hbeside⟩

section Contents

variable (htab : Tabular engine.schema data) (hn : (texts graph.orderedMigrations).Nodup)
  (hclear : presence engine.schema data = .ok true → LockClear engine.schema data)
  (hforesee : foresee engine.schema graph data = .ok planned)
  (hpasses : ∀ p ∈ planned, ∃ kept, Sieve.standard engine.environment p = .ok kept)
  {spoiled : Migration → Bool}
  (hspoiled : ∀ p ∈ planned, spoiled p.migration = true → Expendable mayFail p.migration)

include htab hn hclear hforesee

theorem exists_runs_opening (mayFail : Call → Prop) (sent : List Sent) :
    ∃ prepared opened,
      Session.Runs (watching engine.schema mayFail) (engine.opening graph).run ⟨{ data }, sent⟩
        (some (.ok prepared)) opened ∧
      Opened engine.schema graph (storedEntries engine.schema data) sent prepared opened ∧
      prepared.2 = planned := by
  have hfirst : Meets (serving engine.schema never unguarded) _ _ (engine.opening graph)
      ⟨{ data }, sent⟩ := serving_opening htab hn unguarded_opens
  obtain ⟨result, opened, hopening, hend⟩ := exists_runs hfirst
  cases result with
  | error e =>
    exfalso
    obtain ⟨-, hf | ⟨hpresent, hheld⟩ | herror⟩ := hend
    · exact not_fallible_never hf
    · exact hheld (hclear hpresent)
    · cases hforesee.symm.trans herror
  | ok prepared =>
    obtain ⟨hopened, hplan⟩ := hend
    exact ⟨prepared, opened, hopening.mono (watching_mono fun _ h => h.elim), hopened,
      Except.ok.inj (hplan.symm.trans hforesee)⟩

include hpasses hspoiled

/-- What can come of a cycle that the contents allow, up to some migration. -/
theorem exists_runs_front (sent : List Sent) {front rest : List Planned}
    (hfront : planned = front ++ rest) :
    ∃ (prepared : Log × List Planned) (opened : Watched) (last : Progress) (reached : Watched)
      (course : List Step),
      Session.Runs (watching engine.schema mayFail) (engine.opening graph).run ⟨{ data }, sent⟩
        (some (.ok prepared)) opened ∧
      Session.Runs (watching engine.schema mayFail)
        (engine.processAll { log := prepared.1 } front).run opened (some (.ok last)) reached ∧
      prepared.2 = planned ∧
      Ran engine.schema engine.environment mayFail front
        (inPlace (texts graph.orderedMigrations) (storedEntries engine.schema data)) sent course
        reached ∧
      (∀ step ∈ course, step.Heeds engine.environment spoiled) ∧
      last.report = reported course {} ∧
      last.log.Pending (rest.map (·.migration.name.text)) := by
  obtain ⟨prepared, opened, hopening, ⟨hstate, -, hdata, hplan, hpending⟩, rfl⟩ :=
    exists_runs_opening htab hn hclear hforesee mayFail sent
  have htracked := tracked_planOf htab.distinct hn
  rw [← texts_planOf (storedEntries engine.schema data), ← hplan, hfront, List.map_append]
    at hpending
  rw [← hplan] at htracked
  have hsub : ∀ p ∈ front, p ∈ prepared.2 := fun p hp => hfront ▸ List.mem_append_left rest hp
  obtain ⟨last, reached, course, hruns, hran, hheeds, hreport, hleft⟩ :=
    exists_runs_processAll { log := prepared.1 } sent hdata
      (htracked.front ⟨rest, hfront.symm⟩) hpending (fun p hp => hpasses p (hsub p hp))
      fun p hp => hspoiled p (hsub p hp)
  rw [← hstate] at hruns
  exact ⟨prepared, opened, last, reached, course, hopening, hruns, rfl, hran, hheeds, hreport,
    hleft⟩

/-- A cycle that the contents allow can be run to its end, whichever expendable migrations are to
fail. -/
theorem exists_halves (sent : List Sent) :
    ∃ (prepared : Log × List Planned) (opened : Watched) (report : Report) (final : Watched)
      (course : List Step),
      Session.Runs (watching engine.schema mayFail) (engine.opening graph).run ⟨{ data }, sent⟩
        (some (.ok prepared)) opened ∧
      Session.Runs (watching engine.schema mayFail) (engine.closing prepared).run opened
        (some (.ok report)) final ∧
      Ran engine.schema engine.environment mayFail planned
        (inPlace (texts graph.orderedMigrations) (storedEntries engine.schema data)) sent course
        final ∧
      (∀ step ∈ course, step.Heeds engine.environment spoiled) ∧ report = reported course {} := by
  obtain ⟨prepared, opened, last, reached, course, hopening, hall, rfl, hran, hheeds, hreport,
    hnone⟩ := exists_runs_front htab hn hclear hforesee hpasses hspoiled sent
      (List.append_nil planned).symm
  obtain ⟨data', hrelease, hdata'⟩ :=
    exists_runs_release mayFail (sent ++ sentBy course) hran.carries
  rw [← hran.state] at hrelease
  refine ⟨prepared, opened, last.report, _, course, hopening,
    runs_closing hall hnone.unapplied hrelease, ?_, hheeds, hreport⟩
  exact ⟨hran.whole, hran.fits, rfl, hdata'⟩

/-- It can be cut off between any two migrations. -/
theorem exists_cut (sent : List Sent) {front rest : List Planned}
    (hfront : planned = front ++ rest) :
    ∃ (stopped : Watched) (course : List Step),
      Session.Runs (watching engine.schema mayFail) (engine.apply graph).run ⟨{ data }, sent⟩ none
        stopped ∧
      Ran engine.schema engine.environment mayFail front
        (inPlace (texts graph.orderedMigrations) (storedEntries engine.schema data)) sent course
        stopped ∧
      ∀ step ∈ course, step.Heeds engine.environment spoiled := by
  obtain ⟨prepared, opened, last, stopped, course, hopening, hruns, rfl, hran, hheeds, -, -⟩ :=
    exists_runs_front htab hn hclear hforesee hpasses hspoiled sent hfront
  exact ⟨stopped, course, runs_halves hopening (cut_closing hfront hruns), hran, hheeds⟩

end Contents
end Engine

/-! ## What is reported then -/

section Heeding

variable {spoiled : Migration → Bool} (hfits : step.Fits environment mayFail)
  (hheeds : step.Heeds environment spoiled)

include hfits in
theorem Step.Fits.isSkipped_eq : step.fate.isSkipped = !Sieve.keeps environment step.planned := by
  rw [Sieve.keeps]
  cases hfits with
  | skipped h => rw [h]; rfl
  | executed h => rw [h]; rfl
  | failed h => rw [h]; rfl

include hfits hheeds in
theorem Step.Heeds.isExecuted_eq : step.fate.isExecuted =
    (Sieve.keeps environment step.planned && !spoiled step.planned.migration) := by
  have hskipped := hfits.isSkipped_eq
  rw [Step.Heeds] at hheeds
  cases hfate : step.fate <;> simp_all [Fate.isExecuted, Fate.isSkipped, Fate.isFailed]

end Heeding

theorem names_written (course : List Step) (entries : List StoredEntry) :
    (written course entries).map (·.name) = entries.map (·.name) ++
      (course.filter fun step => step.fate.isExecuted && !step.planned.logged).map
        (·.planned.migration.name.text) := by
  induction course generalizing entries with
  | nil => simp [written]
  | cons step course ih =>
    have hnext : written (step :: course) entries = written course (step.write entries) := rfl
    rw [hnext, ih]
    obtain ⟨p, fate, sent⟩ := step
    cases fate with
    | skipped => simp [Step.write, Fate.isExecuted]
    | failed cause => simp [Step.write, Fate.isExecuted]
    | executed tick =>
      cases hlogged : p.logged <;> simp [Step.write, recordEntry, hlogged, Fate.isExecuted,
        names_updateEntry, names_insertEntry]

section Ran

variable {schema : String} {spoiled : Migration → Bool} {t : Watched}
  (h : Ran schema environment mayFail planned entries sent course t)
  (hheeds : ∀ step ∈ course, step.Heeds environment spoiled)

include h

/-- A list of a report, given when a step belongs to it. -/
theorem Ran.filter_course {α : Type} {q : Step → Bool} {q' : Planned → Bool} (f : Planned → α)
    (hq : ∀ step ∈ course, q step = q' step.planned) :
    (course.filter q).map (fun step => f step.planned) = (planned.filter q').map f := by
  rw [List.filter_congr hq, ← h.whole, List.filter_map, List.map_map]
  rfl

include hheeds

theorem Ran.reported_of_heeds :
    (reported course {}).executed = (planned.filter fun p =>
      Sieve.keeps environment p && !spoiled p.migration).map (·.migration.name) ∧
    (reported course {}).skipped = (planned.filter fun p =>
      !Sieve.keeps environment p).map (·.migration.name) ∧
    (reported course {}).failed.map (·.name) = (planned.filter fun p =>
      Sieve.keeps environment p && spoiled p.migration).map (·.migration.name) := by
  refine ⟨?_, ?_, ?_⟩
  · rw [executed_reported]
    exact h.filter_course (·.migration.name) fun step hstep =>
      (hheeds step hstep).isExecuted_eq (h.fits step hstep)
  · rw [skipped_reported]
    exact h.filter_course (·.migration.name) fun step hstep => (h.fits step hstep).isSkipped_eq
  · rw [failed_reported]
    exact h.filter_course (·.migration.name) hheeds

/-- The entries that are added are those of what is executed for the first time. -/
theorem Ran.names_of_heeds :
    (storedEntries schema t.service.data).map (·.name) = entries.map (·.name) ++
      (planned.filter fun p =>
        Sieve.keeps environment p && !spoiled p.migration && !p.logged).map
          (·.migration.name.text) := by
  rw [h.carries.storedEntries, names_written, h.filter_course (·.migration.name.text)]
  intro step hstep
  rw [(hheeds step hstep).isExecuted_eq (h.fits step hstep)]

end Ran

/-! ## A shop -/

namespace Shop

/-- A shop's migrations: two that run once, one that may fail, and one that runs in every cycle. -/
def accounts : Migration := .bare ⟨"accounts", by decide⟩ 0 [] []

def orders : Migration := .bare ⟨"orders", by decide⟩ 1 [accounts.name] []

def backfill : Migration :=
  { Migration.bare ⟨"backfill", by decide⟩ 2 [] [] with
    body := "UPDATE orders SET placed = true;"
    parameters := { failFast := false, runAfter := [orders.name] } }

def views : Migration :=
  { Migration.bare ⟨"views", by decide⟩ 3 [] [] with parameters := { run := .always } }

def small : MigrationGraph :=
  ⟨[accounts, views], ⟨[accounts.name, views.name], []⟩,
    [⟨0, [accounts.name], [accounts.name]⟩, ⟨3, [views.name], [views.name]⟩]⟩

/-- With two migrations more, between the ones that there were. -/
def grown : MigrationGraph :=
  ⟨[accounts, orders, backfill, views],
    ⟨[accounts.name, orders.name, backfill.name, views.name],
      [(accounts.name, orders.name), (orders.name, backfill.name)]⟩,
    [⟨0, [accounts.name], [accounts.name, orders.name, backfill.name]⟩,
      ⟨3, [views.name], [views.name]⟩]⟩

theorem build_small : MigrationGraph.build [accounts, views] = .ok small := by cbv

theorem build_grown : MigrationGraph.build [accounts, orders, backfill, views] = .ok grown := by
  cbv

theorem length_grown_le : grown.orderedMigrations.length ≤ 2 ^ 63 := by decide

def engine : Engine := { dialect := .builtin .duckdb, schema := "ordo" }

/-- The backfill is to fail, or nothing is. -/
def spoiled (fails : Bool) (m : Migration) : Bool := fails && m.name == backfill.name

/-- The entries that the first cycle leaves. -/
def stocked (tick tick' : Nat) : List StoredEntry :=
  [.ofMigration accounts 0 (Data.stamp tick) (Data.stamp tick),
    .ofMigration views 1 (Data.stamp tick') (Data.stamp tick')]

theorem names_stocked (tick tick' : Nat) :
    (stocked tick tick').map (·.name) = ["accounts", "views"] := rfl

theorem nodup_stocked (tick tick' : Nat) : ((stocked tick tick').map (·.name)).Nodup := by
  rw [names_stocked]
  decide

theorem namesByOrder_stocked (tick tick' : Nat) :
    namesByOrder (stocked tick tick') = ["accounts", "views"] := by
  have hplaced : Placed (texts small.orderedMigrations) (stocked tick tick') := by
    have htexts : texts small.orderedMigrations = ["accounts", "views"] := rfl
    simp [Placed, stocked, htexts, StoredEntry.ofMigration, accounts, views, Migration.bare]
  rw [hplaced.namesByOrder (nodup_texts build_small) (nodup_stocked tick tick')]
  rfl

/-- Contents with these entries and a clear lock. -/
structure Stocked (data : Data) : Prop where
  carries : ∃ tick tick', Carries engine.schema (stocked tick tick') data
  clear : LockClear engine.schema data

/-- What is planned for the first cycle. -/
def firstPlan : List Planned := [⟨accounts, 0, some .new, false⟩, ⟨views, 1, some .new, false⟩]

theorem standard_firstPlan :
    ∀ p ∈ firstPlan, Sieve.standard engine.environment p = .ok true := by
  simp [firstPlan, Sieve.standard, Sieve.chain, Sieve.notIgnored, Sieve.runs, Sieve.inEnvironment,
    accounts, views, Migration.bare]

theorem exists_written_firstPlan {course : List Step}
    (hwhole : course.map (·.planned) = firstPlan) (h : ∀ step ∈ course, step.Executes) :
    ∃ tick tick', written course [] = stocked tick tick' := by
  obtain ⟨⟨p, fate, sent⟩, rest, rfl, hfirst, hrest⟩ := List.map_eq_cons_iff.mp hwhole
  obtain ⟨⟨p', fate', sent'⟩, rfl, hsecond⟩ := List.map_eq_singleton_iff.mp hrest
  obtain ⟨tick, hfate⟩ := h _ List.mem_cons_self
  obtain ⟨tick', hfate'⟩ := h _ (List.mem_cons_of_mem _ List.mem_cons_self)
  cases hfirst
  cases hsecond
  cases hfate
  cases hfate'
  exact ⟨tick, tick', rfl⟩

/-- The first cycle executes both migrations. -/
theorem exists_early (mayFail : Call → Prop) :
    ∃ prepared opened report final,
      Session.Runs (watching engine.schema mayFail) (engine.opening small).run ⟨{ data := {} }, []⟩
        (some (.ok prepared)) opened ∧
      Session.Runs (watching engine.schema mayFail) (engine.closing prepared).run opened
        (some (.ok report)) final ∧
      report.executed = [accounts.name, views.name] ∧ Stocked final.service.data := by
  have hn := nodup_texts build_small
  have hrows : logRows engine.schema {} = ([] : List StoredEntry).map StoredEntry.cells := rfl
  have habsent : presence engine.schema {} = .ok false := rfl
  have hclear : presence engine.schema {} = .ok true → LockClear engine.schema {} :=
    fun h => by cases habsent.symm.trans h
  have hplaced : Placed (texts small.orderedMigrations) [] := fun _ h => by cases h
  have hforesee : foresee engine.schema small {} = .ok firstPlan :=
    foresee_of_readable hrows List.nodup_nil (fun _ h => by cases h)
      (hplaced.inOrder hn List.nodup_nil) habsent
  have hnone : ∀ p ∈ firstPlan, spoiled false p.migration = true →
      Expendable mayFail p.migration :=
    fun _ _ h => by cases h
  obtain ⟨prepared, opened, report, final, course, hopening, hclosing, hran, hheeds, rfl⟩ :=
    Engine.exists_halves (tabular_of_empty rfl) hn hclear hforesee
      (fun p hp => ⟨_, standard_firstPlan p hp⟩) hnone []
  have hexecutes : ∀ step ∈ course, step.Executes := by
    intro step hstep
    have hplanned : step.planned ∈ firstPlan := hran.whole ▸ List.mem_map_of_mem hstep
    rw [Step.executes_iff, (hheeds step hstep).isExecuted_eq (hran.fits step hstep),
      Sieve.keeps, standard_firstPlan _ hplanned]
    rfl
  obtain ⟨tick, tick', hwritten⟩ := exists_written_firstPlan hran.whole hexecutes
  have hcarries : Carries engine.schema (written course []) final.service.data := hran.carries
  rw [hwritten] at hcarries
  have hlock := Engine.lockClear_of_runs (Engine.runs_halves hopening hclosing).service
  exact ⟨prepared, opened, _, final, hopening, hclosing, (hran.reported_of_heeds hheeds).1,
    ⟨tick, tick', hcarries⟩, hlock⟩

/-- Contents that a first cycle leaves. -/
theorem exists_stocked : ∃ data, Stocked data := by
  obtain ⟨-, -, -, final, -, -, -, h⟩ := exists_early never
  exact ⟨final.service.data, h⟩

/-- What is planned for the second cycle. -/
def secondPlan : List Planned :=
  [⟨accounts, 0, some .applied, true⟩, ⟨orders, 1, some .new, false⟩,
    ⟨backfill, 2, some .new, false⟩, ⟨views, 3, some .applied, true⟩]

theorem planOf_stocked (tick tick' : Nat) :
    planOf (stocked tick tick') grown.orderedMigrations = secondPlan := by
  have hordered : grown.orderedMigrations = [accounts, orders, backfill, views] := rfl
  rw [hordered]
  simp [planOf, secondPlan, plannedIn, entryOf?, stocked, RunStatus.ofStored,
    StoredEntry.ofMigration, accounts, views, orders, backfill, Migration.bare]

/-- What is logged and runs once is skipped. -/
theorem standard_secondPlan : ∀ p ∈ secondPlan,
    Sieve.standard engine.environment p = .ok (p.migration.name != accounts.name) := by
  simp [secondPlan, engine, Sieve.standard, Sieve.chain, Sieve.notIgnored, Sieve.runs,
    Sieve.inEnvironment, accounts, views, orders, backfill, Migration.bare]

theorem expendable_secondPlan {fails : Bool}
    (hmay : fails = true → ∀ c : Call, c.isStatement = true → mayFail c) :
    ∀ p ∈ secondPlan, spoiled fails p.migration = true → Expendable mayFail p.migration := by
  have hnamed : ∀ p ∈ secondPlan,
      (p.migration.name == backfill.name) = true → p.migration = backfill := by decide
  intro p hp h
  obtain ⟨hfails, hname⟩ := Bool.and_eq_true_iff.mp h
  rw [hnamed p hp hname]
  exact ⟨rfl, _, [], rfl, fun _ => hmay hfails _ rfl⟩

namespace Stocked

variable (h : Stocked data)

include h

theorem presence : presence engine.schema data = .ok true := by
  obtain ⟨tick, tick', hdata⟩ := h.carries
  exact hdata.presence

theorem tabular : Tabular engine.schema data := by
  obtain ⟨tick, tick', hdata⟩ := h.carries
  exact .of_logRows hdata.logRows (nodup_stocked tick tick')

theorem foresee : foresee engine.schema grown data = .ok secondPlan := by
  obtain ⟨tick, tick', hdata⟩ := h.carries
  have hd := nodup_stocked tick tick'
  have horder : InOrder (texts grown.orderedMigrations) (stocked tick tick') := by
    rw [InOrder, namesByOrder_stocked]
    rfl
  have hread : ∀ e ∈ stocked tick tick', Readable e := by
    simp only [stocked, List.forall_mem_cons]
    exact ⟨.inserted _ tick rfl, .inserted _ tick' rfl, fun _ h => by cases h⟩
  rw [foresee_of_readable hdata.logRows hd hread horder hdata.presence, planOf_stocked]

theorem names : (storedEntries engine.schema data).map (·.name) = ["accounts", "views"] := by
  obtain ⟨tick, tick', hdata⟩ := h.carries
  rw [hdata.storedEntries, names_stocked]

/-- In the second cycle, with new migrations, the old one that runs once is skipped and the other
one is executed again. -/
theorem exists_late (mayFail : Call → Prop) (fails : Bool)
    (hmay : fails = true → ∀ c : Call, c.isStatement = true → mayFail c) :
    ∃ prepared opened report final,
      Session.Runs (watching engine.schema mayFail) (engine.opening grown).run ⟨{ data }, []⟩
        (some (.ok prepared)) opened ∧
      Session.Runs (watching engine.schema mayFail) (engine.closing prepared).run opened
        (some (.ok report)) final ∧
      report.executed = (if fails then [orders.name, views.name]
        else [orders.name, backfill.name, views.name]) ∧
      report.skipped = [accounts.name] ∧
      report.failed.map (·.name) = (if fails then [backfill.name] else []) ∧
      (storedEntries engine.schema final.service.data).map (·.name) =
        (if fails then ["accounts", "views", "orders"]
          else ["accounts", "views", "orders", "backfill"]) := by
  obtain ⟨prepared, opened, report, final, course, hopening, hclosing, hran, hheeds, rfl⟩ :=
    Engine.exists_halves h.tabular (nodup_texts build_grown) (fun _ => h.clear) h.foresee
      (fun p hp => ⟨_, standard_secondPlan p hp⟩) (expendable_secondPlan hmay) []
  obtain ⟨hexecuted, hskipped, hfailed⟩ := hran.reported_of_heeds hheeds
  have hnames := hran.names_of_heeds hheeds
  rw [names_inPlace, h.names] at hnames
  refine ⟨prepared, opened, _, final, hopening, hclosing, hexecuted.trans ?_, hskipped.trans ?_,
    hfailed.trans ?_, hnames.trans ?_⟩
  all_goals cases fails <;> rfl

/-- The second cycle can be cut off when it has executed one migration and has more to execute. -/
theorem exists_cut :
    ∃ stopped,
      Session.Runs (watching engine.schema never) (engine.apply grown).run ⟨{ data }, []⟩ none
        stopped ∧
      (storedEntries engine.schema stopped.service.data).map (·.name) =
        ["accounts", "views", "orders"] := by
  have hnone : ∀ p ∈ secondPlan, spoiled false p.migration = true →
      Expendable never p.migration :=
    expendable_secondPlan fun h => by cases h
  have hfront : secondPlan = secondPlan.take 2 ++ secondPlan.drop 2 := rfl
  obtain ⟨stopped, course, hruns, hran, hheeds⟩ :=
    Engine.exists_cut h.tabular (nodup_texts build_grown) (fun _ => h.clear) h.foresee
      (fun p hp => ⟨_, standard_secondPlan p hp⟩) hnone [] hfront
  have hnames := hran.names_of_heeds hheeds
  rw [names_inPlace, h.names] at hnames
  exact ⟨stopped, hruns, hnames⟩

end Stocked

end Shop
end SchemaMigration
