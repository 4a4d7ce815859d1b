import SchemaMigration.Proofs.Cycle.Enactment
import SchemaMigration.Proofs.Cycle.Noting

/-!
# SchemaMigration.Proofs.Cycle.Moments

The log in memory is the log in the database, at every moment of a cycle.

Whatever a cycle writes to the log it writes twice, to the database and then to memory, and only if
the first write succeeded. A write that fails leaves the log as it was, so both stay in step.

* `Planned.FitsIn` : what is planned for a migration fits the log in memory.
* `Observed.meets_write`, `Observed.meets_record`, `Observed.meets_renumber` : each write is made on
  both sides or on none.
* `Engine.meets_opening` : the first half of a cycle ends with the logs in step.
* `Engine.meets_process`, `Engine.meets_processAllNoted` : one migration, and all of them.

`log_in_step` puts them together.
-/

namespace SchemaMigration

open Sql Database Attempt

variable {schema : String} {n : Nat} {base : Data} {log : Log} {w t : Observed} {c : Call}

/-! ## What writes the log -/

/-- What counts as logged is in the log in memory, and the position is a number of 64 bits. -/
structure Planned.FitsIn (log : Log) (planned : Planned) : Prop where
  logged : planned.logged = true → log.contains planned.migration.name.text = true
  position : IntegerType.big.holds planned.actualOrder = true

theorem Planned.FitsIn.mono {log' : Log} {planned : Planned} (h : planned.FitsIn log)
    (hsub : ∀ name, log.contains name = true → log'.contains name = true) :
    planned.FitsIn log' :=
  ⟨fun hlogged => hsub _ (h.logged hlogged), h.position⟩

/-- The log in memory after some moves. -/
def Log.renumbered (log : Log) (moves : List (String × Int)) : Log :=
  moves.foldl (fun log (name, order) => log.setRunOrder name order) log

theorem Log.contains_renumbered (log : Log) (moves : List (String × Int)) (name : String) :
    (log.renumbered moves).contains name = log.contains name := by
  induction moves generalizing log with
  | nil => rfl
  | cons move rest ih => exact (ih _).trans (log.contains_modify _ _ _)

namespace Observed

/-- A write of an entry that is made in memory if it succeeds. -/
theorem meets_write {log' : Log} {purpose : ControlStatement} {cells : List Value}
    (hw : w.At schema n log)
    (hdone : ∀ {data' outcome}, Effect schema w.service.data (.control purpose cells) data' outcome →
      log'.InStep schema data') :
    Meets (observing schema) (fun _ t => t.At schema n log') (fun _ t => t.At schema n log)
      (Attempt.execute .direct (.control purpose cells)) w := by
  refine meets_execute.mpr ⟨⟨n, hw.toSound⟩, fun reply t ha => ?_⟩
  have hsound := hw.toSound.answered ha
  obtain ⟨service, moments⟩ := t
  obtain ⟨ha, hfailed, -⟩ := ha
  cases ha with
  | execute hv he =>
    cases hv
    exact ⟨hsound, hdone he⟩
  | executeUnknown hv he =>
    cases hv
    exact ⟨hsound, hw.inStep.same ⟨hfailed rfl, he.hasLog⟩⟩
  | executeFails => exact ⟨hsound, hw.inStep⟩
  | executeRefused => exact ⟨hsound, hw.inStep⟩

theorem meets_record {planned : Planned} (hw : w.At schema n log) (hp : planned.FitsIn log) :
    Meets (observing schema) (fun entry t => t.At schema n (log.upsert entry))
      (fun _ t => t.At schema n log) (Engine.record planned) w := by
  rw [Engine.record]
  split
  · rename_i hlogged
    exact meets_bind.mpr (meets_write hw (hw.inStep.updated (hp.logged hlogged) hp.position))
  · exact meets_bind.mpr (meets_write hw (hw.inStep.inserted hp.position))

/-- Inside a transaction the moves are made in its draft. -/
theorem meets_moveEach {moves : List (String × Int)} {draft : Data} (hw : w.Sound schema n)
    (hdraft : w.service.draft = some draft) (hlog : log.InStep schema draft)
    (hfits : ∀ move ∈ moves, IntegerType.big.holds move.2 = true) :
    Meets (observing schema)
      (fun _ t => t.Sound schema n ∧
        ∃ draft', t.service.draft = some draft' ∧ (log.renumbered moves).InStep schema draft')
      (fun _ t => t.Sound schema n) (Store.moveEach moves) w := by
  induction moves generalizing log w draft with
  | nil => exact ⟨hw, draft, hdraft, hlog⟩
  | cons move rest ih =>
    rw [List.forall_mem_cons] at hfits
    refine meets_bind.mpr (meets_execute.mpr ⟨⟨n, hw⟩, fun reply t ha => ?_⟩)
    have hsound := hw.answered ha
    obtain ⟨service, moments⟩ := t
    obtain ⟨ha, -⟩ := ha
    cases ha with
    | execute hv he =>
      cases hdraft.symm.trans hv
      exact ih hsound rfl (hlog.moved hfits.1 he) hfits.2
    | executeUnknown => exact hsound
    | executeFails => exact hsound
    | executeRefused => exact hsound

/-- Entries are renumbered all together, in the database and then in memory. -/
theorem meets_renumber {planned : List Planned} (hw : w.At schema n log)
    (hp : ∀ p ∈ planned, p.FitsIn log) :
    Meets (observing schema)
      (fun log' t => t.At schema n log' ∧ ∀ name, log'.contains name = log.contains name)
      (fun _ t => t.Sound schema n) (Engine.renumber log planned) w := by
  have hfits : ∀ move ∈ Engine.movesOf log planned, IntegerType.big.holds move.2 = true := by
    intro move hmove
    obtain ⟨p, hmem, hmove⟩ := List.mem_filterMap.mp hmove
    split at hmove
    · cases hmove
    · split at hmove
      · cases hmove
      · cases hmove
        exact (hp p hmem).position
  have hend : ∀ {t}, t.At schema n (log.renumbered (Engine.movesOf log planned)) →
      Meets (observing schema)
        (fun log' t => t.At schema n log' ∧ ∀ name, log'.contains name = log.contains name)
        (fun _ t => t.Sound schema n) (pure (log.renumbered (Engine.movesOf log planned))) t :=
    fun ht => ⟨ht, log.contains_renumbered _⟩
  refine meets_bind.mpr ?_
  rw [Store.renumber]
  split
  · rename_i hnone
    rw [List.isEmpty_iff] at hnone
    refine meets_pure.mpr (hend ?_)
    rw [hnone]
    exact hw
  refine meets_inTransaction.mpr ⟨⟨n, hw.toSound⟩, fun reply t ha => ?_⟩
  have hsound := hw.toSound.answered ha
  obtain ⟨service, moments⟩ := t
  obtain ⟨ha, -⟩ := ha
  cases ha with
  | beginFails => exact hsound
  | begin =>
    refine meets_bind.mpr ((meets_moveEach hsound rfl hw.inStep hfits).mono ?_ ?_)
    · rintro _ t ⟨ht, draft, hdraft, hlog⟩
      refine meets_ofReply.mpr ⟨⟨n, ht⟩, fun reply u hu => ?_⟩
      have hsound := ht.answered hu
      obtain ⟨service', moments'⟩ := u
      obtain ⟨hu, -⟩ := hu
      cases hu with
      | commit hd =>
        cases hdraft.symm.trans hd
        exact hend ⟨hsound, hlog⟩
      | commitUnknown => exact hsound
      | commitFails => exact hsound
    · intro _ t ht
      exact ⟨⟨n, ht⟩, fun _ _ hu => ht.answered hu⟩

end Observed

/-! ## The first half -/

theorem Tabular.same {data data' : Data} (h : Tabular schema data)
    (hs : SameLog schema data data') : Tabular schema data' :=
  .of_logRows (hs.1.trans (map_cells_storedEntries h.shape)) h.distinct

theorem Observed.meets_load (hw : w.Sound schema n) (htab : Tabular schema w.service.data) :
    Meets (observing schema) (fun log t => t.At schema n log) (fun _ t => t.Sound schema n)
      Store.load w := by
  refine meets_bind.mpr (meets_query.mpr ⟨⟨n, hw⟩, fun reply t ha => ?_⟩)
  have hsound := hw.answered ha
  obtain ⟨hsame, hloaded⟩ := of_answers_selectLog ha.1
  cases reply with
  | error e => exact hsound
  | ok rows =>
    obtain ⟨hlog, hread⟩ := hloaded rows rfl
    refine meets_bind.mpr (meets_ofResult.mpr ?_)
    cases hentries : Store.readEntries rows with
    | error e => exact hsound
    | ok entries =>
      rw [hentries] at hread
      have hstep := Log.InStep.of_readIn htab hlog hread.symm
      rw [← hsame] at hstep
      exact ⟨hsound, hstep⟩

theorem Planned.fitsIn_of_validateOrder {ordered : List Migration} {planned : List Planned}
    (hsize : ordered.length ≤ 2 ^ 63) (h : validateOrder ordered log = .ok planned) :
    ∀ p ∈ planned, p.FitsIn log := by
  intro p hp
  rw [planned_of_validateOrder h] at hp
  obtain ⟨⟨m, i⟩, hmem, rfl⟩ := List.mem_map.mp hp
  obtain ⟨hi, -⟩ := List.getElem?_eq_some_iff.mp (List.mem_zipIdx_iff_getElem?.mp hmem)
  exact ⟨id, holds_of_lt (Nat.lt_of_lt_of_le hi hsize)⟩

/-- What the first half of a cycle leaves. -/
structure Observed.Prepared (schema : String) (graph : MigrationGraph)
    (prepared : Log × List Planned) (w : Observed) : Prop extends w.At schema 0 prepared.1 where
  fits : ∀ p ∈ prepared.2, p.FitsIn prepared.1
  size_planned : prepared.2.length = graph.orderedMigrations.length

namespace Engine

variable {graph : MigrationGraph}

theorem meets_prepare (hsize : graph.orderedMigrations.length ≤ 2 ^ 63)
    (hw : w.Sound schema 0) (htab : Tabular schema w.service.data) :
    Meets (observing schema) (fun prepared t => t.Prepared schema graph prepared)
      (fun _ t => t.Sound schema 0) (prepare graph) w := by
  refine meets_bind.mpr ((Observed.meets_load hw htab).mono ?_ fun _ _ h => h)
  intro log t ht
  refine meets_bind.mpr (meets_ofResult.mpr ?_)
  cases hplan : validateOrder graph.orderedMigrations log with
  | error e => exact ht.toSound
  | ok planned =>
    have hfits := Planned.fitsIn_of_validateOrder hsize hplan
    refine meets_bind.mpr ((Observed.meets_renumber ht hfits).mono ?_ fun _ _ h => h)
    rintro log' u ⟨hu, hnames⟩
    refine ⟨hu, fun p hp => (hfits p hp).mono fun name h => (hnames name).trans h, ?_⟩
    rw [planned_of_validateOrder hplan, List.length_map, List.length_zipIdx]

theorem meets_secured (engine : Engine) (hsize : graph.orderedMigrations.length ≤ 2 ^ 63)
    (hw : w.Unmoved schema 0 base) (htab : Tabular schema base) :
    Meets (observing schema) (fun prepared t => t.Prepared schema graph prepared)
      (fun _ t => t.Sound schema 0) (engine.secured graph) w := by
  have hacquire : Keeps (observing schema) (Observed.Unmoved schema 0 base)
      (Lock.acquire engine.schema engine.lock) :=
    Lock.keeps_acquire Observed.observing_brackets (Observed.keeps_inside rfl)
      (Observed.keeps_inside rfl) (fun _ => Observed.keeps_unmoved rfl nofun) _ _
  refine meets_bind.mpr ((hacquire w hw).mono ?_ fun _ _ h => h.toSound)
  intro _ t ht
  refine meets_bind.mpr (meets_outcome.mpr ?_)
  refine (meets_prepare hsize ht.toSound (htab.same ht.data)).mono (fun _ _ h => h) ?_
  intro e u hu
  exact meets_bind.mpr ((Observed.keeps_sound _ u hu).mono (fun _ _ h => h) fun _ _ h => h)

theorem meets_opening (engine : Engine) (hsize : graph.orderedMigrations.length ≤ 2 ^ 63)
    (hw : w.Sound schema 0) (htab : Tabular schema w.service.data) :
    Meets (observing schema) (fun prepared t => t.Prepared schema graph prepared)
      (fun _ t => t.Sound schema 0) (engine.opening graph) w := by
  have hpresent : Keeps (observing schema) (Observed.Unmoved schema 0 w.service.data)
      engine.controlTablesPresent :=
    keeps_controlTablesPresent (fun _ => Observed.keeps_unmoved rfl nofun) engine
  have hcreate : Keeps (observing schema) (Observed.Unmoved schema 0 w.service.data)
      (batch .direct (.control .createControlTables [])) :=
    keeps_batch (Observed.keeps_unmoved rfl nofun)
  refine meets_bind.mpr ((hpresent w ⟨hw, .refl _⟩).mono ?_ fun _ _ h => h.toSound)
  intro present t ht
  cases present with
  | true => exact engine.meets_secured hsize ht htab
  | false =>
    refine meets_bind.mpr ((hcreate t ht).mono ?_ fun _ _ h => h.toSound)
    intro _ u hu
    exact engine.meets_secured hsize hu htab

/-! ## The migrations -/

/-- A migration is met on both sides, or on none when it ends the cycle. -/
theorem meets_process (engine : Engine) {progress : Progress} {planned : Planned}
    (hw : w.At schema n progress.log) (hp : planned.FitsIn progress.log) :
    Meets (observing schema)
      (fun progress' t => t.At schema n progress'.log ∧
        ∀ name, progress.log.contains name = true → progress'.log.contains name = true)
      (fun _ t => t.At schema n progress.log) (engine.process progress planned) w := by
  have hmarked : ∀ {t : Observed} {log : Log}, t.At schema n log →
      t.At schema n (log.markApplied planned.migration.name.text) :=
    fun ht => ⟨ht.toSound, ht.inStep.markApplied _⟩
  have hnames : ∀ (log : Log) name, (log.markApplied planned.migration.name.text).contains name =
      log.contains name := fun log name => log.contains_modify _ _ _
  have hexecute : Keeps (observing schema) (Observed.Unmoved schema n w.service.data)
      (execute planned.migration) :=
    keeps_execute Observed.observing_brackets (fun _ => Observed.keeps_unmoved rfl nofun)
      (fun _ => Observed.keeps_inside rfl) _
  refine meets_bind.mpr (meets_ofResult.mpr ?_)
  cases Sieve.standard engine.environment planned with
  | error e => exact hw
  | ok kept =>
    cases kept with
    | false => exact ⟨hmarked hw, fun name h => (hnames _ name).trans h⟩
    | true =>
      refine meets_bind.mpr (meets_outcome.mpr ((hexecute w hw.unmoved).mono ?_ ?_))
      · intro _ t ht
        refine meets_bind.mpr ((Observed.meets_record (hw.of_unmoved ht) hp).mono ?_ fun _ _ h => h)
        intro entry u hu
        refine ⟨hmarked hu, fun name h => (hnames _ name).trans ?_⟩
        exact (progress.log.contains_upsert entry name).mpr (.inr h)
      · intro e t ht
        dsimp only
        split
        · exact hw.of_unmoved ht
        · exact ⟨hmarked (hw.of_unmoved ht), fun name h => (hnames _ name).trans h⟩

theorem meets_processAllNoted (engine : Engine) {progress : Progress} {planned : List Planned}
    (hw : w.At schema n progress.log) (hp : ∀ p ∈ planned, p.FitsIn progress.log) :
    MarkedAttempt.Meets (observing schema) Observed.note
      (fun _ t => t.Sound schema (n + planned.length + 1)) (fun _ t => ∃ n, t.Sound schema n)
      (engine.processAllNoted progress planned) w := by
  -- on the migrations that are left; each leaves the logs in step for the next one
  induction planned generalizing progress n w with
  | nil => exact hw.noted.toSound
  | cons first rest ih =>
    obtain ⟨hfirst, hrest⟩ := List.forall_mem_cons.mp hp
    refine MarkedAttempt.meets_bind.mpr (MarkedAttempt.meets_mark.mpr ?_)
    refine MarkedAttempt.meets_ofAttempt_bind.mpr (meets_outcome.mpr ?_)
    refine (engine.meets_process hw.noted hfirst).mono ?_ ?_
    · rintro progress' t ⟨ht, hnames⟩
      refine (ih ht fun p hmem => (hrest p hmem).mono hnames).mono ?_ fun _ _ h => h
      intro _ u hu
      rw [List.length_cons, show n + (rest.length + 1) + 1 = n + 1 + rest.length + 1 by omega]
      exact hu
    · intro e t ht
      exact ⟨_, ht.noted.toSound⟩

theorem meets_applyNoted (engine : Engine) (hsize : graph.orderedMigrations.length ≤ 2 ^ 63)
    (hw : w.Sound schema 0) (htab : Tabular schema w.service.data) :
    MarkedAttempt.Meets (observing schema) Observed.note
      (fun _ t => t.Sound schema (graph.orderedMigrations.length + 1))
      (fun _ t => ∃ n, t.Sound schema n) (engine.applyNoted graph) w := by
  refine MarkedAttempt.meets_ofAttempt_bind.mpr
    ((engine.meets_opening hsize hw htab).mono ?_ fun _ _ h => ⟨0, h⟩)
  intro prepared t ht
  have hfinish : MarkedAttempt.Meets (observing schema) Observed.note
      (fun _ u => u.Sound schema (graph.orderedMigrations.length + 1))
      (fun _ u => ∃ n, u.Sound schema n) (engine.finishNoted prepared) t := by
    have hstart : t.At schema 0 ({ log := prepared.1 } : Progress).log := ht.toAt
    refine MarkedAttempt.meets_bind.mpr
      ((engine.meets_processAllNoted hstart ht.fits).mono ?_ fun _ _ h => h)
    intro progress u hu
    rw [ht.size_planned, Nat.zero_add] at hu
    cases progress.log.unapplied with
    | nil => exact hu
    | cons name names => exact ⟨_, hu⟩
  -- the release of the lock adds nothing to what was noted
  have hrelease : ∀ {n u}, u.Sound schema n →
      Meets (observing schema) (fun _ v => v.Sound schema n) (fun _ v => v.Sound schema n)
        (outcome Lock.release) u := fun hu => Observed.keeps_sound _ _ hu
  refine MarkedAttempt.meets_bind.mpr (MarkedAttempt.meets_outcome.mpr (hfinish.mono ?_ ?_))
  · intro report u hu
    refine MarkedAttempt.meets_ofAttempt_bind.mpr
      ((hrelease hu).mono ?_ fun _ _ h => ⟨_, h⟩)
    intro released v hv
    refine MarkedAttempt.meets_ofAttempt.mpr (meets_ofResult.mpr ?_)
    cases released with
    | ok _ => exact hv
    | error e => exact ⟨_, hv⟩
  · rintro e u ⟨n, hu⟩
    refine MarkedAttempt.meets_ofAttempt_bind.mpr
      ((hrelease hu).mono ?_ fun _ _ h => ⟨_, h⟩)
    intro released v hv
    exact ⟨_, hv⟩

end Engine

/-! ## The whole cycle -/

/-- The log in memory over a cycle. A cycle that notes it, with the database of that moment, before
each migration and where the migrations end is the cycle but for its notes. Whatever calls fail,
provided that a call which fails leaves the log as it was, and wherever the cycle stops: what is
loaded from the database at a moment that was noted has the same names as the log in memory, and
entries that agree in all but times and marks. A cycle that succeeds noted its log before each
migration and at the end. Positions are numbers of 64 bits. -/
theorem log_in_step {engine : Engine} {graph : MigrationGraph} {data : Data}
    (hsize : graph.orderedMigrations.length ≤ 2 ^ 63) (htab : Tabular engine.schema data) :
    (engine.applyNoted graph).erase = engine.apply graph ∧
    ∀ (result : Option (Except CycleError Report)) (observed : Observed),
      Marked.Runs (observing engine.schema).answers Observed.note (fun _ => True)
          (engine.applyNoted graph).run { service := { data } } result observed →
        (∀ moment ∈ observed.moments, moment.2.Loads engine.schema moment.1) ∧
        ∀ report, result = some (.ok report) →
          observed.moments.length = graph.orderedMigrations.length + 1 := by
  refine ⟨engine.erase_applyNoted graph, fun result observed hr => ?_⟩
  have hstart : Observed.Sound engine.schema 0 { service := { data } } := ⟨rfl, nofun⟩
  rcases (engine.meets_applyNoted hsize hstart htab).run hr with
    ⟨result, rfl, hend⟩ | ⟨rfl, c, w, -, ⟨n, hw⟩, hstop⟩
  · cases result with
    | ok report => exact ⟨hend.loads, fun _ _ => hend.size⟩
    | error e =>
      obtain ⟨n, hend⟩ := hend
      exact ⟨hend.loads, nofun⟩
  -- cut off at a call, before it or while it was served, which notes nothing
  · rcases hstop with rfl | ⟨reply, ha⟩
    · exact ⟨hw.loads, nofun⟩
    · exact ⟨(hw.answered ha).loads, nofun⟩

/-- Where only statements of migrations may fail, besides the calls that the contents refuse, a
failing call leaves the log as it was. -/
theorem Database.Answers.sameLog_of_failed {s s' : Service} {reply : c.Reply}
    (ha : Answers schema (fun c => c.isStatement = true) s c reply s')
    (hfailed : Exchange.failed ⟨c, reply⟩ = true) : SameLog schema s.data s'.data := by
  cases hc : c.isStatement with
  | true =>
    obtain ⟨scope, text, rfl⟩ := Call.exists_of_isStatement hc
    exact ha.sameLog rfl (fun h => by cases h)
  | false =>
    have hnever : c.isStatement ≠ true := Bool.eq_false_iff.mp hc
    cases ha with
    | beginFails hf => exact absurd hf hnever
    | commitUnknown _ hf => exact absurd hf hnever
    | commitFails hf => exact absurd hf hnever
    | rollbackFails hf => exact absurd hf hnever
    | executeUnknown _ _ hf => exact absurd hf hnever
    | executeFails hf => exact absurd hf hnever
    | batchTorn _ _ hf => exact absurd hf hnever
    | queryFails hf => exact absurd hf hnever
    | executeRefused => exact .refl _
    | queryRefused => exact .refl _
    | _ => cases hfailed

/-- A run of a cycle in which only statements of migrations fail is one that notes its log. -/
theorem Observed.exists_runs {α : Type} {attempt : MarkedAttempt Log α}
    {result : Except CycleError α} {service : Service}
    (h : Session.Runs (Answers schema fun c => c.isStatement = true) attempt.erase.run w.service
      (some result) service) :
    ∃ observed, Marked.Runs (observing schema).answers Observed.note (fun _ => True) attempt.run w
      (some result) observed ∧ observed.service = service := by
  have hanswer : ∀ (w : Observed) c reply s',
      Answers schema (fun c => c.isStatement = true) w.service c reply s' →
        ∃ t, (observing schema).answers w c reply t ∧ t.service = s' := by
    intro w c reply s' ha
    refine ⟨⟨s', w.moments⟩, ⟨ha.mono fun _ _ => trivial, fun hfailed => ?_, rfl⟩, rfl⟩
    exact (ha.sameLog_of_failed hfailed).1
  have hnote : ∀ (log : Log) (w : Observed), (w.note log).service = w.service := fun _ _ => rfl
  exact Marked.exists_runs_of_erase hanswer hnote h

/-- A second cycle, of which one migration is skipped and another one fails, notes its log before
each of the four migrations and at the end. -/
theorem log_in_step_shop :
    ∃ data report observed,
      Marked.Runs (observing "ordo").answers Observed.note (fun _ => True)
        (Shop.engine.applyNoted Shop.grown).run { service := { data } } (some (.ok report))
        observed ∧
      report.executed = [Shop.orders.name, Shop.views.name] ∧
      report.skipped = [Shop.accounts.name] ∧ report.failed.map (·.name) = [Shop.backfill.name] ∧
      (storedEntries "ordo" observed.service.data).map (·.name) = ["accounts", "views", "orders"] ∧
      observed.moments.length = 5 ∧
      ∀ moment ∈ observed.moments, moment.2.Loads "ordo" moment.1 := by
  obtain ⟨data, hstocked⟩ := Shop.exists_stocked
  obtain ⟨prepared, opened, report, late, hopening, hclosing, hexecuted, hskipped, hfailed,
    hnames⟩ := hstocked.exists_late (fun c => c.isStatement = true) true fun _ _ h => h
  have hcycle := (Engine.runs_halves hopening hclosing).service
  obtain ⟨herase, hnoted⟩ := log_in_step Shop.length_grown_le hstocked.tabular
  rw [← herase] at hcycle
  let start : Observed := { service := { data } }
  obtain ⟨observed, hr, hservice⟩ := Observed.exists_runs (w := start) hcycle
  obtain ⟨hloads, hcount⟩ := hnoted _ observed hr
  rw [← hservice] at hnames
  exact ⟨data, report, observed, hr, hexecuted, hskipped, hfailed, hnames,
    hcount _ rfl, hloads⟩

end SchemaMigration
