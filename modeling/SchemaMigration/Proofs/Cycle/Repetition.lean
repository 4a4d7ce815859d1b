import Mathlib.Data.List.Sublists
import SchemaMigration.Proofs.Cycle.Clearing
import SchemaMigration.Proofs.Cycle.Outcome
import SchemaMigration.Proofs.Cycle.Refusal
import SchemaMigration.Proofs.Cycle.Resumption

/-!
# SchemaMigration.Proofs.Cycle.Repetition

A cycle that returned a report, and the same cycle run again right after it.

* `renumber_of_placed` : a log whose entries are in their places is not renumbered.
* `Ran.selected_after_iff` : what is selected after a cycle, in terms of its report.
* `Stays`, `Ran.stays_again`, `Ran.name_again` : the entries that the second cycle leaves.
* `Engine.validated_of_runs`, `Engine.quiet_of_runs` : the second cycle up to its renumbering, and
  all of it where nothing is selected.
* `Repeated`, `Ran.repeated` : what a second cycle has done when no call of it failed.
* `Resumable.succeeds` : such a cycle can be had, and succeeds.

`repetition_outcome` puts them together.
-/

namespace SchemaMigration

open Sql Database Attempt

variable {environment : Option String} {mayFail : Call → Prop} {ordered : List Migration}
  {entries : List StoredEntry} {course : List Step} {schema : String} {sent : List Sent}
  {first : Watched} {m : Migration}

/-! ## Entries in their places -/

theorem movesOf_of_placed {log : Log} (hmirror : log.Mirrors entries)
    (hn : (texts ordered).Nodup) (hplaced : Placed (texts ordered) entries) :
    Engine.movesOf log (planOf entries ordered) = [] := by
  refine List.filterMap_eq_nil_iff.mpr fun p hp => ?_
  have hget := hmirror.get? p.migration.name.text
  cases hentry : log.get? p.migration.name.text with
  | none => rfl
  | some entry =>
    rw [hentry, Option.map_some, eq_comm, Option.map_eq_some_iff] at hget
    obtain ⟨e, he, hessence⟩ := hget
    obtain ⟨hmem, hname⟩ := (entryOf?_eq_some_iff hmirror.names_nodup).mp he
    have horder : e.runOrder = entry.runOrder := congrArg (·.2.1) hessence
    refine if_pos ?_
    rw [← horder, (hplaced e hmem).2, hname, idxOf_of_mem_planOf hn hp]

theorem renumber_of_placed {log : Log} (hmirror : log.Mirrors entries)
    (hn : (texts ordered).Nodup) (hplaced : Placed (texts ordered) entries) :
    Engine.renumber log (planOf entries ordered) = pure log := by
  rw [Engine.renumber, movesOf_of_placed hmirror hn hplaced]
  rfl

/-! ## What is selected after a cycle -/

/-- What was kept once and is applied by now is kept again if it runs always. -/
theorem Sieve.standard_applied_iff {old p : Planned} (h : standard environment old = .ok true)
    (hm : p.migration = old.migration) (hstatus : p.status = some .applied) :
    standard environment p = .ok true ↔ p.migration.parameters.run = .always := by
  obtain ⟨hignore, -, hhere⟩ := standard_eq_ok_true_iff.mp h
  rw [notIgnored_eq_ok_true_iff, ← hm, ← notIgnored_eq_ok_true_iff] at hignore
  rw [inEnvironment_eq_ok_true_iff, ← hm, ← inEnvironment_eq_ok_true_iff] at hhere
  rw [standard_eq_ok_true_iff, runs_eq_ok_true_iff hstatus]
  simp [hignore, hhere]

namespace Ran

theorem failed_eq_nil {planned : List Planned}
    (h : Ran schema environment never planned entries sent course first) :
    (reported course {}).failed = [] := by
  refine List.eq_nil_iff_forall_not_mem.mpr fun f hf => ?_
  obtain ⟨step, hstep, -, hfate⟩ := (mem_failed_reported course).mp hf
  cases h.fits step hstep with
  | skipped => cases hfate
  | executed => cases hfate
  | failed _ _ hfallible => exact not_fallible_never hfallible

variable (h : Ran schema environment mayFail (planOf entries ordered)
  (inPlace (texts ordered) entries) sent course first) (hd : (entries.map (·.name)).Nodup)
  (hn : (texts ordered).Nodup)

include h hn in
/-- A migration was executed if its name is reported so. -/
theorem executes_iff (hm : m ∈ ordered) : m.name ∈ (reported course {}).executed ↔
    ∃ step ∈ course, step.Executes ∧ step.planned.migration = m := by
  have hnames := h.nodup_names hn
  rw [executed_reported]
  constructor
  · intro hmem
    obtain ⟨step, hstep, rfl⟩ := h.exists_step hm
    exact ⟨step, hstep, Step.executes_iff.mpr ((name_mem_filter_iff hnames hstep).mp hmem), rfl⟩
  · rintro ⟨step, hstep, hexecutes, rfl⟩
    exact (name_mem_filter_iff hnames hstep).mpr (Step.executes_iff.mp hexecutes)

include h hd hn

theorem selected_after_iff (hm : m ∈ ordered) :
    Selected environment (written course (inPlace (texts ordered) entries)) m ↔
      m.name ∈ (reported course {}).failed.map (·.name) ∨
        m.name ∈ (reported course {}).executed ∧ m.parameters.run = .always := by
  by_cases hexecuted : m.name ∈ (reported course {}).executed
  · obtain ⟨step, hstep, hexecutes, rfl⟩ := (h.executes_iff hn hm).mp hexecuted
    have hunfailed : step.name ∉ (reported course {}).failed.map (·.name) := by
      obtain ⟨tick, hfate⟩ := hexecutes
      rw [failed_reported, name_mem_filter_iff (h.nodup_names hn) hstep, hfate]
      exact Bool.false_ne_true
    have hkept := (h.fits step hstep).kept hexecutes
    have hstatus := applied_after (i := 0) hd hn h.taken hstep hexecutes
    rw [← Sieve.standard_plannedIn_iff (i := 0) (h.taken.distinct hd hn),
      Sieve.standard_applied_iff hkept (by rfl) hstatus]
    exact ⟨fun halways => .inr ⟨hexecuted, halways⟩,
      fun hagain => (hagain.resolve_left hunfailed).2⟩
  · have hsame := (executed_or_selected_iff hd hn h.taken hm).resolve_left
      (mt (h.executes_iff hn hm).mpr hexecuted)
    rw [hsame, ← h.selected_iff hd hn hm]
    simp [hexecuted]

end Ran

/-! ## The entries that a second cycle leaves -/

/-- An entry is left as it was, or with another time if its migration was executed. -/
def Stays (executed : List Name) (later : List StoredEntry) (e : StoredEntry) : Prop :=
  (e.name ∉ executed.map Name.text → e ∈ later) ∧
    (e.name ∈ executed.map Name.text → ∃ time, { e with lastExecutedAt := time } ∈ later)

section Again

variable {found : List StoredEntry} {course' : List Step} {sent' : List Sent} {final : Watched}
  (h : Ran schema environment mayFail (planOf entries ordered) (inPlace (texts ordered) entries)
    sent course first)
  (hfound : found = written course (inPlace (texts ordered) entries))
  (h' : Ran schema environment never (planOf found ordered) (inPlace (texts ordered) found) sent'
    course' final)
  (hd : (entries.map (·.name)).Nodup) (hn : (texts ordered).Nodup)

include h hfound hd hn

/-- Nothing is selected again if nothing failed and nothing that was executed runs always. -/
theorem Ran.dropped_again (hfailed : (reported course {}).failed = [])
    (halways : ∀ m ∈ ordered, m.name ∈ (reported course {}).executed →
      m.parameters.run ≠ .always)
    (hpasses : ∀ p ∈ planOf found ordered, ∃ kept, Sieve.standard environment p = .ok kept) :
    ∀ p ∈ planOf found ordered, Sieve.standard environment p = .ok false := by
  intro p hp
  obtain ⟨kept, hkept⟩ := hpasses p hp
  cases kept with
  | false => exact hkept
  | true =>
    obtain ⟨m, hm, hpm⟩ := mem_planOf hp
    have hmigration : p.migration = m := congrArg Planned.migration hpm
    have hmem := List.mem_of_getElem? hm
    have hselected :=
      (Sieve.standard_planOf_iff (hfound ▸ h.taken.distinct hd hn) hp).mp hkept
    rw [hmigration, hfound, h.selected_after_iff hd hn hmem, hfailed] at hselected
    obtain hnone | ⟨hexecuted, hrun⟩ := hselected
    · cases hnone
    · exact absurd hrun (halways m hmem hexecuted)

include h'

theorem Ran.executed_again_iff (hm : m ∈ ordered) : m.name ∈ (reported course' {}).executed ↔
    m.name ∈ (reported course {}).failed.map (·.name) ∨
      m.name ∈ (reported course {}).executed ∧ m.parameters.run = .always := by
  have hd' : (found.map (·.name)).Nodup := hfound ▸ h.taken.distinct hd hn
  rw [← h.selected_after_iff hd hn hm, ← hfound, ← h'.selected_iff hd' hn hm, h'.failed_eq_nil]
  simp

variable (horder : InOrder (texts ordered) entries) {e : StoredEntry}

include horder

/-- An entry is left but for the time, unless its migration failed in the first cycle. -/
theorem Ran.stays_again (he : e ∈ found)
    (hfailed : e.name ∉ (reported course {}).failed.map (·.name.text)) :
    Stays (reported course' {}).executed (written course' (inPlace (texts ordered) found)) e := by
  have hd' : (found.map (·.name)).Nodup := hfound ▸ h.taken.distinct hd hn
  have hplaced : Placed (texts ordered) found := hfound ▸ h.taken.placed horder hd hn
  have hkept := (h'.mem_names_iff hd' hn).mpr (.inl (List.mem_map_of_mem he))
  obtain ⟨later, hlater, hname⟩ := List.mem_map.mp hkept
  obtain ⟨i, m, hm, hm', hleft⟩ := h'.leaves (hplaced.inOrder hn hd') hd' hn hlater
  have hem : e.name = m.name.text := hname.symm.trans hm'
  have hexecuted : e.name ∈ (reported course' {}).executed.map Name.text ↔
      m.name ∈ (reported course' {}).executed := by
    rw [hem]
    exact List.mem_map_of_injective fun _ _ hsame => Name.text_injective hsame
  have hsame : ∀ o ∈ found, o.name = m.name.text → o = e := fun o ho hoe =>
    List.inj_on_of_nodup_map hd' ho he (hoe.trans hem.symm)
  rw [Stays, hexecuted]
  rcases hleft with ⟨hagain, tick, created, rfl, hcreated⟩ | ⟨hnot, o, ho, hoe, rfl⟩
  · refine ⟨fun hnot => absurd hagain hnot, fun _ => ⟨Data.stamp tick, ?_⟩⟩
    -- the migration was executed before, so that the entry is of its making
    have hbefore : m.name ∈ (reported course {}).executed := by
      refine (((h.executed_again_iff hfound h' hd hn (List.mem_of_getElem? hm)).mp
        hagain).resolve_left fun hmem => hfailed ?_).1
      obtain ⟨f, hf, hname⟩ := List.mem_map.mp hmem
      rw [hem, ← hname]
      exact List.mem_map_of_mem hf
    obtain ⟨j, other, hj, hother, hmade⟩ := h.leaves horder hd hn (hfound ▸ he)
    obtain rfl : other = m := List.inj_on_of_nodup_map hn (List.mem_of_getElem? hj)
      (List.mem_of_getElem? hm) (hother.symm.trans hem)
    obtain rfl : j = i := (idxOf_texts hn hj).symm.trans (idxOf_texts hn hm)
    rcases hmade with ⟨-, past, made, rfl, -⟩ | ⟨hnot, -⟩
    · rcases hcreated with ⟨o, ho, hoe, rfl⟩ | ⟨hnew, -⟩
      · obtain rfl := hsame o ho hoe
        exact hlater
      · exact absurd (List.mem_map_of_mem he) hnew
    · exact absurd hbefore hnot
  · obtain rfl := hsame o ho hoe
    refine ⟨fun _ => ?_, fun hagain => absurd hagain hnot⟩
    have hrunOrder : o.runOrder = i := by rw [(hplaced o he).2, hem, idxOf_texts hn hm]
    rw [← hrunOrder] at hlater
    exact hlater

omit horder

theorem Ran.name_again {name : String}
    (hname : name ∈ (written course' (inPlace (texts ordered) found)).map (·.name)) :
    name ∈ found.map (·.name) ∨ name ∈ (reported course {}).failed.map (·.name.text) := by
  have hd' : (found.map (·.name)).Nodup := hfound ▸ h.taken.distinct hd hn
  rcases (h'.mem_names_iff hd' hn).mp hname with hold | hexecuted
  · exact .inl hold
  · obtain ⟨_, hagain, rfl⟩ := List.mem_map.mp hexecuted
    have hreported := hagain
    rw [executed_reported] at hreported
    obtain ⟨step, hstep, rfl⟩ := List.mem_map.mp hreported
    have hm := List.mem_of_getElem? (h'.taken.position (List.mem_of_mem_filter hstep))
    rcases (h.executed_again_iff hfound h' hd hn hm).mp hagain with hfailed | ⟨hbefore, -⟩
    · obtain ⟨f, hf, hname⟩ := List.mem_map.mp hfailed
      exact .inr (List.mem_map.mpr ⟨f, hf, congrArg Name.text hname⟩)
    · rw [hfound]
      exact .inl ((h.mem_names_iff hd hn).mpr (.inr (List.mem_map_of_mem hbefore)))

end Again

/-! ## The second cycle up to its renumbering -/

namespace Engine

variable {engine : Engine} {graph : MigrationGraph} {data : Data}
  (hdata : Carries engine.schema entries data) (hd : (entries.map (·.name)).Nodup)
  (hn : (texts graph.orderedMigrations).Nodup)
  (hplaced : Placed (texts graph.orderedMigrations) entries)

include hdata hd hn hplaced

/-- On entries in their places a cycle that has loaded the log finds the order valid, and has
nothing to renumber. -/
theorem validated_of_runs {furnished taken loaded : Watched} {log : Log}
    (hfurnish : Session.Runs (watching engine.schema mayFail) engine.furnish.run ⟨{ data }, sent⟩
      (some (.ok ())) furnished)
    (hacquire : Session.Runs (watching engine.schema mayFail)
      (Lock.acquire engine.schema engine.lock).run furnished (some (.ok ())) taken)
    (hload : Session.Runs (watching engine.schema mayFail) Store.load.run taken (some (.ok log))
      loaded) :
    validateOrder graph.orderedMigrations log = .ok (planOf entries graph.orderedMigrations) ∧
      renumber log (planOf entries graph.orderedMigrations) = pure log := by
  obtain ⟨data', hfurnished, rfl⟩ := serving_furnish.of_runs hfurnish
  obtain ⟨-, rfl⟩ | ⟨habsent, -⟩ := hfurnished
  · have hguard : unguarded.holds (logRows engine.schema data') := trivial
    obtain ⟨locked, rfl, hbeside⟩ :=
      (Lock.serving_acquire engine.lock hdata.lock hguard).of_runs hacquire
    have hlocked := hdata.beside hbeside
    have hguard' : unguarded.holds (logRows engine.schema locked) := trivial
    obtain ⟨-, hread⟩ := (Store.serving_load hlocked.hasLog hguard').of_runs hload
    have hmirror := mirrors_of_readIn hlocked.logRows hd hread
    exact ⟨(validateOrder_eq_ok_iff hmirror).mpr ⟨hplaced.inOrder hn hd, rfl⟩,
      renumber_of_placed hmirror hn hplaced⟩
  · cases habsent.symm.trans hdata.presence

/-! ## A second cycle with nothing to do -/

omit hdata hd hn hplaced in
theorem processAll_of_dropped {planned : List Planned}
    (h : ∀ p ∈ planned, Sieve.standard engine.environment p = .ok false) (progress : Progress) :
    engine.processAll progress planned =
      pure (planned.foldl (fun progress p => progress.skip p.migration.name) progress) := by
  induction planned generalizing progress with
  | nil => rfl
  | cons p rest ih =>
    obtain ⟨hp, hrest⟩ := List.forall_mem_cons.mp h
    have hskip : engine.process progress p = pure (progress.skip p.migration.name) := by
      rw [process, hp]
      rfl
    rw [processAll, hskip, pure_bind, ih hrest]
    rfl

variable (hdropped : ∀ p ∈ planOf entries graph.orderedMigrations,
  Sieve.standard engine.environment p = .ok false)

include hdropped

/-- Under the lock nothing is written where nothing is selected. -/
theorem quiet_of_runs_applyLocked {furnished taken worked : Watched × List Exchange}
    {outcome : Except CycleError Report}
    (hfurnish : Session.Runs (noted (watching engine.schema mayFail)) engine.furnish.run
      (⟨{ data }, sent⟩, []) (some (.ok ())) furnished)
    (hacquire : Session.Runs (noted (watching engine.schema mayFail))
      (Lock.acquire engine.schema engine.lock).run furnished (some (.ok ())) taken)
    (hlocked : Session.Runs (noted (watching engine.schema mayFail))
      (engine.applyLocked graph).run taken (some outcome) worked) :
    ∀ x ∈ worked.2, x.call.isWrite = false := by
  have hclean := clean_taking hfurnish.transcript hacquire.transcript
  have hquiet : ∀ {result t}, Session.Runs (noted (watching engine.schema mayFail)) Store.load.run
      taken (some result) t → ∀ x ∈ t.2, x.call.isWrite = false := fun hload =>
    (Store.quiet_load.of_runs hload.transcript (hclean.imp fun _ => Idle.isWrite)).each
  obtain ⟨log, t, hload, hrest⟩ | ⟨e, -, hload⟩ := cases_of_runs_bind hlocked
  · obtain ⟨hvalid, hsame⟩ :=
      validated_of_runs hdata hd hn hplaced hfurnish.known hacquire.known hload.known
    rw [hvalid] at hrest
    obtain ⟨_, hplan, hrest⟩ | ⟨e, herror, -⟩ := cases_of_runs_ofResult_bind hrest
    · cases hplan
      rw [hsame, pure_bind, processAll_of_dropped hdropped, pure_bind] at hrest
      split at hrest
      · cases hrest
        exact hquiet hload
      · cases hrest
        exact hquiet hload
    · cases herror
  · exact hquiet hload

theorem quiet_of_runs {result : Except CycleError Report} {final : Watched}
    {calls : List Exchange}
    (h : Session.Runs (noted (watching engine.schema mayFail)) (engine.apply graph).run
      (⟨{ data }, sent⟩, []) (some result) (final, calls)) :
    ∀ x ∈ calls, x.call.isWrite = false := by
  have hidle : ∀ {calls}, Clean Idle 0 calls → ∀ x ∈ calls, x.call.isWrite = false :=
    fun hclean x hx => (hclean.each x hx).isWrite
  cases stages_of_runs h with
  | unfurnished hfurnish => exact hidle (engine.clean_furnish.of_runs hfurnish.transcript .nil)
  | unheld hfurnish hacquire => exact hidle (clean_taking hfurnish.transcript hacquire.transcript)
  | held hfurnish hacquire hlocked hrelease =>
    have hquiet :=
      quiet_of_runs_applyLocked hdata hd hn hplaced hdropped hfurnish hacquire hlocked
    obtain ⟨reply, ⟨-, rfl⟩, -⟩ := Lock.of_runs_release hrelease
    exact List.forall_mem_append.mpr ⟨hquiet, List.forall_mem_singleton.mpr rfl⟩

end Engine

/-! ## The second cycle -/

/-- What a second cycle has done when no call of it failed, in terms of the first one's report. It
executes what failed and what runs always. -/
structure Repeated (schema : String) (graph : MigrationGraph) (report : Report) (next : Data)
    (again : Report) (final : Data) : Prop where
  failed : again.failed = []
  sublist : again.executed.Sublist graph.orderedNames
  executed : ∀ m ∈ graph.orderedMigrations, m.name ∈ again.executed ↔
    m.name ∈ report.failed.map (·.name) ∨
      m.name ∈ report.executed ∧ m.parameters.run = .always
  tabular : Tabular schema final
  stays : ∀ e ∈ storedEntries schema next, e.name ∉ report.failed.map (·.name.text) →
    Stays again.executed (storedEntries schema final) e
  names : ∀ e ∈ storedEntries schema final, e.name ∈ (storedEntries schema next).map (·.name) ∨
    e.name ∈ report.failed.map (·.name.text)

theorem Ran.repeated {migrations : List Migration} {graph : MigrationGraph}
    (hg : MigrationGraph.build migrations = .ok graph) {found : List StoredEntry} {next : Data}
    {course' : List Step} {sent' : List Sent} {final : Watched}
    (h : Ran schema environment mayFail (planOf entries graph.orderedMigrations)
      (inPlace (texts graph.orderedMigrations) entries) sent course first)
    (hfound : found = written course (inPlace (texts graph.orderedMigrations) entries))
    (hnext : storedEntries schema next = found)
    (h' : Ran schema environment never (planOf found graph.orderedMigrations)
      (inPlace (texts graph.orderedMigrations) found) sent' course' final)
    (hd : (entries.map (·.name)).Nodup) (horder : InOrder (texts graph.orderedMigrations) entries) :
    Repeated schema graph (reported course {}) next (reported course' {}) final.service.data := by
  have hn := nodup_texts hg
  have hd' : (found.map (·.name)).Nodup := hfound ▸ h.taken.distinct hd hn
  have hfinal := h'.carries.storedEntries
  refine ⟨h'.failed_eq_nil, ?_, ?_, ?_, ?_, ?_⟩
  · rw [executed_reported, ← (MigrationGraph.built_of_build hg).map_name_orderedMigrations]
    exact h'.filter_sublist _
  · exact fun m hm => h.executed_again_iff hfound h' hd hn hm
  · exact .of_logRows h'.carries.logRows (h'.taken.distinct hd' hn)
  · rw [hnext, hfinal]
    exact fun e he hfailed => h.stays_again hfound h' hd hn horder he hfailed
  · rw [hnext, hfinal]
    exact fun e he => h.name_again hfound h' hd hn (List.mem_map_of_mem he)

/-- On entries from which a cycle can be run, it can be had if no call fails, and succeeds. -/
theorem Resumable.succeeds {engine : Engine} {graph : MigrationGraph} {data : Data}
    (h : Resumable engine.environment graph.orderedMigrations entries)
    (hdata : Carries engine.schema entries data) (hn : (texts graph.orderedMigrations).Nodup)
    (hclear : LockClear engine.schema data) (more : List Sent) :
    (∃ again final, Session.Runs (watching engine.schema never) (engine.apply graph).run
      ⟨{ data }, more⟩ (some again) final) ∧
    ∀ again final, Session.Runs (watching engine.schema never) (engine.apply graph).run
      ⟨{ data }, more⟩ (some again) final → ∃ report, again = .ok report := by
  obtain ⟨lines, hlines⟩ := h.exists_lines hdata.logRows hdata.presence
  have hagain : Meets (serving engine.schema never _) _ _ (engine.apply graph)
      ⟨{ data }, more⟩ := Engine.serving_apply_of_lines
    (.of_logRows hdata.logRows h.distinct) hn (fun _ => hclear) hlines
  refine ⟨?_, fun again final hruns => ?_⟩
  · obtain ⟨again, final, hruns, -⟩ := exists_runs hagain
    exact ⟨again, final, hruns⟩
  · have hend := hagain.of_runs hruns
    cases again with
    | ok report => exact ⟨report, rfl⟩
    | error e => exact hend.elim

/-- A cycle that is run again after one that returned a report, while nobody touched the control
tables. Once it has loaded the log, it finds the order valid and renumbers nothing. The lock is
clear, and the log can be read if positions are numbers of 64 bits; then the cycle succeeds if no
call of it fails. It executes what failed in the first cycle and what was executed there and runs
always, and leaves the other entries as they are. If there is nothing of both kinds, it sends no
statement of a migration and writes nothing to the log, whatever calls fail. -/
theorem repetition_outcome {migrations : List Migration} {graph : MigrationGraph}
    (hg : MigrationGraph.build migrations = .ok graph) {engine : Engine} {data : Data}
    (htab : Tabular engine.schema data) {sent : List Sent} {report : Report} {first : Watched}
    (hr : Session.Runs (watching engine.schema anyCall) (engine.apply graph).run ⟨{ data }, sent⟩
      (some (.ok report)) first)
    {next : Data} (hnext : SameTables engine.schema first.service.data next) (more : List Sent) :
    (∀ furnished taken loaded log,
      Session.Runs (watching engine.schema anyCall) engine.furnish.run ⟨{ data := next }, more⟩
        (some (.ok ())) furnished →
      Session.Runs (watching engine.schema anyCall) (Lock.acquire engine.schema engine.lock).run
        furnished (some (.ok ())) taken →
      Session.Runs (watching engine.schema anyCall) Store.load.run taken (some (.ok log)) loaded →
      ∃ planned, validateOrder graph.orderedMigrations log = .ok planned ∧
        Engine.renumber log planned = pure log) ∧
    LockClear engine.schema next ∧
    (graph.orderedMigrations.length ≤ 2 ^ 63 → ∃ log, Store.readIn engine.schema next = .ok log) ∧
    (∀ log, Store.readIn engine.schema next = .ok log →
      (∃ again final, Session.Runs (watching engine.schema never) (engine.apply graph).run
        ⟨{ data := next }, more⟩ (some again) final) ∧
      ∀ again final, Session.Runs (watching engine.schema never) (engine.apply graph).run
        ⟨{ data := next }, more⟩ (some again) final → ∃ report, again = .ok report) ∧
    (∀ again final, Session.Runs (watching engine.schema never) (engine.apply graph).run
        ⟨{ data := next }, more⟩ (some (.ok again)) final →
      Repeated engine.schema graph report next again final.service.data) ∧
    (report.failed = [] →
      (∀ m ∈ graph.orderedMigrations, m.name ∈ report.executed → m.parameters.run ≠ .always) →
      ∀ result final calls, Session.Runs (noted (watching engine.schema anyCall))
        (engine.apply graph).run (⟨{ data := next }, more⟩, []) (some result) (final, calls) →
      ∀ x ∈ calls, x.call.isWrite = false) := by
  have hn := nodup_texts hg
  obtain ⟨course, horder, hforesee, hran, rfl⟩ := (Engine.serving_apply htab hn).of_runs hr
  have hstart := Resumable.of_ran htab horder hforesee hran
  have hd := htab.distinct
  -- the second cycle finds the entries that the first one left, each in its place
  generalize hfound : written course
    (inPlace (texts graph.orderedMigrations) (storedEntries engine.schema data)) = found
  have hdistinct : (found.map (·.name)).Nodup := hfound ▸ hran.taken.distinct hd hn
  have hplaced : Placed (texts graph.orderedMigrations) found :=
    hfound ▸ hran.taken.placed horder hd hn
  have hdata : Carries engine.schema found next := hfound ▸ hran.carries.sameTables hnext
  have hentries := hdata.storedEntries
  have hpasses := standard_after hd hn hran.taken hstart.passes
  rw [hfound] at hpasses
  have hclear : LockClear engine.schema next := by
    obtain ⟨row, rest, hlock⟩ := Engine.lockClear_of_runs hr.service
    exact ⟨row, rest, (hnext .lock).trans hlock⟩
  refine ⟨?_, hclear, ?_, ?_, ?_, ?_⟩
  · intro furnished taken loaded log hfurnish hacquire hload
    exact ⟨_, Engine.validated_of_runs hdata hdistinct hn hplaced hfurnish hacquire hload⟩
  · intro hsize
    have hleft := hstart.after hn hsize hran.taken
    rw [hfound] at hleft
    exact (exists_readIn_iff hdata.logRows).mpr hleft.readable
  · intro log hread
    have hreadable := (exists_readIn_iff hdata.logRows).mp ⟨log, hread⟩
    have hleft : Resumable engine.environment graph.orderedMigrations found :=
      ⟨hdistinct, hplaced.inOrder hn hdistinct, hreadable, hpasses⟩
    exact hleft.succeeds hdata hn hclear more
  · intro again final hruns
    obtain ⟨course', -, -, hran', rfl⟩ := (Engine.serving_apply
      (.of_logRows hdata.logRows hdistinct) hn).of_runs hruns
    rw [hentries] at hran'
    exact hran.repeated hg hfound.symm hentries hran' hd horder
  · intro hfailed halways result final calls hruns
    exact Engine.quiet_of_runs hdata hdistinct hn hplaced
      (hran.dropped_again hfound.symm hd hn hfailed halways hpasses) hruns

/-- A cycle in which one migration failed, run twice: the second one executes that one and again the
one that runs always, and leaves the entries of the others. -/
theorem repetition_outcome_shop :
    ∃ data report first again final,
      Session.Runs (watching "ordo" anyCall) (Shop.engine.apply Shop.grown).run ⟨{ data }, []⟩
        (some (.ok report)) first ∧
      report.executed = [Shop.orders.name, Shop.views.name] ∧
      report.failed.map (·.name) = [Shop.backfill.name] ∧
      Session.Runs (watching "ordo" never) (Shop.engine.apply Shop.grown).run
        ⟨{ data := first.service.data }, []⟩ (some (.ok again)) final ∧
      again.executed = [Shop.backfill.name, Shop.views.name] ∧ again.failed = [] ∧
      (storedEntries "ordo" first.service.data).map (·.name) = ["accounts", "views", "orders"] ∧
      ∀ e ∈ storedEntries "ordo" first.service.data, e.name ≠ "views" →
        e ∈ storedEntries "ordo" final.service.data := by
  obtain ⟨data, hstocked⟩ := Shop.exists_stocked
  obtain ⟨prepared, opened, report, first, hopening, hclosing, hexecuted, -, hfailed, hnames⟩ :=
    hstocked.exists_late anyCall true fun _ _ _ => trivial
  simp only [if_true] at hexecuted hfailed hnames
  have hfirst := Engine.runs_halves hopening hclosing
  obtain ⟨-, -, hread, hsucceeds, hrepeated, -⟩ :=
    repetition_outcome Shop.build_grown hstocked.tabular hfirst (.refl first.service.data) []
  obtain ⟨log, hlog⟩ := hread Shop.length_grown_le
  obtain ⟨⟨result, final, hagain⟩, hok⟩ := hsucceeds log hlog
  obtain ⟨again, rfl⟩ := hok result final hagain
  have h := hrepeated again final hagain
  -- of the sublists of the four names there is one with these members
  have honly : ∀ names ∈ Shop.grown.orderedNames.sublists,
      (∀ m ∈ Shop.grown.orderedMigrations, m.name ∈ names ↔
        m.name ∈ [Shop.backfill.name] ∨
          m.name ∈ [Shop.orders.name, Shop.views.name] ∧ m.parameters.run = .always) →
      names = [Shop.backfill.name, Shop.views.name] := by
    decide
  have hmembers := h.executed
  rw [hexecuted, hfailed] at hmembers
  have hlast := honly again.executed (List.mem_sublists.mpr h.sublist) hmembers
  refine ⟨data, report, first, again, final, hfirst, hexecuted, hfailed, hagain, hlast, h.failed,
    hnames, fun e he hviews => ?_⟩
  have hname : e.name ∈ ["accounts", "views", "orders"] := hnames ▸ List.mem_map_of_mem he
  have hfailed' : report.failed.map (·.name.text) = ["backfill"] := by
    have htexts := congrArg (List.map Name.text) hfailed
    rw [List.map_map] at htexts
    exact htexts
  have hother : e.name ≠ "backfill" := by
    intro hbackfill
    rw [hbackfill] at hname
    simp at hname
  refine (h.stays e he ?_).1 ?_
  · rw [hfailed', List.mem_singleton]
    exact hother
  · rw [hlast]
    simp [Shop.backfill, Shop.views, Migration.bare, hother, hviews]

end SchemaMigration
