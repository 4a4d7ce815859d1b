import SchemaMigration.Proofs.Cycle.Enactment

/-!
# SchemaMigration.Proofs.Cycle.Resumption

A cycle that stopped somewhere, and the cycle that is run after it.

* `timeless`, `withoutTimes` : an entry, and a row of the log, without the two times.
* `Settled` : the timeless entries that a cycle leaves when no call fails.
* `plannedIn_after`, `applied_after` : what a stopped cycle leaves of the plan.
* `settled_after_iff` : a cycle settles the same entries before and after a stopped one.

`resumption_completes` : a cycle that stopped anywhere can be resumed, and the log is then the same
as without the interruption.
-/

namespace SchemaMigration

open Sql Database Attempt

def StoredEntry.timeless (e : StoredEntry) : StoredEntry :=
  { e with createdAt := .null, lastExecutedAt := .null }

/-- A row of the log without the times of its creation and its last execution. -/
def withoutTimes (row : List Cell) : List Cell := (row.set 6 .null).set 7 .null

/-- The timeless entries that a cycle leaves when no call fails: new ones of the migrations that
are selected, and the others in their places. -/
def Settled (environment : Option String) (ordered : List Migration) (entries : List StoredEntry)
    (t : StoredEntry) : Prop :=
  (∃ (i : Nat) (m : Migration), ordered[i]? = some m ∧ Selected environment entries m ∧
    t = .ofMigration m i .null .null) ∨
  ∃ e ∈ inPlace (texts ordered) entries, e.timeless = t ∧
    ∀ m ∈ ordered, Selected environment entries m → m.name.text ≠ e.name

variable {environment : Option String} {mayFail : Call → Prop} {ordered : List Migration}
  {entries : List StoredEntry} {course : List Step} {step : Step} {schema : String}

/-! ## What a whole cycle leaves -/

theorem Step.Writes.timeless_eq {e : StoredEntry} (h : step.Writes entries e) :
    e.timeless = .ofMigration step.planned.migration step.planned.actualOrder .null .null := by
  obtain ⟨tick, created, -, rfl, -⟩ := h
  rfl

theorem Course.selected (h : Course environment mayFail (planOf entries ordered) course)
    (hd : (entries.map (·.name)).Nodup) (hstep : step ∈ course) (he : step.Executes) :
    Selected environment entries step.planned.migration :=
  (Sieve.standard_planOf_iff hd (h.along.subset (List.mem_map_of_mem hstep))).mp
    ((h.fits step hstep).kept he)

theorem Ran.mem_timeless_iff {sent : List Sent} {final : Watched}
    (h : Ran schema environment never (planOf entries ordered) (inPlace (texts ordered) entries)
      sent course final)
    (hd : (entries.map (·.name)).Nodup) (hn : (texts ordered).Nodup) {t : StoredEntry} :
    t ∈ (written course (inPlace (texts ordered) entries)).map StoredEntry.timeless ↔
      Settled environment ordered entries t := by
  have hexecuted : ∀ (i : Nat) (m : Migration), ordered[i]? = some m →
      Selected environment entries m →
      ∃ step ∈ course, step.Executes ∧ step.planned = plannedIn entries m i := by
    intro i m hm hselected
    have hplan : plannedIn entries m i ∈ planOf entries ordered := plannedIn_mem_planOf hm
    rw [← h.whole] at hplan
    obtain ⟨step, hstep, hplanned⟩ := List.mem_map.mp hplan
    have hkept := (Sieve.standard_plannedIn_iff (i := i) hd).mpr hselected
    rw [← hplanned] at hkept
    exact ⟨step, hstep, (h.fits step hstep).executes hkept, hplanned⟩
  simp only [List.mem_map, mem_written_iff (h.taken.tracked hd hn)]
  constructor
  · rintro ⟨e, ⟨step, hstep, hwrites⟩ | ⟨hold, hfree⟩, rfl⟩
    · have hselected := h.taken.selected hd hstep hwrites.executes
      exact .inl ⟨_, _, h.taken.position hstep, hselected, hwrites.timeless_eq⟩
    · refine .inr ⟨e, hold, rfl, fun m hm hselected => ?_⟩
      obtain ⟨i, hi⟩ := List.getElem?_of_mem hm
      obtain ⟨step, hstep, hexecutes, hplanned⟩ := hexecuted i m hi hselected
      have hname : step.name = m.name := congrArg (·.migration.name) hplanned
      rw [← hname]
      exact hfree step hstep hexecutes
  · rintro (⟨i, m, hm, hselected, rfl⟩ | ⟨e, he, rfl, hfree⟩)
    · obtain ⟨step, hstep, hexecutes, hplanned⟩ := hexecuted i m hm hselected
      obtain ⟨e, hwrites⟩ := hexecutes.exists_writes (inPlace (texts ordered) entries)
      refine ⟨e, .inl ⟨step, hstep, hwrites⟩, ?_⟩
      rw [hwrites.timeless_eq, hplanned]
      rfl
    · refine ⟨e, .inr ⟨he, fun step hstep hexecutes => ?_⟩, rfl⟩
      have hmem := List.mem_of_getElem? (h.taken.position hstep)
      exact hfree _ hmem (h.taken.selected hd hstep hexecutes)

/-! ## What a stopped cycle leaves of the plan -/

theorem plannedIn_congr {entries' : List StoredEntry} {m : Migration}
    (h : (entryOf? entries' m.name.text).map (·.hash) = (entryOf? entries m.name.text).map (·.hash))
    (i : Nat) : plannedIn entries' m i = plannedIn entries m i := by
  rw [plannedIn, plannedIn]
  cases hnew : entryOf? entries' m.name.text with
  | none =>
    rw [hnew, Option.map_none, eq_comm, Option.map_eq_none_iff] at h
    rw [h]
  | some e' =>
    rw [hnew, Option.map_some, eq_comm, Option.map_eq_some_iff] at h
    obtain ⟨e, he, hhash⟩ := h
    rw [he, RunStatus.ofStored, RunStatus.ofStored, hhash]
    rfl

theorem entryOf?_inPlace (names : List String) (entries : List StoredEntry) (name : String) :
    entryOf? (inPlace names entries) name =
      (entryOf? entries name).map fun e => { e with runOrder := names.idxOf e.name } := by
  rw [entryOf?, inPlace, List.find?_map]
  rfl

theorem Placed.inPlace_eq {names : List String} (h : Placed names entries) :
    inPlace names entries = entries := by
  refine (List.map_congr_left fun e he => ?_).trans (List.map_id entries)
  rw [← (h e he).2, id]

section After

variable (hd : (entries.map (·.name)).Nodup) (hn : (texts ordered).Nodup)
  (hcourse : Course environment mayFail (planOf entries ordered) course) {m : Migration} {i : Nat}

include hd hn hcourse

/-- A migration that no step executed stands as it stood. -/
theorem plannedIn_after (hm : m ∈ ordered)
    (hfree : ∀ step ∈ course, step.Executes → step.planned.migration ≠ m) :
    plannedIn (written course (inPlace (texts ordered) entries)) m i = plannedIn entries m i := by
  have hname : ∀ step ∈ course, step.Executes → step.name.text ≠ m.name.text := by
    intro step hstep hexecutes hname
    have hmem := List.mem_of_getElem? (hcourse.position hstep)
    exact hfree step hstep hexecutes (List.inj_on_of_nodup_map hn hmem hm hname)
  have hmoved : ((inPlace (texts ordered) entries).map (·.name)).Nodup := by
    rw [names_inPlace]
    exact hd
  have hentry : entryOf? (written course (inPlace (texts ordered) entries)) m.name.text =
      entryOf? (inPlace (texts ordered) entries) m.name.text := by
    refine Option.ext fun e => ?_
    rw [entryOf?_eq_some_iff (hcourse.distinct hd hn), entryOf?_eq_some_iff hmoved,
      mem_written_iff (hcourse.tracked hd hn)]
    constructor
    · rintro ⟨⟨step, hstep, hwrites⟩ | ⟨hold, -⟩, he⟩
      · exact absurd (hwrites.name_eq.symm.trans he) (hname step hstep hwrites.executes)
      · exact ⟨hold, he⟩
    · rintro ⟨hold, he⟩
      exact ⟨.inr ⟨hold, fun step hstep hexecutes => he ▸ hname step hstep hexecutes⟩, he⟩
  refine plannedIn_congr ?_ i
  rw [hentry, entryOf?_inPlace, Option.map_map]
  rfl

theorem applied_after (hstep : step ∈ course) (he : step.Executes) :
    (plannedIn (written course (inPlace (texts ordered) entries)) step.planned.migration i).status =
      some .applied := by
  obtain ⟨e, hwrites⟩ := he.exists_writes (inPlace (texts ordered) entries)
  have hmem := (mem_written_iff (hcourse.tracked hd hn)).mpr (.inl ⟨step, hstep, hwrites⟩)
  have hentry := (entryOf?_eq_some_iff (hcourse.distinct hd hn)).mpr ⟨hmem, hwrites.name_eq⟩
  have hhash : e.hash = step.planned.migration.hash := by
    obtain ⟨tick, created, -, rfl, -⟩ := hwrites
    rfl
  show some (RunStatus.ofStored step.planned.migration (entryOf? _ step.name.text)) = some .applied
  rw [hentry, RunStatus.ofStored, if_pos hhash]

theorem executed_or_unchanged (hm : m ∈ ordered) :
    (∃ step ∈ course, step.Executes ∧ step.planned.migration = m) ∨
      plannedIn (written course (inPlace (texts ordered) entries)) m i = plannedIn entries m i := by
  by_cases hexecuted : ∃ step ∈ course, step.Executes ∧ step.planned.migration = m
  · exact .inl hexecuted
  · refine .inr (plannedIn_after hd hn hcourse hm fun step hstep hexecutes heq => ?_)
    exact hexecuted ⟨step, hstep, hexecutes, heq⟩

theorem executed_or_selected_iff (hm : m ∈ ordered) :
    (∃ step ∈ course, step.Executes ∧ step.planned.migration = m) ∨
      (Selected environment (written course (inPlace (texts ordered) entries)) m ↔
        Selected environment entries m) := by
  refine (executed_or_unchanged (i := 0) hd hn hcourse hm).imp_right fun hsame => ?_
  rw [← Sieve.standard_plannedIn_iff (i := 0) (hcourse.distinct hd hn), hsame,
    Sieve.standard_plannedIn_iff hd]

/-- The sieves object to a migration after a stopped cycle only if they did before. -/
theorem standard_after
    (h : ∀ p ∈ planOf entries ordered, ∃ kept, Sieve.standard environment p = .ok kept) :
    ∀ p ∈ planOf (written course (inPlace (texts ordered) entries)) ordered,
      ∃ kept, Sieve.standard environment p = .ok kept := by
  intro p hp
  obtain ⟨m, hm, hpm⟩ := mem_planOf hp
  rw [hpm]
  rcases executed_or_unchanged hd hn hcourse (List.mem_of_getElem? hm) with
    ⟨step, hstep, hexecutes, rfl⟩ | hsame
  · exact Sieve.standard_of_applied ((hcourse.fits step hstep).kept hexecutes) rfl
      (applied_after hd hn hcourse hstep hexecutes)
  · rw [hsame]
    exact h _ (plannedIn_mem_planOf hm)

variable {t : StoredEntry}

theorem Settled.of_after (horder : InOrder (texts ordered) entries)
    (h : Settled environment ordered (written course (inPlace (texts ordered) entries)) t) :
    Settled environment ordered entries t := by
  rw [Settled, (hcourse.placed horder hd hn).inPlace_eq] at h
  rcases h with ⟨i, m, hm, hagain, rfl⟩ | ⟨e, he, rfl, hfree⟩
  · refine .inl ⟨i, m, hm, ?_, rfl⟩
    rcases executed_or_selected_iff hd hn hcourse (List.mem_of_getElem? hm) with
      ⟨step, hstep, hexecutes, rfl⟩ | hsame
    · exact hcourse.selected hd hstep hexecutes
    · exact hsame.mp hagain
  · rcases (mem_written_iff (hcourse.tracked hd hn)).mp he with
      ⟨step, hstep, hwrites⟩ | ⟨hold, huntouched⟩
    · exact .inl ⟨_, _, hcourse.position hstep, hcourse.selected hd hstep hwrites.executes,
        hwrites.timeless_eq⟩
    · refine .inr ⟨e, hold, rfl, fun m hm hselected => ?_⟩
      rcases executed_or_selected_iff hd hn hcourse hm with ⟨step, hstep, hexecutes, rfl⟩ | hsame
      · exact huntouched step hstep hexecutes
      · exact hfree m hm (hsame.mpr hselected)

theorem Settled.after (horder : InOrder (texts ordered) entries)
    (h : Settled environment ordered entries t) :
    Settled environment ordered (written course (inPlace (texts ordered) entries)) t := by
  have hwritten := @mem_written_iff _ _ (hcourse.tracked hd hn)
  have hmem : ∀ step ∈ course, step.planned.migration ∈ ordered := fun step hstep =>
    List.mem_of_getElem? (hcourse.position hstep)
  rw [Settled, (hcourse.placed horder hd hn).inPlace_eq]
  rcases h with ⟨i, m, hm, hselected, rfl⟩ | ⟨e, he, rfl, hfree⟩
  · by_cases hagain : Selected environment (written course (inPlace (texts ordered) entries)) m
    · exact .inl ⟨i, m, hm, hagain, rfl⟩
    rcases executed_or_selected_iff hd hn hcourse (List.mem_of_getElem? hm) with
      ⟨step, hstep, hexecutes, rfl⟩ | hsame
    · -- the stopped cycle has written the entry, and it is not written again
      have hindex : i = step.planned.actualOrder :=
        (idxOf_texts hn hm).symm.trans (idxOf_texts hn (hcourse.position hstep))
      obtain ⟨e, hwrites⟩ := hexecutes.exists_writes (inPlace (texts ordered) entries)
      have he := hwritten.mpr (.inl ⟨step, hstep, hwrites⟩)
      refine .inr ⟨e, he, ?_, fun m' hm' hagain' hname => ?_⟩
      · rw [hindex, hwrites.timeless_eq]
      · rw [hwrites.name_eq] at hname
        have hsame : m' = step.planned.migration :=
          List.inj_on_of_nodup_map hn hm' (hmem step hstep) hname
        exact hagain (hsame ▸ hagain')
    · exact absurd (hsame.mpr hselected) hagain
  · have huntouched : ∀ step ∈ course, step.Executes → step.name.text ≠ e.name := by
      intro step hstep hexecutes
      exact hfree _ (hmem step hstep) (hcourse.selected hd hstep hexecutes)
    refine .inr ⟨e, hwritten.mpr (.inr ⟨he, huntouched⟩), rfl, fun m hm hagain => ?_⟩
    rcases executed_or_selected_iff hd hn hcourse hm with ⟨step, hstep, hexecutes, rfl⟩ | hsame
    · exact huntouched step hstep hexecutes
    · exact hfree m hm (hsame.mp hagain)

theorem settled_after_iff (horder : InOrder (texts ordered) entries) :
    Settled environment ordered (written course (inPlace (texts ordered) entries)) t ↔
      Settled environment ordered entries t :=
  ⟨Settled.of_after hd hn hcourse horder, Settled.after hd hn hcourse horder⟩

end After

/-! ## Resuming -/

/-- Entries on which a cycle succeeds when no call fails. -/
structure Resumable (environment : Option String) (ordered : List Migration)
    (entries : List StoredEntry) : Prop where
  distinct : (entries.map (·.name)).Nodup
  inOrder : InOrder (texts ordered) entries
  readable : ∀ e ∈ entries, Readable e
  passes : ∀ p ∈ planOf entries ordered, ∃ kept, Sieve.standard environment p = .ok kept

namespace Resumable

variable (h : Resumable environment ordered entries) (hn : (texts ordered).Nodup)

include h hn

/-- Entries stay so after any steps. -/
theorem after (hsize : ordered.length ≤ 2 ^ 63)
    (hcourse : Course environment mayFail (planOf entries ordered) course) :
    Resumable environment ordered (written course (inPlace (texts ordered) entries)) where
  distinct := hcourse.distinct h.distinct hn
  inOrder := (hcourse.placed h.inOrder h.distinct hn).inOrder hn (hcourse.distinct h.distinct hn)
  readable := hcourse.readable h.distinct hn hsize h.readable fun _ he => h.inOrder.mem he
  passes := standard_after h.distinct hn hcourse h.passes

/-- They stay so wherever a cycle stops, and what a cycle settles stays the same. -/
theorem reached (hsize : ordered.length ≤ 2 ^ 63) {rows : List (List Cell)}
    (hr : Reached environment mayFail ordered entries rows) :
    ∃ left : List StoredEntry, rows = left.map StoredEntry.cells ∧
      Resumable environment ordered left ∧
      ∀ t, Settled environment ordered left t ↔ Settled environment ordered entries t := by
  rcases hr with rfl | ⟨course, horder, hcourse, rfl⟩
  · exact ⟨entries, rfl, h, fun t => Iff.rfl⟩
  · exact ⟨_, rfl, h.after hn hsize hcourse, fun t =>
      settled_after_iff h.distinct hn hcourse horder⟩

omit h hn

theorem exists_lines {engine : Engine} {graph : MigrationGraph} {data : Data} {present : Bool}
    (h : Resumable engine.environment graph.orderedMigrations entries)
    (hrows : logRows engine.schema data = entries.map StoredEntry.cells)
    (hpresent : presence engine.schema data = .ok present) :
    ∃ lines, engine.prognosis graph data = .ok lines := by
  have hforesee := foresee_of_readable hrows h.distinct h.readable h.inOrder hpresent
  have hlines : engine.planEntries (planOf entries graph.orderedMigrations) = _ :=
    Engine.planEntries_eq_ok h.passes
  rw [Engine.prognosis, hforesee]
  exact ⟨_, hlines⟩

end Resumable

/-- What a cycle without failing calls has started from. -/
theorem Resumable.of_ran {graph : MigrationGraph} {data : Data} {planned : List Planned}
    {sent : List Sent} {final : Watched} (htab : Tabular schema data)
    (horder : InOrder (texts ordered) (storedEntries schema data))
    (hforesee : foresee schema graph data = .ok planned)
    (hran : Ran schema environment mayFail (planOf (storedEntries schema data) ordered)
      (inPlace (texts ordered) (storedEntries schema data)) sent course final) :
    Resumable environment ordered (storedEntries schema data) := by
  refine ⟨htab.distinct, horder, ?_, fun p hp => ?_⟩
  · exact (exists_readIn_iff (map_cells_storedEntries htab.shape)).mp
      (exists_readIn_of_foresee hforesee)
  · rw [← hran.whole] at hp
    obtain ⟨step, hstep, rfl⟩ := List.mem_map.mp hp
    exact (hran.fits step hstep).standard

theorem map_withoutTimes (entries : List StoredEntry) :
    (entries.map StoredEntry.cells).map withoutTimes =
      (entries.map StoredEntry.timeless).map StoredEntry.cells := by
  rw [List.map_map, List.map_map]
  rfl

theorem nodup_timeless (h : (entries.map (·.name)).Nodup) :
    (entries.map StoredEntry.timeless).Nodup := by
  refine List.Nodup.of_map (·.name) ?_
  rw [List.map_map]
  exact h

/-- Cycles that settle the same entries leave the same rows but for their times. -/
theorem Ran.perm_withoutTimes {left : List StoredEntry} {course' : List Step}
    {sent sent' : List Sent} {final final' : Watched}
    (h : Ran schema environment never (planOf entries ordered) (inPlace (texts ordered) entries)
      sent course final)
    (h' : Ran schema environment never (planOf left ordered) (inPlace (texts ordered) left)
      sent' course' final')
    (hd : (entries.map (·.name)).Nodup) (hd' : (left.map (·.name)).Nodup)
    (hn : (texts ordered).Nodup)
    (hsettled : ∀ t, Settled environment ordered left t ↔ Settled environment ordered entries t) :
    ((logRows schema final'.service.data).map withoutTimes).Perm
      ((logRows schema final.service.data).map withoutTimes) := by
  rw [h.carries.logRows, h'.carries.logRows, map_withoutTimes, map_withoutTimes]
  have hnodup := nodup_timeless (h.taken.distinct hd hn)
  have hnodup' := nodup_timeless (h'.taken.distinct hd' hn)
  refine List.Perm.map _ ((List.perm_ext_iff_of_nodup hnodup' hnodup).mpr fun t => ?_)
  rw [h'.mem_timeless_iff hd' hn, h.mem_timeless_iff hd hn]
  exact hsettled t

/-- A cycle without failing calls that starts with both control tables and succeeds might instead
have stopped anywhere, by whatever failures. Once the lock is clear, the cycle can be run again on
the log that was left; it succeeds if no call fails, and its log has the rows of the one that was
not interrupted, but for the two times. Positions are numbers of 64 bits. -/
theorem resumption_completes {migrations : List Migration} {graph : MigrationGraph}
    (hg : MigrationGraph.build migrations = .ok graph)
    (hsize : graph.orderedMigrations.length ≤ 2 ^ 63) {engine : Engine} {data : Data}
    (htab : Tabular engine.schema data) (hpresent : presence engine.schema data = .ok true)
    {sent sent' : List Sent} {report : Report} {full : Watched}
    (hfull : Session.Runs (watching engine.schema never) (engine.apply graph).run ⟨{ data }, sent⟩
      (some (.ok report)) full)
    {result : Option (Except CycleError Report)} {stopped : Watched}
    (hstop : Session.Runs (watching engine.schema anyCall) (engine.apply graph).run
      ⟨{ data }, sent'⟩ result stopped)
    {resumed : Data} (hlog : resumed.rows? (ControlTable.log.inSchema engine.schema) =
      stopped.service.data.rows? (ControlTable.log.inSchema engine.schema))
    (hclear : LockClear engine.schema resumed) (more : List Sent) :
    (∃ last final, Session.Runs (watching engine.schema never) (engine.apply graph).run
      ⟨{ data := resumed }, more⟩ (some last) final) ∧
    ∀ last final, Session.Runs (watching engine.schema never) (engine.apply graph).run
        ⟨{ data := resumed }, more⟩ (some last) final →
      (∃ report, last = .ok report) ∧
      ((logRows engine.schema final.service.data).map withoutTimes).Perm
        ((logRows engine.schema full.service.data).map withoutTimes) := by
  have hn := nodup_texts hg
  obtain ⟨course, horder, hforesee, hran, -⟩ := (Engine.serving_apply htab hn).of_runs hfull
  have hstart := Resumable.of_ran htab horder hforesee hran
  -- where the interrupted cycle left the log
  obtain ⟨left, hrows, hleft, hsettled⟩ :=
    hstart.reached hn hsize (Engine.reached_of_runs htab hn hstop)
  have hrows' : logRows engine.schema resumed = left.map StoredEntry.cells := by
    rw [← hrows, logRows, hlog, logRows]
  have hentries : storedEntries engine.schema resumed = left := storedEntries_of_logRows hrows'
  have hpresent' : presence engine.schema resumed = .ok true := by
    have hkept := hasLog_of_runs hstop (presence_eq_ok_true hpresent).1
    obtain ⟨row, rest, hlock⟩ := hclear
    rw [hasLog, ← hlog] at hkept
    rw [presence, hkept, hlock]
    rfl
  obtain ⟨lines, hlines⟩ := hleft.exists_lines hrows' hpresent'
  have hagain : Meets (serving engine.schema never _) _ _ (engine.apply graph)
      ⟨{ data := resumed }, more⟩ :=
    Engine.serving_apply_of_lines (.of_logRows hrows' hleft.distinct) hn (fun _ => hclear) hlines
  rw [hentries] at hagain
  refine ⟨?_, fun last final hlast => ?_⟩
  · obtain ⟨last, final, hruns, -⟩ := exists_runs hagain
    exact ⟨last, final, hruns⟩
  · have hend := Session.Meets.of_runs hagain hlast
    cases last with
    | error e => exact hend.elim
    | ok report =>
      obtain ⟨course', hran'⟩ := hend
      exact ⟨⟨report, rfl⟩, hran.perm_withoutTimes hran' htab.distinct hleft.distinct hn hsettled⟩

/-- A second cycle with three migrations to execute, which is cut off after the first one of them
and leaves the lock set. When the lock has been cleared the cycle is run again, and the log is that
of the cycle which was not cut off. -/
theorem resumption_completes_shop :
    ∃ data report full stopped resumed last final,
      Session.Runs (watching "ordo" never) (Shop.engine.apply Shop.grown).run ⟨{ data }, []⟩
        (some (.ok report)) full ∧
      report.executed = [Shop.orders.name, Shop.backfill.name, Shop.views.name] ∧
      Session.Runs (watching "ordo" anyCall) (Shop.engine.apply Shop.grown).run ⟨{ data }, []⟩
        none stopped ∧
      (storedEntries "ordo" data).map (·.name) = ["accounts", "views"] ∧
      (storedEntries "ordo" stopped.service.data).map (·.name) =
        ["accounts", "views", "orders"] ∧
      logRows "ordo" resumed = logRows "ordo" stopped.service.data ∧ LockClear "ordo" resumed ∧
      Session.Runs (watching "ordo" never) (Shop.engine.apply Shop.grown).run
        ⟨{ data := resumed }, []⟩ (some (.ok last)) final ∧
      ((logRows "ordo" final.service.data).map withoutTimes).Perm
        ((logRows "ordo" full.service.data).map withoutTimes) := by
  obtain ⟨data, hstocked⟩ := Shop.exists_stocked
  obtain ⟨prepared, opened, report, full, hopening, hclosing, hexecuted, -⟩ :=
    hstocked.exists_late never false fun h => by cases h
  have hfull := Engine.runs_halves hopening hclosing
  obtain ⟨stopped, hruns, hnames⟩ := hstocked.exists_cut
  have hstop := hruns.anyCall
  let resumed := stopped.service.data.put (ControlTable.lock.inSchema "ordo") [[.boolean false]]
  have hlog := Data.rows?_put_of_ne stopped.service.data (log_ne_lock "ordo") [[.boolean false]]
  have hclear : LockClear "ordo" resumed := ⟨[], [], Data.rows?_put_self _ _ _⟩
  obtain ⟨⟨last, final, hresumed⟩, hsame⟩ := resumption_completes Shop.build_grown
    Shop.length_grown_le hstocked.tabular hstocked.presence hfull hstop hlog hclear []
  obtain ⟨⟨report', rfl⟩, hperm⟩ := hsame last final hresumed
  refine ⟨data, report, full, stopped, resumed, report', final, hfull, hexecuted, hstop,
    hstocked.names, hnames, ?_, hclear, hresumed, hperm⟩
  rw [logRows, hlog, logRows]

end SchemaMigration
