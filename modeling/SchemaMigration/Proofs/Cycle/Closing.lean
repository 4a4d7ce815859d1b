import SchemaMigration.Proofs.Cycle.Course
import SchemaMigration.Proofs.Cycle.Opening

/-!
# SchemaMigration.Proofs.Cycle.Closing

The second half of a cycle: it takes a course, and the log follows it.

* `Guard.Follows` : what is asked of a guard along the courses of a plan.
* `Ran`, `Stopped` : what is left when a course was taken to its end, and when it was broken off.

`Engine.serving_execute`, `Engine.serving_record` and `Engine.serving_process` are about one
migration, `Engine.serving_closing` is the specification of the half.
-/

namespace SchemaMigration

open Sql Database Attempt

variable {schema : String} {mayFail : Call → Prop} {guard : Guard} {data : Data}
  {sent : List Sent} {entries : List StoredEntry} {planned : List Planned}
  {environment : Option String} {step : Step} {course : List Step}

/-- What is asked of a guard: each course can be taken, one step after the other. -/
structure Guard.Follows (guard : Guard) (environment : Option String) (mayFail : Call → Prop)
    (planned : List Planned) (entries : List StoredEntry) : Prop where
  holds : ∀ course, Course environment mayFail planned course →
    guard.holds ((written course entries).map StoredEntry.cells)
  moves : ∀ course step, Course environment mayFail planned (course ++ [step]) →
    guard.moves ((written course entries).map StoredEntry.cells)
      ((written (course ++ [step]) entries).map StoredEntry.cells)

theorem Guard.Follows.tail
    (h : guard.Follows environment mayFail (step.planned :: planned) entries)
    (hstep : step.Fits environment mayFail) :
    guard.Follows environment mayFail planned (step.write entries) where
  holds course hcourse := h.holds (step :: course) (hcourse.cons hstep)
  moves course next hcourse := h.moves (step :: course) next (hcourse.cons hstep)

/-- A course was taken to its end. -/
structure Ran (schema : String) (environment : Option String) (mayFail : Call → Prop)
    (planned : List Planned) (entries : List StoredEntry) (sent : List Sent) (course : List Step)
    (t : Watched) : Prop where
  whole : course.map (·.planned) = planned
  fits : ∀ step ∈ course, step.Fits environment mayFail
  state : t = ⟨{ data := t.service.data }, sent ++ sentBy course⟩
  carries : Carries schema (written course entries) t.service.data

/-- A course was taken, perhaps not to its end. -/
def Stopped (schema : String) (environment : Option String) (mayFail : Call → Prop)
    (planned : List Planned) (entries : List StoredEntry) (t : Watched) : Prop :=
  ∃ course data' sent', Course environment mayFail planned course ∧
    t = ⟨{ data := data' }, sent'⟩ ∧ Carries schema (written course entries) data'

theorem Ran.taken {t : Watched}
    (h : Ran schema environment mayFail planned entries sent course t) :
    Course environment mayFail planned course :=
  ⟨⟨[], (List.append_nil _).trans h.whole⟩, h.fits⟩

theorem Ran.cons {t : Watched} (hstep : step.Fits environment mayFail)
    (h : Ran schema environment mayFail planned (step.write entries) (sent ++ step.sent) course t) :
    Ran schema environment mayFail (step.planned :: planned) entries sent (step :: course) t where
  whole := by rw [List.map_cons, h.whole]
  fits := List.forall_mem_cons.mpr ⟨hstep, h.fits⟩
  state := by
    have hstate := h.state
    rw [List.append_assoc] at hstate
    exact hstate
  carries := h.carries

theorem Stopped.cons {t : Watched} (hstep : step.Fits environment mayFail)
    (h : Stopped schema environment mayFail planned (step.write entries) t) :
    Stopped schema environment mayFail (step.planned :: planned) entries t := by
  obtain ⟨course, data', sent', hcourse, hstate, hdata⟩ := h
  exact ⟨step :: course, data', sent', hcourse.cons hstep, hstate, hdata⟩

/-! ## The statements of a migration -/

namespace Engine

theorem serving_sendStatements {service : Service} (scope : Scope)
    (hview : service.view scope = some data) (hholds : guard.holds (logRows schema service.data))
    (name : Name) (statements : List String) :
    Meets (serving schema mayFail guard)
      (fun _ t => ∃ data', SameTables schema data data' ∧
        t = ⟨service.store scope data', sent ++ statements.map (⟨·, .ok ()⟩)⟩)
      (fun e t => Fallible mayFail ∧ ∃ data' front statement rest cause,
        SameTables schema data data' ∧ statements = front ++ statement :: rest ∧
        e = .statementFailed name statement cause ∧
        t = ⟨service.store scope data',
          sent ++ (front.map (⟨·, .ok ()⟩) ++ [⟨statement, .error cause⟩])⟩)
      (sendStatements scope name statements) ⟨service, sent⟩ := by
  -- on the statements that are left; those that went through are in front
  induction statements generalizing service data sent with
  | nil =>
    refine ⟨data, .refl data, ?_⟩
    rw [Service.store_view hview, List.map_nil, List.append_nil]
  | cons statement rest ih =>
    refine meets_bind.mpr (meets_outcome.mpr (meets_batch_statement hview hholds ?_ ?_))
    · intro data' hsame
      have hholds' : guard.holds (logRows schema (service.store scope data').data) := by
        rw [Service.logRows_store hview hsame.logRows]
        exact hholds
      refine (ih Service.view_store hholds').mono ?_ ?_
      · rintro _ t ⟨data'', hsame', rfl⟩
        refine ⟨data'', hsame.trans hsame', ?_⟩
        rw [Service.store_store, List.append_assoc]
        rfl
      · rintro e t ⟨hf, data'', front, other, rest', cause, hsame', rfl, rfl, rfl⟩
        have htables := hsame.trans hsame'
        refine ⟨hf, data'', statement :: front, other, rest', cause, htables, rfl, rfl, ?_⟩
        rw [Service.store_store, List.append_assoc]
        rfl
    · intro hf data' hsame e
      exact ⟨⟨_, hf⟩, data', [], statement, rest, e, hsame, rfl, rfl, rfl⟩

theorem serving_execute (m : Migration) (hholds : guard.holds (logRows schema data)) :
    Meets (serving schema mayFail guard)
      (fun _ t => ∃ data', SameTables schema data data' ∧
        t = ⟨{ data := data' }, sent ++ sentWhole m⟩)
      (fun e t => Fallible mayFail ∧ ∃ data' more, SameTables schema data data' ∧
        t = ⟨{ data := data' }, sent ++ more⟩ ∧
        ((∃ c, mayFail c ∧ c.isStatement = false) ∨ CutShort m e more))
      (execute m) ⟨{ data }, sent⟩ := by
  rw [execute]
  split
  · let good : Ending × Unit → Data → List Sent → Prop := fun r draft sent' =>
      r.1 = .commit ∧ SameTables schema data draft ∧ sent' = sent ++ sentWhole m
    let bad : CycleError → List Sent → Prop := fun e sent' =>
      Fallible mayFail ∧ ∃ more, sent' = sent ++ more ∧ CutShort m e more
    refine meets_transaction good bad hholds ?_ ?_ ?_ ?_ ?_
    · intro hf e
      exact ⟨⟨_, hf⟩, data, [], .refl data, by rw [List.append_nil], .inl ⟨_, hf, rfl⟩⟩
    · refine meets_bind.mpr
        ((serving_sendStatements .transaction rfl hholds _ _).mono ?_ ?_)
      · rintro _ t ⟨draft, hsame, rfl⟩
        exact ⟨draft, _, rfl, rfl, hsame, rfl⟩
      · rintro e t ⟨hf, draft, front, statement, rest, cause, -, hcut, rfl, rfl⟩
        exact ⟨draft, _, rfl, hf, _, rfl, front, statement, rest, cause, hcut, rfl, rfl⟩
    · rintro _ draft sent' ⟨-, hsame, rfl⟩
      refine ⟨by rw [hsame.logRows]; exact guard.refl _, ⟨draft, hsame, rfl⟩, fun hf e => ?_⟩
      exact ⟨⟨⟨_, hf⟩, data, _, .refl data, rfl, .inl ⟨_, hf, rfl⟩⟩,
        ⟨_, hf⟩, draft, _, hsame, rfl, .inl ⟨_, hf, rfl⟩⟩
    · rintro _ draft sent' ⟨hending, -⟩
      cases hending
    · rintro e sent' ⟨hf, more, rfl, hcut⟩
      exact ⟨hf, data, more, .refl data, rfl, .inr hcut⟩
  · refine (serving_sendStatements .direct rfl hholds _ _).mono ?_ ?_
    · exact fun _ _ h => h
    · rintro e t ⟨hf, data', front, statement, rest, cause, hsame, hcut, rfl, rfl⟩
      exact ⟨hf, data', _, hsame, rfl, .inr ⟨front, statement, rest, cause, hcut, rfl, rfl⟩⟩

/-! ## The entry of a migration -/

theorem serving_record {p : Planned} (hdata : Carries schema entries data)
    (hlogged : p.logged = true ↔ p.migration.name.text ∈ entries.map (·.name))
    (hholds : guard.holds (entries.map StoredEntry.cells))
    (hmoves : ∀ tick, guard.moves (entries.map StoredEntry.cells)
      ((recordEntry p tick entries).map StoredEntry.cells)) :
    Meets (serving schema mayFail guard)
      (fun entry t => entry = .ofMigration p.migration p.actualOrder ∧
        ∃ data' tick, t = ⟨{ data := data' }, sent⟩ ∧
          Carries schema (recordEntry p tick entries) data')
      (fun _ t => Fallible mayFail ∧ ∃ data', t = ⟨{ data := data' }, sent⟩ ∧
        (Carries schema entries data' ∨
          ∃ tick, Carries schema (recordEntry p tick entries) data'))
      (record p) ⟨{ data }, sent⟩ := by
  have hholds' : guard.holds (logRows schema data) := by rw [hdata.logRows]; exact hholds
  rw [record]
  split
  · rename_i hold
    obtain ⟨data', outcome, tick, hupdate, hdata'⟩ := hdata.update p.migration p.actualOrder
    have hentries : recordEntry p tick entries =
        updateEntry p.migration p.actualOrder tick entries := if_pos hold
    rw [← hentries] at hdata'
    refine meets_bind.mpr (meets_execute_control rfl hupdate hholds' ?_ ?_ ?_)
    · show guard.moves (logRows schema data) (logRows schema data')
      rw [hdata.logRows, hdata'.logRows]
      exact hmoves tick
    · exact ⟨rfl, data', tick, rfl, hdata'⟩
    · exact fun hf _ => ⟨⟨⟨_, hf⟩, data, rfl, .inl hdata⟩, ⟨_, hf⟩, data', rfl, .inr ⟨tick, hdata'⟩⟩
  · rename_i hnew
    have hfree : ∀ e ∈ entries, e.name ≠ p.migration.name.text := fun e he hname =>
      hnew (hlogged.mpr (hname ▸ List.mem_map_of_mem he))
    obtain ⟨data', outcome, tick, hinsert, hdata'⟩ := hdata.insert hfree p.actualOrder
    have hentries : recordEntry p tick entries =
        insertEntry p.migration p.actualOrder tick entries := if_neg hnew
    rw [← hentries] at hdata'
    refine meets_bind.mpr (meets_execute_control rfl hinsert hholds' ?_ ?_ ?_)
    · show guard.moves (logRows schema data) (logRows schema data')
      rw [hdata.logRows, hdata'.logRows]
      exact hmoves tick
    · exact ⟨rfl, data', tick, rfl, hdata'⟩
    · exact fun hf _ => ⟨⟨⟨_, hf⟩, data, rfl, .inl hdata⟩, ⟨_, hf⟩, data', rfl, .inr ⟨tick, hdata'⟩⟩

/-! ## One migration, and all of them -/

variable {engine : Engine}

theorem planEntry_of_standard {p : Planned} {kept : Bool}
    (h : Sieve.standard engine.environment p = .ok kept) :
    ∃ status, p.status = some status ∧ engine.planEntry p = .ok ⟨p.migration.name,
      p.migration.author, p.actualOrder, status, if kept then .execute else .skip⟩ := by
  cases hstatus : p.status with
  | none =>
    have hruns : Sieve.runs p = .error (.statusUnassigned p.migration.name) := by
      rw [Sieve.runs, hstatus]
    rw [Sieve.standard, Sieve.chain, Sieve.chain, hruns] at h
    split at h <;> cases h
  | some status =>
    refine ⟨status, rfl, ?_⟩
    rw [planEntry, h, hstatus]

theorem serving_process (progress : Progress) {p : Planned} {names : List String}
    (hdata : Carries engine.schema entries data) (htracked : Tracked entries (p :: planned))
    (hpending : progress.log.Pending (p.migration.name.text :: names))
    (hguard : guard.Follows engine.environment mayFail (p :: planned) entries) :
    Meets (serving engine.schema mayFail guard)
      (fun next t => ∃ (step : Step) (data' : Data), step.planned = p ∧
        step.Fits engine.environment mayFail ∧
        t = ⟨{ data := data' }, sent ++ step.sent⟩ ∧
        Carries engine.schema (step.write entries) data' ∧
        next.report = step.report progress.report ∧ next.log.Pending names)
      (fun e t => Stopped engine.schema engine.environment mayFail (p :: planned) entries t ∧
        (Fallible mayFail ∨ engine.planEntry p = .error e))
      (engine.process progress p) ⟨{ data }, sent⟩ := by
  have hholds : guard.holds (entries.map StoredEntry.cells) := hguard.holds [] .nil
  have hholds' : guard.holds (logRows engine.schema data) := by rw [hdata.logRows]; exact hholds
  refine meets_bind.mpr (meets_ofResult.mpr ?_)
  cases hsift : Sieve.standard engine.environment p with
  | error e =>
    refine ⟨⟨[], data, sent, .nil, rfl, hdata⟩, .inr ?_⟩
    rw [planEntry, hsift]
  | ok kept =>
    cases kept with
    | false =>
      refine ⟨⟨p, .skipped, []⟩, data, rfl, .skipped hsift, ?_, hdata, rfl, hpending.markApplied⟩
      rw [List.append_nil]
    | true =>
      have hexecuted : ∀ tick, Course engine.environment mayFail (p :: planned)
          [⟨p, .executed tick, sentWhole p.migration⟩] := fun tick =>
        Course.nil.cons (.executed hsift tick)
      refine meets_bind.mpr (meets_outcome.mpr ((serving_execute p.migration hholds').mono ?_ ?_))
      · rintro _ t ⟨data', hsame, rfl⟩
        refine meets_bind.mpr ((serving_record (hdata.sameTables hsame)
          (htracked.logged p List.mem_cons_self) hholds
          fun tick => hguard.moves [] _ (hexecuted tick)).mono ?_ ?_)
        · rintro _ t ⟨rfl, data'', tick, rfl, hdata''⟩
          exact ⟨⟨p, .executed tick, sentWhole p.migration⟩, data'', rfl, .executed hsift tick, rfl,
            hdata'', rfl, (hpending.upsert rfl).markApplied⟩
        · rintro e t ⟨hf, data'', rfl, hdata'' | ⟨tick, hdata''⟩⟩
          · exact ⟨⟨[], data'', _, .nil, rfl, hdata''⟩, .inl hf⟩
          · exact ⟨⟨_, data'', _, hexecuted tick, rfl, hdata''⟩, .inl hf⟩
      · rintro e t ⟨hf, data', more, hsame, rfl, hcause⟩
        have hdata' := hdata.sameTables hsame
        dsimp only
        split
        · exact ⟨⟨[], data', _, .nil, rfl, hdata'⟩, .inl hf⟩
        · rename_i hlenient
          exact ⟨⟨p, .failed e, more⟩, data', rfl,
            .failed hsift (Bool.eq_false_iff.mpr hlenient) hf hcause, rfl, hdata', rfl,
            hpending.markApplied⟩

theorem planEntries_cons_error {e : CycleError} (hfits : step.Fits engine.environment mayFail)
    (h : engine.planEntries planned = .error e) :
    engine.planEntries (step.planned :: planned) = .error e := by
  obtain ⟨kept, hkept⟩ := hfits.standard
  obtain ⟨status, -, hentry⟩ := planEntry_of_standard hkept
  rw [planEntries, hentry, h]

theorem serving_processAll (progress : Progress) (hdata : Carries engine.schema entries data)
    (htracked : Tracked entries planned)
    (hpending : progress.log.Pending (planned.map (·.migration.name.text)))
    (hguard : guard.Follows engine.environment mayFail planned entries) :
    Meets (serving engine.schema mayFail guard)
      (fun last t => ∃ course,
        Ran engine.schema engine.environment mayFail planned entries sent course t ∧
        last.report = reported course progress.report ∧ last.log.Pending [])
      (fun e t => Stopped engine.schema engine.environment mayFail planned entries t ∧
        (Fallible mayFail ∨ engine.planEntries planned = .error e))
      (engine.processAll progress planned) ⟨{ data }, sent⟩ := by
  -- on the migrations that are left; the entries change on the way
  induction planned generalizing entries data sent progress with
  | nil =>
    have hstate : (⟨{ data }, sent⟩ : Watched) = ⟨{ data }, sent ++ sentBy []⟩ := by
      rw [sentBy, List.flatMap_nil, List.append_nil]
    exact ⟨[], ⟨rfl, fun _ h => (by cases h), hstate, hdata⟩, rfl, hpending⟩
  | cons p planned ih =>
    refine meets_bind.mpr ((serving_process progress hdata htracked hpending hguard).mono ?_ ?_)
    · rintro next t ⟨step, data', rfl, hfits, rfl, hdata', hreport, hpending'⟩
      refine (ih next hdata' htracked.tail hpending' (hguard.tail hfits)).mono ?_ ?_
      · rintro last t ⟨course, hran, hlast, hnone⟩
        refine ⟨step :: course, hran.cons hfits, ?_, hnone⟩
        rw [hlast, hreport]
        rfl
      · rintro e t ⟨hstopped, hcause⟩
        exact ⟨hstopped.cons hfits, hcause.imp_right (planEntries_cons_error hfits)⟩
    · rintro e t ⟨hstopped, hcause⟩
      refine ⟨hstopped, hcause.imp_right fun hentry => ?_⟩
      rw [planEntries, hentry]

theorem serving_finish {prepared : Log × List Planned}
    (hdata : Carries engine.schema entries data) (htracked : Tracked entries prepared.2)
    (hpending : prepared.1.Pending (prepared.2.map (·.migration.name.text)))
    (hguard : guard.Follows engine.environment mayFail prepared.2 entries) :
    Meets (serving engine.schema mayFail guard)
      (fun report t => ∃ course,
        Ran engine.schema engine.environment mayFail prepared.2 entries sent course t ∧
        report = reported course {})
      (fun e t => Stopped engine.schema engine.environment mayFail prepared.2 entries t ∧
        (Fallible mayFail ∨ engine.planEntries prepared.2 = .error e))
      (engine.finish prepared) ⟨{ data }, sent⟩ := by
  refine meets_bind.mpr
    ((serving_processAll { log := prepared.1 } hdata htracked hpending hguard).mono ?_
      fun _ _ h => h)
  rintro last t ⟨course, hran, hreport, hnone⟩
  -- every entry has been met by now
  rw [hnone.unapplied]
  exact ⟨course, hran, hreport⟩

/-- The second half of a cycle. Where it fails, a call can fail or the sieves refuse a migration. -/
theorem serving_closing {prepared : Log × List Planned}
    (hdata : Carries engine.schema entries data) (htracked : Tracked entries prepared.2)
    (hpending : prepared.1.Pending (prepared.2.map (·.migration.name.text)))
    (hguard : guard.Follows engine.environment mayFail prepared.2 entries) :
    Meets (serving engine.schema mayFail guard)
      (fun report t => ∃ course,
        Ran engine.schema engine.environment mayFail prepared.2 entries sent course t ∧
        report = reported course {})
      (fun e t => Stopped engine.schema engine.environment mayFail prepared.2 entries t ∧
        (Fallible mayFail ∨ engine.planEntries prepared.2 = .error e))
      (engine.closing prepared) ⟨{ data }, sent⟩ := by
  refine meets_bind.mpr (meets_outcome.mpr
    ((serving_finish hdata htracked hpending hguard).mono ?_ ?_))
  · rintro report t ⟨course, hran, hreport⟩
    obtain ⟨data', hstate⟩ : ∃ data', t = ⟨{ data := data' }, sent ++ sentBy course⟩ :=
      ⟨_, hran.state⟩
    subst hstate
    have hholds : guard.holds (logRows engine.schema data') := by
      rw [hran.carries.logRows]
      exact hguard.holds course hran.taken
    refine meets_bind.mpr (meets_outcome.mpr
      ((Lock.serving_release hran.carries.lock hholds).mono ?_ ?_))
    · rintro _ t ⟨data'', rfl, hbeside⟩
      exact ⟨course, ⟨hran.whole, hran.fits, rfl, hran.carries.beside hbeside⟩, hreport⟩
    · rintro e t ⟨data'', rfl, hbeside, hf⟩
      exact ⟨⟨course, data'', _, hran.taken, rfl, hran.carries.beside hbeside⟩, .inl hf⟩
  · rintro e t ⟨⟨course, data', sent', hcourse, rfl, hdata'⟩, hcause⟩
    have hholds : guard.holds (logRows engine.schema data') := by
      rw [hdata'.logRows]
      exact hguard.holds course hcourse
    refine meets_bind.mpr (meets_outcome.mpr
      ((Lock.serving_release hdata'.lock hholds).mono ?_ ?_))
    · rintro _ t ⟨data'', rfl, hbeside⟩
      exact ⟨⟨course, data'', sent', hcourse, rfl, hdata'.beside hbeside⟩, hcause⟩
    · rintro _ t ⟨data'', rfl, hbeside, -⟩
      exact ⟨⟨course, data'', sent', hcourse, rfl, hdata'.beside hbeside⟩, hcause⟩

end Engine
end SchemaMigration
