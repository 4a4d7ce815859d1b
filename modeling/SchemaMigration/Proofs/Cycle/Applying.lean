import SchemaMigration.Proofs.Cycle.Closing
import SchemaMigration.Proofs.Ordering.ExecutionOrder

/-!
# SchemaMigration.Proofs.Cycle.Applying

A whole cycle, from the contents that it finds.

* `Engine.prognosis` : the lines of a plan on some contents, or the error that ends it.
* `Reached` : the rows of the log that a cycle can come to: the old ones, or those in place with
  the entries of some steps.
* `Engine.serving_apply` : what a cycle returns and leaves, and why it fails.
* `Engine.reached_of_runs`, `Engine.taken_of_halves` : a run of a cycle, cut off or not, stops at
  such rows, which are in place once the first half has succeeded.
-/

namespace SchemaMigration

open Sql Database Attempt

def Engine.prognosis (engine : Engine) (graph : MigrationGraph) (data : Data) :
    Except CycleError (List PlanEntry) :=
  match foresee engine.schema graph data with
  | .error e => .error e
  | .ok planned => engine.planEntries planned

section Reached

variable (environment : Option String) (mayFail : Call → Prop) (ordered : List Migration)
  (entries : List StoredEntry)

/-- The log's rows after some steps in a valid order. -/
def Taken (course : List Step) (rows : List (List Cell)) : Prop :=
  InOrder (texts ordered) entries ∧ Course environment mayFail (planOf entries ordered) course ∧
    rows = (written course (inPlace (texts ordered) entries)).map StoredEntry.cells

def Reached (rows : List (List Cell)) : Prop :=
  rows = entries.map StoredEntry.cells ∨
    ∃ course, Taken environment mayFail ordered entries course rows

/-- The log is renumbered, or a step is taken. -/
def Advances (rows rows' : List (List Cell)) : Prop :=
  rows = entries.map StoredEntry.cells ∧ Taken environment mayFail ordered entries [] rows' ∨
    ∃ course step, Taken environment mayFail ordered entries course rows ∧
      Taken environment mayFail ordered entries (course ++ [step]) rows'

/-- The log goes the way of a cycle. -/
def advancing : Guard where
  holds := Reached environment mayFail ordered entries
  moves rows rows' := rows' = rows ∨ Advances environment mayFail ordered entries rows rows'
  refl _ := .inl rfl

end Reached

variable {environment : Option String} {mayFail : Call → Prop} {ordered : List Migration}
  {entries : List StoredEntry} {names : List String}

theorem advancing_opens :
    (advancing environment mayFail ordered entries).Opens (texts ordered) entries where
  holds := .inl rfl
  placed horder := .inr ⟨[], horder, .nil, rfl⟩
  moves horder := .inr (.inl ⟨rfl, horder, .nil, rfl⟩)

theorem advancing_follows (horder : InOrder (texts ordered) entries) :
    (advancing environment mayFail ordered entries).Follows environment mayFail
      (planOf entries ordered) (inPlace (texts ordered) entries) where
  holds course hcourse := .inr ⟨course, horder, hcourse, rfl⟩
  moves course step hcourse := by
    have hbefore : course.map (·.planned) <+: (course ++ [step]).map (·.planned) := by simp
    have hfront : Course environment mayFail (planOf entries ordered) course :=
      ⟨hbefore.trans hcourse.along, fun s hs => hcourse.fits s (List.mem_append_left _ hs)⟩
    exact .inr (.inr ⟨course, step, ⟨horder, hfront, rfl⟩, horder, hcourse, rfl⟩)

theorem tracked_planOf (hd : (entries.map (·.name)).Nodup) (hn : (texts ordered).Nodup) :
    Tracked (inPlace (texts ordered) entries) (planOf entries ordered) where
  distinct := by
    rw [names_inPlace]
    exact hd
  named := by
    rw [texts_planOf]
    exact hn
  logged p hp := by
    rw [names_inPlace]
    exact logged_of_mem_planOf hp

theorem Course.position {course : List Step} {step : Step}
    (h : Course environment mayFail (planOf entries ordered) course) (hstep : step ∈ course) :
    ordered[step.planned.actualOrder]? = some step.planned.migration := by
  have hmem : step.planned ∈ planOf entries ordered :=
    h.along.subset (List.mem_map_of_mem hstep)
  obtain ⟨m, hm, hp⟩ := mem_planOf hmem
  have hmigration : step.planned.migration = m := congrArg Planned.migration hp
  rw [hm, hmigration]

theorem Course.tracked {course : List Step}
    (h : Course environment mayFail (planOf entries ordered) course)
    (hd : (entries.map (·.name)).Nodup) (hn : (texts ordered).Nodup) :
    Tracked (inPlace (texts ordered) entries) (course.map (·.planned)) :=
  (tracked_planOf hd hn).front h.along

theorem Course.placed {course : List Step}
    (h : Course environment mayFail (planOf entries ordered) course)
    (horder : InOrder (texts ordered) entries) (hd : (entries.map (·.name)).Nodup)
    (hn : (texts ordered).Nodup) :
    Placed (texts ordered) (written course (inPlace (texts ordered) entries)) := by
  refine placed_written (h.tracked hd hn) horder.placed_inPlace fun step hstep => ?_
  have hposition := h.position hstep
  exact ⟨List.mem_map_of_mem (List.mem_of_getElem? hposition), idxOf_texts hn hposition⟩

theorem Course.distinct {course : List Step}
    (h : Course environment mayFail (planOf entries ordered) course)
    (hd : (entries.map (·.name)).Nodup) (hn : (texts ordered).Nodup) :
    ((written course (inPlace (texts ordered) entries)).map (·.name)).Nodup := by
  have htracked := h.tracked hd hn
  rw [← List.append_nil (course.map (·.planned))] at htracked
  exact htracked.written.distinct

theorem holds_of_lt {i : Nat} (h : i < 2 ^ 63) : IntegerType.big.holds i = true := by
  have hhalf : Nat.pow 2 (IntegerType.big.bits - 1) = 2 ^ 63 := by decide
  have hsigned : IntegerType.big.isSigned = true := rfl
  rw [IntegerType.holds, if_pos hsigned]
  simp only [hhalf, Bool.and_eq_true, decide_eq_true_eq]
  omega

/-- Entries that could be read can be read after any steps, as positions are numbers of 64 bits. -/
theorem Course.readable {course : List Step}
    (h : Course environment mayFail (planOf entries ordered) course)
    (hd : (entries.map (·.name)).Nodup) (hn : (texts ordered).Nodup)
    (hsize : ordered.length ≤ 2 ^ 63) (hread : ∀ e ∈ entries, Readable e)
    (hin : ∀ e ∈ entries, e.name ∈ texts ordered) :
    ∀ e ∈ written course (inPlace (texts ordered) entries), Readable e := by
  refine readable_written (h.tracked hd hn) ?_ fun step hstep => ?_
  · intro e he
    obtain ⟨old, hold, rfl⟩ := List.mem_map.mp he
    have hlt := List.idxOf_lt_length_of_mem (hin old hold)
    rw [texts, List.length_map] at hlt
    exact (hread old hold).moved (holds_of_lt (by rw [texts]; omega))
  · obtain ⟨hlt, -⟩ := List.getElem?_eq_some_iff.mp (h.position hstep)
    exact holds_of_lt (by omega)

theorem nodup_texts {migrations : List Migration} {graph : MigrationGraph}
    (hg : MigrationGraph.build migrations = .ok graph) :
    (texts graph.orderedMigrations).Nodup := by
  have hbuilt := MigrationGraph.built_of_build hg
  have hnames : (graph.orderedMigrations.map (·.name)).Nodup := by
    rw [hbuilt.map_name_orderedMigrations]
    exact hbuilt.orderedNames_nodup
  have htexts := hnames.map (f := Name.text) fun _ _ h => Name.text_injective h
  rw [List.map_map] at htexts
  exact htexts

theorem tabular_of_empty {schema : String} {data : Data} (h : logRows schema data = []) :
    Tabular schema data := by
  have hrows : logRows schema data = ([] : List StoredEntry).map StoredEntry.cells := h
  exact .of_logRows hrows List.nodup_nil

def along (environment : Option String) (mayFail : Call → Prop) (planned : List Planned)
    (entries : List StoredEntry) : Guard where
  holds rows := ∃ course, Course environment mayFail planned course ∧
    rows = (written course entries).map StoredEntry.cells
  moves _ _ := True
  refl _ := trivial

theorem along_follows (planned : List Planned) (entries : List StoredEntry) :
    (along environment mayFail planned entries).Follows environment mayFail planned entries :=
  ⟨fun course hcourse => ⟨course, hcourse, rfl⟩, fun _ _ _ => trivial⟩

def unguarded : Guard := ⟨fun _ => True, fun _ _ => True, fun _ => trivial⟩

theorem unguarded_opens : unguarded.Opens names entries :=
  ⟨trivial, fun _ => trivial, fun _ => trivial⟩

/-- A run that ends can always be had of what is served. -/
theorem exists_runs {α : Type} {schema : String} {guard : Guard}
    {post : α → Watched → Prop} {fails : CycleError → Watched → Prop} {attempt : Attempt α}
    {w : Watched} (h : Meets (serving schema mayFail guard) post fails attempt w) :
    ∃ result final, Session.Runs (watching schema mayFail) attempt.run w (some result) final ∧
      Ends post fails result final :=
  h.completes fun w c h => by
    obtain ⟨reply, service, ha⟩ := h.2.1
    exact ⟨reply, ⟨service, w.sent ++ c.sent reply⟩, ha, rfl⟩

namespace Engine

variable {engine : Engine} {graph : MigrationGraph} {data : Data} {sent : List Sent}

theorem serving_closing_of_opened {guard : Guard} {prepared : Log × List Planned} {opened : Watched}
    (hd : (entries.map (·.name)).Nodup) (hn : (texts graph.orderedMigrations).Nodup)
    (hopened : Opened engine.schema graph entries sent prepared opened)
    (hguard : guard.Follows engine.environment mayFail (planOf entries graph.orderedMigrations)
      (inPlace (texts graph.orderedMigrations) entries)) :
    Meets (serving engine.schema mayFail guard)
      (fun report t => ∃ course,
        Ran engine.schema engine.environment mayFail (planOf entries graph.orderedMigrations)
          (inPlace (texts graph.orderedMigrations) entries) sent course t ∧
        report = reported course {})
      (fun e t => Stopped engine.schema engine.environment mayFail
          (planOf entries graph.orderedMigrations)
          (inPlace (texts graph.orderedMigrations) entries) t ∧
        (Fallible mayFail ∨ engine.planEntries (planOf entries graph.orderedMigrations) = .error e))
      (engine.closing prepared) opened := by
  obtain ⟨hstate, -, hdata, hplanned, hpending⟩ := hopened
  rw [hstate]
  rw [← texts_planOf entries] at hpending
  rw [← hplanned] at hpending hguard ⊢
  have htracked := tracked_planOf hd hn
  rw [← hplanned] at htracked
  exact serving_closing hdata htracked hpending hguard

/-- What a cycle returns and leaves. Where it fails, a call can fail, a lock that exists is not
clear, or the contents do not allow it. -/
theorem serving_apply (htab : Tabular engine.schema data)
    (hn : (texts graph.orderedMigrations).Nodup) :
    Meets (serving engine.schema mayFail (advancing engine.environment mayFail
        graph.orderedMigrations (storedEntries engine.schema data)))
      (fun report t => ∃ course,
        InOrder (texts graph.orderedMigrations) (storedEntries engine.schema data) ∧
        foresee engine.schema graph data =
          .ok (planOf (storedEntries engine.schema data) graph.orderedMigrations) ∧
        Ran engine.schema engine.environment mayFail
          (planOf (storedEntries engine.schema data) graph.orderedMigrations)
          (inPlace (texts graph.orderedMigrations) (storedEntries engine.schema data)) sent course
          t ∧
        report = reported course {})
      (fun e t => Reached engine.environment mayFail graph.orderedMigrations
          (storedEntries engine.schema data) (logRows engine.schema t.service.data) ∧
        (Fallible mayFail ∨
          (presence engine.schema data = .ok true ∧ ¬ LockClear engine.schema data) ∨
          engine.prognosis graph data = .error e))
      (engine.apply graph) ⟨{ data }, sent⟩ := by
  rw [apply_eq_opening_closing]
  refine meets_bind.mpr ((serving_opening htab hn advancing_opens).mono ?_ ?_)
  · rintro prepared t ⟨hopened, hforesee⟩
    have horder := hopened.inOrder
    rw [hopened.planned] at hforesee
    refine (serving_closing_of_opened htab.distinct hn hopened ?_).mono ?_ ?_
    · exact advancing_follows horder
    · rintro report t ⟨course, hran, hreport⟩
      exact ⟨course, horder, hforesee, hran, hreport⟩
    · rintro e t ⟨⟨course, data'', sent', hcourse, rfl, hdata'⟩, hcause⟩
      refine ⟨.inr ⟨course, horder, hcourse, hdata'.logRows⟩, hcause.imp_right fun hentries => ?_⟩
      rw [prognosis, hforesee]
      exact .inr hentries
  · rintro e t ⟨⟨data', rfl, hrows⟩, hcause⟩
    refine ⟨?_, hcause.imp_right (Or.imp_right fun hforesee => ?_)⟩
    · rcases hrows with hrows | ⟨horder, hrows⟩
      · exact .inl hrows
      · exact .inr ⟨[], horder, .nil, hrows⟩
    · rw [prognosis, hforesee]

/-- A cycle that the contents allow succeeds when no call fails. -/
theorem serving_apply_of_lines (htab : Tabular engine.schema data)
    (hn : (texts graph.orderedMigrations).Nodup)
    (hclear : presence engine.schema data = .ok true → LockClear engine.schema data)
    {lines : List PlanEntry} (hlines : engine.prognosis graph data = .ok lines) :
    Meets (serving engine.schema never (advancing engine.environment never
        graph.orderedMigrations (storedEntries engine.schema data)))
      (fun _ t => ∃ course, Ran engine.schema engine.environment never
        (planOf (storedEntries engine.schema data) graph.orderedMigrations)
        (inPlace (texts graph.orderedMigrations) (storedEntries engine.schema data)) sent course t)
      (fun _ _ => False) (engine.apply graph) ⟨{ data }, sent⟩ := by
  refine (serving_apply htab hn).mono ?_ ?_
  · rintro report t ⟨course, -, -, hran, -⟩
    exact ⟨course, hran⟩
  · rintro e t ⟨-, hf | ⟨hpresent, hheld⟩ | herror⟩
    · exact not_fallible_never hf
    · exact hheld (hclear hpresent)
    · cases hlines.symm.trans herror

theorem reached_of_runs {result : Option (Except CycleError Report)} {stopped : Watched}
    (htab : Tabular engine.schema data) (hn : (texts graph.orderedMigrations).Nodup)
    (hr : Session.Runs (watching engine.schema mayFail) (engine.apply graph).run
      ⟨{ data }, sent⟩ result stopped) :
    Reached engine.environment mayFail graph.orderedMigrations (storedEntries engine.schema data)
      (logRows engine.schema stopped.service.data) := by
  refine (serving_apply htab hn).stays (fun w c h => h.1) (fun r w h => ?_) hr
  cases r with
  | error e => exact h.1
  | ok report =>
    obtain ⟨course, horder, -, hran, -⟩ := h
    exact .inr ⟨course, horder, hran.taken, hran.carries.logRows⟩

/-! ## The halves of a cycle, one after the other -/

theorem taken_of_halves {prepared : Log × List Planned} {opened stopped : Watched}
    {result : Option (Except CycleError Report)} (htab : Tabular engine.schema data)
    (hn : (texts graph.orderedMigrations).Nodup)
    (hopening : Session.Runs (watching engine.schema mayFail) (engine.opening graph).run
      ⟨{ data }, sent⟩ (some (.ok prepared)) opened)
    (hclosing : Session.Runs (watching engine.schema mayFail) (engine.closing prepared).run
      opened result stopped) :
    (∃ course, Taken engine.environment mayFail graph.orderedMigrations
      (storedEntries engine.schema data) course (logRows engine.schema stopped.service.data)) ∧
    foresee engine.schema graph data = .ok prepared.2 := by
  obtain ⟨hopened, hforesee⟩ := (serving_opening htab hn unguarded_opens).of_runs hopening
  refine ⟨?_, hforesee⟩
  obtain ⟨course, hcourse, hrows⟩ :=
    (serving_closing_of_opened htab.distinct hn hopened (along_follows _ _)).stays
      (fun w c h => h.1) (fun r w h => by
        cases r with
        | ok report =>
          obtain ⟨course, hran, -⟩ := h
          exact ⟨course, hran.taken, hran.carries.logRows⟩
        | error e =>
          obtain ⟨⟨course, data', sent', hcourse, rfl, hdata'⟩, -⟩ := h
          exact ⟨course, hcourse, hdata'.logRows⟩) hclosing
  exact ⟨course, hopened.inOrder, hcourse, hrows⟩

theorem runs_halves {prepared : Log × List Planned} {opened stopped : Watched}
    {result : Option (Except CycleError Report)}
    (hopening : Session.Runs (watching engine.schema mayFail) (engine.opening graph).run
      ⟨{ data }, sent⟩ (some (.ok prepared)) opened)
    (hclosing : Session.Runs (watching engine.schema mayFail) (engine.closing prepared).run
      opened result stopped) :
    Session.Runs (watching engine.schema mayFail) (engine.apply graph).run ⟨{ data }, sent⟩ result
      stopped := by
  rw [apply_eq_opening_closing]
  exact Session.Runs.bind hopening hclosing

end Engine

/-! ## A cycle of one migration -/

/-- A migration on its own, and its graph. -/
def single : Migration := .bare ⟨"base", by decide⟩ 0 [] []

def singleGraph : MigrationGraph :=
  ⟨[single], ⟨[single.name], []⟩, [⟨0, [single.name], [single.name]⟩]⟩

def singleEngine : Engine := { dialect := .builtin .duckdb, schema := "ordo" }

end SchemaMigration
