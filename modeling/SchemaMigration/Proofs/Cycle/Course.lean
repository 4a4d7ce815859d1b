import SchemaMigration.Proofs.Cycle.Securing
import SchemaMigration.Proofs.Cycle.Standing

/-!
# SchemaMigration.Proofs.Cycle.Course

The course of a cycle once its order is valid: what becomes of each migration, and of the log.

* `Fate`, `Step` : a planned migration that is skipped, executed or failed, with the statements
  that are sent for it; `Step.Fits` says when it can come to this.
* `Course` : steps for the first migrations of a plan.
* `written` : stored entries after some steps.
* `Tracked` : a plan that tells which of its migrations have entries.

`mem_written_iff` says which entries there are after some steps; `placed_written` and
`readable_written` follow from it.
-/

namespace SchemaMigration

open Sql Database

inductive Fate where
  | skipped
  /-- Executed, with the tick of the database's clock at which its entry was written. -/
  | executed (tick : Nat)
  | failed (cause : CycleError)

structure Step where
  planned : Planned
  fate : Fate
  sent : List Sent

def Call.isStatement : Call → Bool
  | .batch _ (.migration _) => true
  | _ => false

theorem Call.exists_of_isStatement {c : Call} (h : c.isStatement = true) :
    ∃ scope text, c = .batch scope (.migration text) := by
  cases c with
  | batch scope request =>
    cases request with
    | migration text => exact ⟨scope, text, rfl⟩
    | control purpose cells => cases h
  | _ => cases h

/-- The statements of a migration, all of which went through. -/
def sentWhole (m : Migration) : List Sent := m.statements.map (⟨·, .ok ()⟩)

/-- The statements of a migration up to one that failed, which is what the error says. -/
def CutShort (m : Migration) (cause : CycleError) (sent : List Sent) : Prop :=
  ∃ front statement rest e, m.statements = front ++ statement :: rest ∧
    cause = .statementFailed m.name statement e ∧
    sent = front.map (⟨·, .ok ()⟩) ++ [⟨statement, .error e⟩]

namespace Step

def name (step : Step) : Name := step.planned.migration.name

def Executes (step : Step) : Prop := ∃ tick, step.fate = .executed tick

def write (step : Step) (entries : List StoredEntry) : List StoredEntry :=
  match step.fate with
  | .executed tick => recordEntry step.planned tick entries
  | .skipped | .failed _ => entries

def report (step : Step) (report : Report) : Report :=
  match step.fate with
  | .skipped => { report with skipped := report.skipped ++ [step.name] }
  | .executed _ => { report with executed := report.executed ++ [step.name] }
  | .failed cause => { report with failed := report.failed ++ [⟨step.name, cause⟩] }

/-- A step that can happen: the sieves decide whether a migration is skipped, and one that does
not end the cycle may fail. -/
inductive Fits (environment : Option String) (mayFail : Call → Prop) : Step → Prop where
  | skipped {p : Planned} (h : Sieve.standard environment p = .ok false) :
      Fits environment mayFail ⟨p, .skipped, []⟩
  | executed {p : Planned} (h : Sieve.standard environment p = .ok true) (tick : Nat) :
      Fits environment mayFail ⟨p, .executed tick, sentWhole p.migration⟩
  | failed {p : Planned} {cause : CycleError} {sent : List Sent}
      (h : Sieve.standard environment p = .ok true)
      (hlenient : p.migration.parameters.failFast = false) (hf : Fallible mayFail)
      (hcause : (∃ c, mayFail c ∧ c.isStatement = false) ∨ CutShort p.migration cause sent) :
      Fits environment mayFail ⟨p, .failed cause, sent⟩

/-- An entry is the one that a step writes: made anew, but as old as an entry that there was. -/
def Writes (step : Step) (entries : List StoredEntry) (e : StoredEntry) : Prop :=
  ∃ tick created, step.fate = .executed tick ∧
    e = .ofMigration step.planned.migration step.planned.actualOrder created (Data.stamp tick) ∧
    ((∃ old ∈ entries, old.name = step.name.text ∧ created = old.createdAt) ∨
      step.name.text ∉ entries.map (·.name) ∧ created = Data.stamp tick)

end Step

structure Course (environment : Option String) (mayFail : Call → Prop) (planned : List Planned)
    (course : List Step) : Prop where
  along : course.map (·.planned) <+: planned
  fits : ∀ step ∈ course, step.Fits environment mayFail

def written (course : List Step) (entries : List StoredEntry) : List StoredEntry :=
  course.foldl (fun entries step => step.write entries) entries

def reported (course : List Step) (report : Report) : Report :=
  course.foldl (fun report step => step.report report) report

def sentBy (course : List Step) : List Sent := course.flatMap (·.sent)

/-- Entries and a plan with names of their own; the plan tells which migrations have entries. -/
structure Tracked (entries : List StoredEntry) (planned : List Planned) : Prop where
  distinct : (entries.map (·.name)).Nodup
  named : (planned.map (·.migration.name.text)).Nodup
  logged : ∀ p ∈ planned,
    (p.logged = true ↔ p.migration.name.text ∈ entries.map (·.name))

variable {entries : List StoredEntry} {planned : List Planned} {course : List Step} {step : Step}
  {environment : Option String} {mayFail : Call → Prop}

theorem Course.nil : Course environment mayFail planned [] :=
  ⟨List.nil_prefix, fun _ h => by cases h⟩

theorem Course.cons (hstep : step.Fits environment mayFail)
    (h : Course environment mayFail planned course) :
    Course environment mayFail (step.planned :: planned) (step :: course) where
  along := List.cons_prefix_cons.mpr ⟨rfl, h.along⟩
  fits := List.forall_mem_cons.mpr ⟨hstep, h.fits⟩

/-! ## One step -/

theorem Step.Fits.kept (h : step.Fits environment mayFail) (he : step.Executes) :
    Sieve.standard environment step.planned = .ok true := by
  obtain ⟨tick, hfate⟩ := he
  cases h with
  | skipped h => cases hfate
  | executed h => exact h
  | failed h => exact h

theorem Step.Fits.standard (h : step.Fits environment mayFail) :
    ∃ kept, Sieve.standard environment step.planned = .ok kept := by
  cases h with
  | skipped h => exact ⟨_, h⟩
  | executed h => exact ⟨_, h⟩
  | failed h => exact ⟨_, h⟩

/-- Where no call fails, what the sieves keep is executed. -/
theorem Step.Fits.executes (h : step.Fits environment never)
    (hkept : Sieve.standard environment step.planned = .ok true) : step.Executes := by
  cases h with
  | skipped hdropped => cases hdropped.symm.trans hkept
  | executed _ tick => exact ⟨tick, rfl⟩
  | failed _ _ hf => exact absurd hf not_fallible_never

theorem mem_recordEntry_iff {p : Planned} {tick : Nat} {e : StoredEntry}
    (hlogged : p.logged = true ↔ p.migration.name.text ∈ entries.map (·.name)) :
    e ∈ recordEntry p tick entries ↔
      (⟨p, .executed tick, sentWhole p.migration⟩ : Step).Writes entries e ∨
        e ∈ entries ∧ p.migration.name.text ≠ e.name := by
  have hwrites : (⟨p, .executed tick, sentWhole p.migration⟩ : Step).Writes entries e ↔
      ∃ created, e = .ofMigration p.migration p.actualOrder created (Data.stamp tick) ∧
        ((∃ old ∈ entries, old.name = p.migration.name.text ∧ created = old.createdAt) ∨
          p.migration.name.text ∉ entries.map (·.name) ∧ created = Data.stamp tick) := by
    constructor
    · rintro ⟨tick', created, hfate, he⟩
      cases hfate
      exact ⟨created, he⟩
    · rintro ⟨created, he⟩
      exact ⟨tick, created, rfl, he⟩
  rw [hwrites, recordEntry]
  split
  · rename_i hold
    rw [updateEntry, List.mem_map]
    constructor
    · rintro ⟨old, hmem, rfl⟩
      by_cases hname : old.name = p.migration.name.text
      · rw [if_pos hname]
        exact .inl ⟨old.createdAt, rfl, .inl ⟨old, hmem, hname, rfl⟩⟩
      · rw [if_neg hname]
        exact .inr ⟨hmem, fun h => hname h.symm⟩
    · rintro (⟨created, rfl, ⟨old, hmem, hname, rfl⟩ | ⟨hnew, -⟩⟩ | ⟨hmem, hname⟩)
      · exact ⟨old, hmem, if_pos hname⟩
      · exact absurd (hlogged.mp hold) hnew
      · exact ⟨e, hmem, if_neg fun h => hname h.symm⟩
  · rename_i hnew
    rw [insertEntry, List.mem_append, List.mem_singleton]
    constructor
    · rintro (hmem | rfl)
      · refine .inr ⟨hmem, fun hname => hnew (hlogged.mpr ?_)⟩
        rw [hname]
        exact List.mem_map_of_mem hmem
      · exact .inl ⟨_, rfl, .inr ⟨fun h => hnew (hlogged.mpr h), rfl⟩⟩
    · rintro (⟨created, rfl, ⟨old, hmem, hname, -⟩ | ⟨-, rfl⟩⟩ | ⟨hmem, -⟩)
      · exact absurd (hlogged.mpr (hname ▸ List.mem_map_of_mem hmem)) hnew
      · exact .inr rfl
      · exact .inl hmem

namespace Step

theorem Writes.name_eq {e : StoredEntry} (h : step.Writes entries e) : e.name = step.name.text := by
  obtain ⟨tick, created, -, rfl, -⟩ := h
  rfl

theorem Writes.executes {e : StoredEntry} (h : step.Writes entries e) : step.Executes := by
  obtain ⟨tick, -, hfate, -⟩ := h
  exact ⟨tick, hfate⟩

theorem Executes.exists_writes (h : step.Executes) (entries : List StoredEntry) :
    ∃ e, step.Writes entries e := by
  obtain ⟨tick, hfate⟩ := h
  by_cases hold : step.name.text ∈ entries.map (·.name)
  · obtain ⟨old, hmem, hname⟩ := List.mem_map.mp hold
    exact ⟨_, tick, old.createdAt, hfate, rfl, .inl ⟨old, hmem, hname, rfl⟩⟩
  · exact ⟨_, tick, _, hfate, rfl, .inr ⟨hold, rfl⟩⟩

/-- What a step writes depends on the entry with its name only. -/
theorem Writes.congr {e : StoredEntry} {others : List StoredEntry} (h : step.Writes entries e)
    (hsame : ∀ old : StoredEntry, old.name = step.name.text → (old ∈ others ↔ old ∈ entries)) :
    step.Writes others e := by
  obtain ⟨tick, created, hfate, he, hcreated⟩ := h
  refine ⟨tick, created, hfate, he, hcreated.imp ?_ ?_⟩
  · rintro ⟨old, hold, hname, rfl⟩
    exact ⟨old, (hsame old hname).mpr hold, hname, rfl⟩
  · rintro ⟨hnew, rfl⟩
    refine ⟨fun hmem => hnew ?_, rfl⟩
    obtain ⟨old, hold, hname⟩ := List.mem_map.mp hmem
    exact List.mem_map.mpr ⟨old, (hsame old hname).mp hold, hname⟩

theorem mem_write_iff {e : StoredEntry}
    (hlogged : step.planned.logged = true ↔ step.name.text ∈ entries.map (·.name)) :
    e ∈ step.write entries ↔
      step.Writes entries e ∨ e ∈ entries ∧ (step.Executes → step.name.text ≠ e.name) := by
  obtain ⟨p, fate, sent⟩ := step
  cases fate with
  | executed tick =>
    refine (mem_recordEntry_iff hlogged).trans (or_congr Iff.rfl (and_congr_right fun _ => ?_))
    exact ⟨fun h _ => h, fun h => h ⟨tick, rfl⟩⟩
  | skipped =>
    refine ⟨fun h => .inr ⟨h, fun ⟨_, hf⟩ => by cases hf⟩, ?_⟩
    rintro (⟨_, _, hf, -⟩ | ⟨h, -⟩)
    · cases hf
    · exact h
  | failed cause =>
    refine ⟨fun h => .inr ⟨h, fun ⟨_, hf⟩ => by cases hf⟩, ?_⟩
    rintro (⟨_, _, hf, -⟩ | ⟨h, -⟩)
    · cases hf
    · exact h

theorem mem_write_of_ne {e : StoredEntry}
    (hlogged : step.planned.logged = true ↔ step.name.text ∈ entries.map (·.name))
    (hne : e.name ≠ step.name.text) : e ∈ step.write entries ↔ e ∈ entries := by
  rw [mem_write_iff hlogged]
  constructor
  · rintro (h | ⟨h, -⟩)
    · exact absurd h.name_eq hne
    · exact h
  · exact fun h => .inr ⟨h, fun _ hname => hne hname.symm⟩

theorem names_write (step : Step) (entries : List StoredEntry) :
    (step.write entries).map (·.name) = entries.map (·.name) ∨
      step.planned.logged = false ∧
        (step.write entries).map (·.name) = entries.map (·.name) ++ [step.name.text] := by
  obtain ⟨p, fate, sent⟩ := step
  cases fate with
  | skipped => exact .inl rfl
  | failed cause => exact .inl rfl
  | executed tick =>
    show (recordEntry p tick entries).map (·.name) = _ ∨ _ ∧
      (recordEntry p tick entries).map (·.name) = _
    cases hlogged : p.logged with
    | true =>
      rw [recordEntry, if_pos hlogged]
      exact .inl (names_updateEntry _ _ _ _)
    | false =>
      rw [recordEntry, if_neg (by rw [hlogged]; exact Bool.false_ne_true)]
      exact .inr ⟨rfl, names_insertEntry _ _ _ _⟩

end Step

theorem Tracked.tail (h : Tracked entries (step.planned :: planned)) :
    Tracked (step.write entries) planned := by
  obtain ⟨hfirst, hrest⟩ := List.nodup_cons.mp h.named
  have hlogged := h.logged step.planned List.mem_cons_self
  refine ⟨?_, hrest, fun p hp => ?_⟩
  · rcases step.names_write entries with hnames | ⟨hnew, hnames⟩
    · rw [hnames]
      exact h.distinct
    · have hfree : step.name.text ∉ entries.map (·.name) := by
        intro hmem
        rw [hlogged.mpr hmem] at hnew
        cases hnew
      rw [hnames]
      exact h.distinct.append (List.nodup_singleton _) (List.disjoint_singleton.mpr hfree)
  · have hne : p.migration.name.text ≠ step.name.text := fun heq =>
      hfirst (List.mem_map.mpr ⟨p, hp, heq⟩)
    rw [h.logged p (List.mem_cons_of_mem _ hp)]
    rcases step.names_write entries with hnames | ⟨-, hnames⟩
    · rw [hnames]
    · rw [hnames, List.mem_append, List.mem_singleton, or_iff_left hne]

theorem Tracked.written {rest : List Planned}
    (h : Tracked entries (course.map (·.planned) ++ rest)) :
    Tracked (written course entries) rest := by
  induction course generalizing entries with
  | nil => exact h
  | cons step course ih => exact ih h.tail

/-! ## Some steps -/

/-- After some steps there are the entries that they write, and those of before that have none of
their names. -/
theorem mem_written_iff (h : Tracked entries (course.map (·.planned))) {e : StoredEntry} :
    e ∈ written course entries ↔ (∃ step ∈ course, step.Writes entries e) ∨
      e ∈ entries ∧ ∀ step ∈ course, step.Executes → step.name.text ≠ e.name := by
  induction course generalizing entries with
  | nil => simp [written]
  | cons first course ih =>
    have hlogged := h.logged first.planned List.mem_cons_self
    have hne : ∀ step ∈ course, step.name.text ≠ first.name.text := by
      intro step hstep heq
      refine (List.nodup_cons.mp h.named).1 ?_
      show first.name.text ∈ _
      rw [← heq, List.map_map]
      exact List.mem_map_of_mem hstep
    -- the later steps find the entries of their names as they were
    have hlater : ∀ step ∈ course,
        (step.Writes (first.write entries) e ↔ step.Writes entries e) := by
      intro step hstep
      have hsame : ∀ old : StoredEntry, old.name = step.name.text →
          (old ∈ first.write entries ↔ old ∈ entries) := fun old hname =>
        first.mem_write_of_ne hlogged (hname ▸ hne step hstep)
      exact ⟨fun hw => hw.congr fun old hname => (hsame old hname).symm, fun hw => hw.congr hsame⟩
    refine (ih h.tail).trans ?_
    rw [first.mem_write_iff hlogged]
    constructor
    · rintro (⟨step, hstep, hwrites⟩ | ⟨hwrites | ⟨hmem, hfirst⟩, hrest⟩)
      · exact .inl ⟨step, List.mem_cons_of_mem _ hstep, (hlater step hstep).mp hwrites⟩
      · exact .inl ⟨first, List.mem_cons_self, hwrites⟩
      · exact .inr ⟨hmem, List.forall_mem_cons.mpr ⟨hfirst, hrest⟩⟩
    · rintro (⟨step, hstep, hwrites⟩ | ⟨hmem, hall⟩)
      · rcases List.mem_cons.mp hstep with rfl | hstep
        · refine .inr ⟨.inl hwrites, fun other hother _ => ?_⟩
          rw [hwrites.name_eq]
          exact hne other hother
        · exact .inl ⟨step, hstep, (hlater step hstep).mpr hwrites⟩
      · obtain ⟨hfirst, hrest⟩ := List.forall_mem_cons.mp hall
        exact .inr ⟨.inr ⟨hmem, hfirst⟩, hrest⟩

theorem Tracked.front {some : List Planned} (h : Tracked entries planned)
    (hp : some <+: planned) : Tracked entries some where
  distinct := h.distinct
  named := h.named.sublist (hp.sublist.map _)
  logged p hmem := h.logged p (hp.subset hmem)

/-- A step at the position of its migration writes an entry that is in its place. -/
theorem placed_written {names : List String} (h : Tracked entries (course.map (·.planned)))
    (hplaced : Placed names entries)
    (hsteps : ∀ step ∈ course, step.name.text ∈ names ∧
      names.idxOf step.name.text = step.planned.actualOrder) :
    Placed names (written course entries) := by
  intro e he
  rcases (mem_written_iff h).mp he with ⟨step, hstep, hwrites⟩ | ⟨hold, -⟩
  · obtain ⟨hmem, hidx⟩ := hsteps step hstep
    have hname := hwrites.name_eq
    obtain ⟨tick, created, -, rfl, -⟩ := hwrites
    rw [hname, hidx]
    exact ⟨hmem, rfl⟩
  · exact hplaced e hold

theorem readable_written (h : Tracked entries (course.map (·.planned)))
    (hread : ∀ e ∈ entries, Readable e)
    (hfits : ∀ step ∈ course, IntegerType.big.holds step.planned.actualOrder = true) :
    ∀ e ∈ written course entries, Readable e := by
  intro e he
  rcases (mem_written_iff h).mp he with ⟨step, hstep, hwrites⟩ | ⟨hold, -⟩
  · obtain ⟨tick, created, -, rfl, ⟨old, hold, -, rfl⟩ | ⟨-, rfl⟩⟩ := hwrites
    · exact (hread old hold).updated _ tick (hfits step hstep)
    · exact .inserted _ tick (hfits step hstep)
  · exact hread e hold

end SchemaMigration
