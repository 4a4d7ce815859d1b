import SchemaMigration.Proofs.Cycle.Applying

/-!
# SchemaMigration.Proofs.Cycle.Selection

What the sieves keep, and what plans and reports show of it.

* `Selected` : when a migration is due, in terms of the stored entries.
* `Sieve.standard_plannedIn_iff` : the sieves keep what is selected.
* `Engine.line`, `Engine.planEntries_eq_ok` : the lines of a plan without errors.
* `reported_eq`, `perm_reported` : the three lists of a report, and that together they have every
  migration of a course.
-/

namespace SchemaMigration

open Sql Database

/-- A migration is not to be ignored, belongs to the environment, and either has no entry or runs
again: always, or because its body has changed. -/
structure Selected (environment : Option String) (entries : List StoredEntry) (m : Migration) :
    Prop where
  wanted : m.parameters.ignore = false
  here : ∀ other, m.parameters.environment = some other → environment = some other
  due : m.name.text ∉ entries.map (·.name) ∨ m.parameters.run = .always ∨
    m.parameters.run = .onChange ∧ ∃ e ∈ entries, e.name = m.name.text ∧ e.hash ≠ m.hash

variable {environment : Option String} {mayFail : Call → Prop} {entries : List StoredEntry}
  {p : Planned} {planned : List Planned} {course : List Step}

/-! ## The sieves -/

namespace Sieve

theorem chain_eq_ok_true_iff {sieves : List Sieve} :
    chain sieves p = .ok true ↔ ∀ sieve ∈ sieves, sieve p = .ok true := by
  refine ⟨of_chain, fun h => ?_⟩
  induction sieves with
  | nil => rfl
  | cons sieve rest ih =>
    obtain ⟨hsieve, hrest⟩ := List.forall_mem_cons.mp h
    rw [chain, hsieve, ih hrest]
    rfl

theorem notIgnored_eq_ok_true_iff :
    notIgnored p = .ok true ↔ p.migration.parameters.ignore = false := by
  rw [notIgnored]
  cases p.migration.parameters.ignore with
  | false => simp
  | true => cases p.logged <;> simp

theorem inEnvironment_eq_ok_true_iff : inEnvironment environment p = .ok true ↔
    ∀ other, p.migration.parameters.environment = some other → environment = some other := by
  rw [inEnvironment]
  cases p.migration.parameters.environment with
  | none => simp
  | some wanted => simp

theorem runs_eq_ok_true_iff {status : RunStatus} (h : p.status = some status) :
    runs p = .ok true ↔ status = .new ∨ p.migration.parameters.run = .always ∨
      p.migration.parameters.run = .onChange ∧ status = .bodyChanged := by
  rw [runs, h]
  cases status <;> cases p.migration.parameters.run <;> simp

theorem standard_eq_ok_true_iff : standard environment p = .ok true ↔
    notIgnored p = .ok true ∧ runs p = .ok true ∧ inEnvironment environment p = .ok true := by
  rw [standard, chain_eq_ok_true_iff]
  simp

/-- The sieves have no objection to a migration that was kept once and is applied by now. -/
theorem standard_of_applied {old : Planned} (h : standard environment old = .ok true)
    (hm : p.migration = old.migration) (hstatus : p.status = some .applied) :
    ∃ kept, standard environment p = .ok kept := by
  obtain ⟨hignore, -, hhere⟩ := standard_eq_ok_true_iff.mp h
  rw [notIgnored_eq_ok_true_iff, ← hm, ← notIgnored_eq_ok_true_iff] at hignore
  rw [inEnvironment_eq_ok_true_iff, ← hm, ← inEnvironment_eq_ok_true_iff] at hhere
  have hruns : ∃ kept, runs p = .ok kept := by
    rw [runs, hstatus]
    cases p.migration.parameters.run with
    | once => exact ⟨_, rfl⟩
    | always => exact ⟨_, rfl⟩
    | onChange => exact ⟨_, rfl⟩
  obtain ⟨kept, hruns⟩ := hruns
  refine ⟨true && (kept && (true && true)), ?_⟩
  simp only [standard, chain, hignore, hruns, hhere]

theorem standard_plannedIn_iff (hd : (entries.map (·.name)).Nodup) {m : Migration} {i : Nat} :
    standard environment (plannedIn entries m i) = .ok true ↔ Selected environment entries m := by
  have hruns : runs (plannedIn entries m i) = .ok true ↔
      m.name.text ∉ entries.map (·.name) ∨ m.parameters.run = .always ∨
        m.parameters.run = .onChange ∧ ∃ e ∈ entries, e.name = m.name.text ∧ e.hash ≠ m.hash := by
    refine (runs_eq_ok_true_iff rfl).trans ?_
    show _ ∨ m.parameters.run = .always ∨ m.parameters.run = .onChange ∧ _ ↔ _
    cases hentry : entryOf? entries m.name.text with
    | none =>
      have hnew : m.name.text ∉ entries.map (·.name) := by
        rw [← isSome_entryOf?, hentry]
        simp
      simp [RunStatus.ofStored, hnew]
    | some e =>
      obtain ⟨he, hname⟩ := (entryOf?_eq_some_iff hd).mp hentry
      have hold : m.name.text ∈ entries.map (·.name) := hname ▸ List.mem_map_of_mem he
      have hchanged : (∃ e ∈ entries, e.name = m.name.text ∧ e.hash ≠ m.hash) ↔
          e.hash ≠ m.hash := by
        refine ⟨?_, fun h => ⟨e, he, hname, h⟩⟩
        rintro ⟨other, hother, hsame, hhash⟩
        cases hentry.symm.trans ((entryOf?_eq_some_iff hd).mpr ⟨hother, hsame⟩)
        exact hhash
      rw [hchanged, RunStatus.ofStored]
      split <;> simp [*]
  rw [standard_eq_ok_true_iff, notIgnored_eq_ok_true_iff, inEnvironment_eq_ok_true_iff, hruns]
  constructor
  · rintro ⟨hwanted, hdue, hhere⟩
    exact ⟨hwanted, hhere, hdue⟩
  · intro h
    exact ⟨h.wanted, h.due, h.here⟩

theorem standard_planOf_iff (hd : (entries.map (·.name)).Nodup) {ordered : List Migration}
    (hp : p ∈ planOf entries ordered) :
    standard environment p = .ok true ↔ Selected environment entries p.migration := by
  obtain ⟨m, -, hpm⟩ := mem_planOf hp
  rw [hpm]
  exact standard_plannedIn_iff hd

/-- Whether the sieves keep a migration; those that they object to are not kept. -/
def keeps (environment : Option String) (p : Planned) : Bool :=
  match standard environment p with
  | .ok kept => kept
  | .error _ => false

end Sieve

/-! ## The lines of a plan -/

namespace Engine

variable {engine : Engine}

def line (engine : Engine) (p : Planned) : PlanEntry where
  name := p.migration.name
  author := p.migration.author
  actualOrder := p.actualOrder
  status := p.status.getD .new
  decision := if Sieve.keeps engine.environment p then .execute else .skip

theorem planEntries_eq_ok
    (h : ∀ p ∈ planned, ∃ kept, Sieve.standard engine.environment p = .ok kept) :
    engine.planEntries planned = .ok (planned.map engine.line) := by
  induction planned with
  | nil => rfl
  | cons p rest ih =>
    obtain ⟨⟨kept, hkept⟩, hrest⟩ := List.forall_mem_cons.mp h
    obtain ⟨status, hstatus, hentry⟩ := planEntry_of_standard hkept
    have hline : engine.line p = ⟨p.migration.name, p.migration.author, p.actualOrder, status,
        if kept then .execute else .skip⟩ := by
      rw [line, hstatus, Sieve.keeps, hkept]
      rfl
    rw [planEntries, hentry, ih hrest, List.map_cons, hline]

end Engine

/-! ## The lists of a report -/

def Fate.isSkipped : Fate → Bool
  | .skipped => true
  | _ => false

def Fate.isExecuted : Fate → Bool
  | .executed _ => true
  | _ => false

def Fate.isFailed : Fate → Bool
  | .failed _ => true
  | _ => false

def Step.failure? (step : Step) : Option FailedMigration :=
  match step.fate with
  | .failed cause => some ⟨step.name, cause⟩
  | _ => none

theorem Step.executes_iff {step : Step} : step.Executes ↔ step.fate.isExecuted = true := by
  obtain ⟨p, fate, sent⟩ := step
  cases fate <;> simp [Step.Executes, Fate.isExecuted]

/-- A step is kept by the sieves unless it is skipped. -/
theorem Step.Fits.kept_iff {step : Step} (h : step.Fits environment mayFail) :
    Sieve.standard environment step.planned = .ok true ↔ step.fate.isSkipped = false := by
  cases h with
  | skipped h => simp [h, Fate.isSkipped]
  | executed h => simp [h, Fate.isSkipped]
  | failed h => simp [h, Fate.isSkipped]

theorem reported_eq (course : List Step) (report : Report) :
    reported course report = {
      executed := report.executed ++ (course.filter (·.fate.isExecuted)).map Step.name
      skipped := report.skipped ++ (course.filter (·.fate.isSkipped)).map Step.name
      failed := report.failed ++ course.filterMap Step.failure? } := by
  induction course generalizing report with
  | nil => simp [reported]
  | cons step rest ih =>
    have hnext : reported (step :: rest) report = reported rest (step.report report) := rfl
    rw [hnext, ih]
    obtain ⟨p, fate, sent⟩ := step
    cases fate <;>
      simp [Step.report, Step.failure?, Fate.isExecuted, Fate.isSkipped, List.filterMap_cons]

section Reported

variable (course : List Step)

theorem executed_reported :
    (reported course {}).executed = (course.filter (·.fate.isExecuted)).map Step.name := by
  rw [reported_eq, List.nil_append]

theorem skipped_reported :
    (reported course {}).skipped = (course.filter (·.fate.isSkipped)).map Step.name := by
  rw [reported_eq, List.nil_append, List.nil_append]

theorem mem_failed_reported {f : FailedMigration} : f ∈ (reported course {}).failed ↔
    ∃ step ∈ course, step.name = f.name ∧ step.fate = .failed f.cause := by
  rw [reported_eq, List.nil_append, List.nil_append, List.nil_append, List.mem_filterMap]
  refine exists_congr fun step => and_congr_right fun _ => ?_
  obtain ⟨p, fate, sent⟩ := step
  obtain ⟨name, cause⟩ := f
  cases fate <;> simp [Step.failure?]

theorem failed_reported : (reported course {}).failed.map (·.name) =
    (course.filter (·.fate.isFailed)).map Step.name := by
  simp only [reported_eq, List.nil_append]
  induction course with
  | nil => rfl
  | cons step rest ih =>
    obtain ⟨p, fate, sent⟩ := step
    cases fate <;> simp_all [Step.failure?, Fate.isFailed, List.filterMap_cons]

/-- What is not skipped is executed or failed. -/
theorem perm_kept : ((reported course {}).executed ++ (reported course {}).failed.map (·.name)).Perm
    ((course.filter fun step => !step.fate.isSkipped).map Step.name) := by
  have hsplit := (course.filter fun step => !step.fate.isSkipped).filter_append_perm
    (·.fate.isExecuted)
  rw [List.filter_filter, List.filter_filter] at hsplit
  have hexecuted : ∀ step ∈ course,
      (step.fate.isExecuted && !step.fate.isSkipped) = step.fate.isExecuted := by
    intro step _
    cases step.fate <;> rfl
  have hfailed : ∀ step ∈ course,
      (!step.fate.isExecuted && !step.fate.isSkipped) = step.fate.isFailed := by
    intro step _
    cases step.fate <;> rfl
  rw [List.filter_congr hexecuted, List.filter_congr hfailed] at hsplit
  rw [executed_reported, failed_reported, ← List.map_append]
  exact hsplit.map _

variable {course}

/-- Where no two steps have one name, a name in a list tells about its step. -/
theorem name_mem_filter_iff (hn : (course.map Step.name).Nodup) {step : Step}
    (hstep : step ∈ course) {q : Step → Bool} :
    step.name ∈ (course.filter q).map Step.name ↔ q step = true := by
  constructor
  · intro h
    obtain ⟨other, hother, hname⟩ := List.mem_map.mp h
    obtain ⟨hmem, hq⟩ := List.mem_filter.mp hother
    rw [← List.inj_on_of_nodup_map hn hmem hstep hname]
    exact hq
  · exact fun h => List.mem_map_of_mem (List.mem_filter.mpr ⟨hstep, h⟩)

end Reported

/-! ## The steps of a whole cycle -/

namespace Ran

variable {schema : String} {ordered : List Migration} {sent : List Sent} {t : Watched}
  (h : Ran schema environment mayFail (planOf entries ordered) (inPlace (texts ordered) entries)
    sent course t)

include h

theorem migrations : course.map (·.planned.migration) = ordered := by
  have hmigrations := congrArg (List.map (·.migration)) h.whole
  rw [List.map_map, map_migration_planOf] at hmigrations
  exact hmigrations

theorem names : course.map Step.name = ordered.map (·.name) := by
  rw [← h.migrations, List.map_map]
  rfl

theorem nodup_names (hn : (texts ordered).Nodup) : (course.map Step.name).Nodup := by
  rw [h.names]
  refine List.Nodup.of_map Name.text ?_
  rw [List.map_map]
  exact hn

theorem exists_step {m : Migration} (hm : m ∈ ordered) :
    ∃ step ∈ course, step.planned.migration = m := by
  rw [← h.migrations] at hm
  exact List.mem_map.mp hm

end Ran
end SchemaMigration
