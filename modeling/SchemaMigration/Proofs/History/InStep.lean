import SchemaMigration.Proofs.Cycle.Standing
import SchemaMigration.Proofs.Ordering.Build

/-!
# SchemaMigration.Proofs.History.InStep

The log in memory beside the one in the database, through all that a cycle writes.

* `LogEntry.timeless`, `Log.Like` : an entry without times and mark, and logs that agree in such
  entries.
* `StoredEntry.Tells` : a stored entry is read as one in memory, apart from times and mark.
* `Log.Reflects` : each stored entry is read as the one of its name, and memory has no others.
* `Log.InStep` : contents with a log that is reflected in memory.
* `Log.Reflects.modify`, `Log.Reflects.updated`, `Log.Reflects.inserted` : changes that are made on
  both sides.
* `Log.InStep.moved`, `Log.InStep.updated`, `Log.InStep.inserted` : the same for the statements that
  write to the log.

`Log.InStep.exists_read` says what being in step means for whoever reads the log.
-/

namespace SchemaMigration

open Sql Database

/-- The entry without the times, which the database sets, and without the mark of the cycle. -/
def LogEntry.timeless (entry : LogEntry) : LogEntry :=
  { entry with createdAt := none, lastExecutedAt := none, applied := false }

/-- Two logs have the same names, and entries that agree in all but times and marks. -/
def Log.Like (log log' : Log) : Prop :=
  ∀ name, (log.get? name).map LogEntry.timeless = (log'.get? name).map LogEntry.timeless

/-- What is stored is read as an entry in memory, apart from times and mark. -/
def StoredEntry.Tells (e : StoredEntry) (entry : LogEntry) : Prop :=
  ∃ read, ReadsAs e.shown read ∧ read.timeless = entry.timeless

/-- Each stored entry is read as the one of its name in memory, where there are no others. -/
structure Log.Reflects (log : Log) (entries : List StoredEntry) : Prop where
  distinct : (entries.map (·.name)).Nodup
  tells : ∀ e ∈ entries, ∃ entry, log.get? e.name = some entry ∧ e.Tells entry
  covers : ∀ name, log.contains name = true → name ∈ entries.map (·.name)

/-- Contents with a log that is reflected in memory. -/
structure Log.InStep (schema : String) (log : Log) (data : Data) : Prop where
  present : hasLog schema data = true
  reflected : ∃ entries : List StoredEntry,
    logRows schema data = entries.map StoredEntry.cells ∧ log.Reflects entries

variable {schema : String} {data data' : Data} {entries : List StoredEntry} {log log' : Log}
  {m : Migration} {position : Int} {outcome : Outcome}

/-! ## One entry -/

namespace StoredEntry.Tells

variable {e : StoredEntry} {entry entry' : LogEntry}

/-- A row is read in one way. -/
theorem timeless_eq (h : e.Tells entry) (h' : e.Tells entry') :
    entry.timeless = entry'.timeless := by
  obtain ⟨read, hread, hsame⟩ := h
  obtain ⟨read', hread', hsame'⟩ := h'
  have hrow := (ofRow_of_readsAs hread).symm.trans (ofRow_of_readsAs hread')
  rw [← hsame, ← hsame', Except.ok.inj hrow]

theorem readable (h : e.Tells entry) : Readable e := by
  obtain ⟨read, hread, -⟩ := h
  exact ⟨read, hread⟩

theorem marked (h : e.Tells entry) : e.Tells { entry with applied := true } := h

theorem moved (h : e.Tells entry) (hfits : IntegerType.big.holds position = true) :
    StoredEntry.Tells { e with runOrder := position } { entry with runOrder := position } := by
  obtain ⟨read, hread, hsame⟩ := h
  refine ⟨_, Readable.readsAs_moved hread hfits, ?_⟩
  exact congrArg (fun entry : LogEntry => { entry with runOrder := position }) hsame

theorem inserted (m : Migration) (tick : Nat) (hfits : IntegerType.big.holds position = true) :
    (StoredEntry.ofMigration m position (Data.stamp tick) (Data.stamp tick)).Tells
      (.ofMigration m position) := by
  obtain ⟨created, executed, hread⟩ := Readable.exists_readsAs_ofMigration m tick hfits
    (Readable.timestamp_stamp _ 6 tick rfl)
  exact ⟨_, hread, rfl⟩

theorem updated (h : e.Tells entry) (m : Migration) (tick : Nat)
    (hfits : IntegerType.big.holds position = true) :
    (StoredEntry.ofMigration m position e.createdAt (Data.stamp tick)).Tells
      (.ofMigration m position) := by
  obtain ⟨read, hread, -⟩ := h
  obtain ⟨created, executed, hread⟩ :=
    Readable.exists_readsAs_ofMigration m tick hfits ⟨_, hread.createdAt⟩
  exact ⟨_, hread, rfl⟩

end StoredEntry.Tells

/-! ## All entries -/

namespace Log

theorem contains_modify (log : Log) (name other : String) (f : LogEntry → LogEntry) :
    (log.modify name f).contains other = log.contains other := by
  by_cases hother : other = name
  · subst hother
    rw [contains, get?_modify_self, Option.isSome_map, contains]
  · rw [contains, get?_modify_of_ne log f hother, contains]

namespace Reflects

theorem contains_iff (h : log.Reflects entries) (name : String) :
    log.contains name = true ↔ name ∈ entries.map (·.name) := by
  refine ⟨h.covers name, fun hmem => ?_⟩
  obtain ⟨e, he, rfl⟩ := List.mem_map.mp hmem
  obtain ⟨entry, hget, -⟩ := h.tells e he
  simp [contains, hget]

theorem like (h : log.Reflects entries) (h' : log'.Reflects entries) : log.Like log' := by
  intro name
  by_cases hmem : name ∈ entries.map (·.name)
  · obtain ⟨e, he, rfl⟩ := List.mem_map.mp hmem
    obtain ⟨entry, hget, htells⟩ := h.tells e he
    obtain ⟨entry', hget', htells'⟩ := h'.tells e he
    simp [hget, hget', htells.timeless_eq htells']
  · have hnone := mt (h.covers name) hmem
    have hnone' := mt (h'.covers name) hmem
    simp only [contains, Option.not_isSome_iff_eq_none] at hnone hnone'
    rw [hnone, hnone']

theorem of_readIn (hrows : logRows schema data = entries.map StoredEntry.cells)
    (hd : (entries.map (·.name)).Nodup) (h : Store.readIn schema data = .ok log) :
    log.Reflects entries := by
  obtain ⟨sorted, hperm, hall⟩ := Store.exists_sorted_of_readIn hrows hd h
  refine ⟨hd, ?_, ?_⟩
  · intro e he
    obtain ⟨entry, hentry, hread⟩ := exists_of_forall₂ hall (hperm.mem_iff.mpr he)
    have hname : e.name = entry.name := Except.ok.inj hread.name
    exact ⟨entry, (find?_key_eq_some_iff log.nodup).mpr ⟨hentry, hname.symm⟩, entry, hread, rfl⟩
  · intro name hname
    rw [(mirrors_of_readIn hrows hd h).contains] at hname
    exact isSome_entryOf?.mp hname

/-- What is done to the entries of one name on both sides. -/
theorem modify (h : log.Reflects entries) {name : String} {f : LogEntry → LogEntry}
    {g : StoredEntry → StoredEntry} (hname : ∀ e, (g e).name = e.name)
    (hother : ∀ e, e.name ≠ name → g e = e)
    (htells : ∀ e entry, e.name = name → e.Tells entry →
      (g e).Tells { f entry with name := entry.name }) :
    (log.modify name f).Reflects (entries.map g) := by
  have hnames : (entries.map g).map (·.name) = entries.map (·.name) := by simp [hname]
  refine ⟨hnames ▸ h.distinct, ?_, ?_⟩
  · intro e' he'
    obtain ⟨e, he, rfl⟩ := List.mem_map.mp he'
    obtain ⟨entry, hget, hentry⟩ := h.tells e he
    rw [hname]
    by_cases hsame : e.name = name
    · subst hsame
      refine ⟨_, ?_, htells e entry rfl hentry⟩
      rw [get?_modify_self, hget, Option.map_some]
    · rw [get?_modify_of_ne log f hsame, hother e hsame]
      exact ⟨entry, hget, hentry⟩
  · intro other hcontains
    rw [contains_modify] at hcontains
    rw [hnames]
    exact h.covers other hcontains

theorem setRunOrder (h : log.Reflects entries) (name : String)
    (hfits : IntegerType.big.holds position = true) :
    (log.setRunOrder name position).Reflects (moveEntry name position entries) := by
  refine h.modify (fun e => ?_) (fun e hother => if_neg hother) fun e entry hname hentry => ?_
  · split <;> rfl
  · rw [if_pos hname]
    exact hentry.moved hfits

theorem markApplied (h : log.Reflects entries) (name : String) :
    (log.markApplied name).Reflects entries := by
  have hmarked : (log.markApplied name).Reflects (entries.map id) :=
    h.modify (fun _ => rfl) (fun _ _ => rfl) fun _ _ _ hentry => hentry.marked
  rwa [List.map_id] at hmarked

theorem updated (h : log.Reflects entries) (hmem : log.contains m.name.text = true) (tick : Nat)
    (hfits : IntegerType.big.holds position = true) :
    (log.upsert (.ofMigration m position)).Reflects (updateEntry m position tick entries) := by
  have hnames := names_updateEntry m position tick entries
  refine ⟨hnames ▸ h.distinct, ?_, ?_⟩
  · intro e' he'
    obtain ⟨e, he, rfl⟩ := List.mem_map.mp he'
    obtain ⟨entry, hget, hentry⟩ := h.tells e he
    by_cases hname : e.name = m.name.text
    · rw [if_pos hname]
      exact ⟨_, get?_upsert_self log _, hentry.updated m tick hfits⟩
    · rw [if_neg hname, get?_upsert_of_ne log hname]
      exact ⟨entry, hget, hentry⟩
  · intro name hcontains
    rw [hnames, ← h.contains_iff]
    rcases (contains_upsert log _ name).mp hcontains with rfl | hcontains
    · exact hmem
    · exact hcontains

theorem inserted (h : log.Reflects entries) (hnew : m.name.text ∉ entries.map (·.name))
    (tick : Nat) (hfits : IntegerType.big.holds position = true) :
    (log.upsert (.ofMigration m position)).Reflects (insertEntry m position tick entries) := by
  have hnames := names_insertEntry m position tick entries
  refine ⟨?_, ?_, ?_⟩
  · rw [hnames, List.nodup_append]
    refine ⟨h.distinct, by simp, ?_⟩
    intro name hname other hother hsame
    rw [hsame, List.mem_singleton.mp hother] at hname
    exact hnew hname
  · intro e' he'
    rcases List.mem_append.mp he' with he | hlast
    · obtain ⟨entry, hget, hentry⟩ := h.tells e' he
      have hne : e'.name ≠ m.name.text := fun hname => hnew (hname ▸ List.mem_map_of_mem he)
      rw [get?_upsert_of_ne log hne]
      exact ⟨entry, hget, hentry⟩
    · obtain rfl := List.mem_singleton.mp hlast
      exact ⟨_, get?_upsert_self log _, .inserted m tick hfits⟩
  · intro name hcontains
    rw [hnames, List.mem_append]
    rcases (contains_upsert log _ name).mp hcontains with rfl | hcontains
    · exact .inr (List.mem_singleton_self _)
    · exact .inl (h.covers name hcontains)

end Reflects

/-! ## The log in the database -/

namespace InStep

theorem same (h : log.InStep schema data) (hs : SameLog schema data data') :
    log.InStep schema data' := by
  obtain ⟨hlog, entries, hrows, hreflects⟩ := h
  exact ⟨hs.2 hlog, entries, hs.1.trans hrows, hreflects⟩

/-- A log that was read is in step with what it was read from. -/
theorem of_readIn (htab : Tabular schema data) (hlog : hasLog schema data = true)
    (h : Store.readIn schema data = .ok log) : log.InStep schema data := by
  have hrows := map_cells_storedEntries htab.shape
  exact ⟨hlog, _, hrows, .of_readIn hrows htab.distinct h⟩

/-- The log in the database can be read, and says what the log in memory says. -/
theorem exists_read (h : log.InStep schema data) :
    ∃ stored, Store.readIn schema data = .ok stored ∧ log.Like stored := by
  obtain ⟨-, entries, hrows, hreflects⟩ := h
  obtain ⟨stored, hread⟩ := (exists_readIn_iff hrows).mpr fun e he => by
    obtain ⟨entry, -, htells⟩ := hreflects.tells e he
    exact htells.readable
  exact ⟨stored, hread, hreflects.like (.of_readIn hrows hreflects.distinct hread)⟩

theorem markApplied (h : log.InStep schema data) (name : String) :
    (log.markApplied name).InStep schema data := by
  obtain ⟨hlog, entries, hrows, hreflects⟩ := h
  exact ⟨hlog, entries, hrows, hreflects.markApplied name⟩

theorem moved (h : log.InStep schema data) {name : String}
    (hfits : IntegerType.big.holds position = true)
    (he : Effect schema data (.control .updateRunOrder [.int position, .text name]) data'
      outcome) :
    (log.setRunOrder name position).InStep schema data' := by
  obtain ⟨-, entries, hrows, hreflects⟩ := h
  obtain ⟨hrows', hlog⟩ := logRows_move he
  refine ⟨hlog, _, ?_, hreflects.setRunOrder name hfits⟩
  rw [cells_moveEntry, ← hrows]
  exact hrows'

theorem updated (h : log.InStep schema data) (hmem : log.contains m.name.text = true)
    (hfits : IntegerType.big.holds position = true)
    (he : Effect schema data
      (.control .updateLog (LogEntry.ofMigration m position).updateParameters) data' outcome) :
    (log.upsert (.ofMigration m position)).InStep schema data' := by
  obtain ⟨-, entries, hrows, hreflects⟩ := h
  obtain ⟨hrows', hlog⟩ := logRows_update he
  refine ⟨hlog, _, ?_, hreflects.updated hmem (data.ticks + 1) hfits⟩
  rw [cells_updateEntry, ← hrows]
  exact hrows'

theorem inserted (h : log.InStep schema data) (hfits : IntegerType.big.holds position = true)
    (he : Effect schema data
      (.control .insertLog (LogEntry.ofMigration m position).insertParameters) data' outcome) :
    (log.upsert (.ofMigration m position)).InStep schema data' := by
  obtain ⟨-, entries, hrows, hreflects⟩ := h
  have hfree := free_of_insert he
  obtain ⟨hrows', hlog⟩ := logRows_insert he
  have hnew : m.name.text ∉ entries.map (·.name) := by
    intro hmem
    obtain ⟨e, he, hname⟩ := List.mem_map.mp hmem
    refine hfree e.cells ?_ ((e.hasKey_cells _).mpr hname)
    rw [hrows]
    exact List.mem_map_of_mem he
  refine ⟨hlog, _, ?_, hreflects.inserted hnew (data.ticks + 1) hfits⟩
  rw [insertEntry, List.map_append, ← hrows]
  exact hrows'

end InStep
end Log
end SchemaMigration
