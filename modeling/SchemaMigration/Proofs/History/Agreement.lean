import SchemaMigration.Database.Data
import SchemaMigration.History.LogEntry

/-!
# SchemaMigration.Proofs.History.Agreement

Rows of a log that tell what was executed.

* `Shows` : a row that tells an execution of a migration.
* `latest?` : the last execution of a name.
* `Agrees` : there is one row for every name that was executed, and it shows the last execution of
  that name.
* `Agrees.moved`, `Agrees.inserted`, `Agrees.updated` : what the statements on the log keep.
-/

namespace SchemaMigration

open Sql Database

/-- A row of the log that holds what is kept of a migration, at some run order and with some
times. -/
def Shows (migration : Migration) (row : List Cell) : Prop :=
  ∃ order created executed, row = [.text migration.name.text, .text migration.filename,
    .text migration.author, .text migration.parameters.run.text, order, .text migration.hash,
    created, executed, .text migration.userParameters.json]

/-- The last of some executions that was one of a name. -/
def latest? (executed : List Migration) (name : Name) : Option Migration :=
  executed.reverse.find? (·.name = name)

/-- The rows of a log agree with the executions so far, oldest first. -/
structure Agrees (rows : List (List Cell)) (executed : List Migration) : Prop where
  shows : ∀ row ∈ rows, ∃ m, latest? executed m.name = some m ∧ Shows m row
  covers : ∀ m ∈ executed, ∃ row ∈ rows, Data.hasKey (.text m.name.text) row = true
  distinct : (rows.map List.head?).Nodup

theorem latest?_append (executed : List Migration) (m : Migration) (name : Name) :
    latest? (executed ++ [m]) name = if m.name = name then some m else latest? executed name := by
  rw [latest?, List.reverse_append, List.reverse_singleton, List.singleton_append, List.find?_cons]
  by_cases h : m.name = name
  · simp [h]
  · simp [h, latest?]

theorem mem_of_latest? {executed : List Migration} {name : Name} {m : Migration}
    (h : latest? executed name = some m) : m ∈ executed :=
  List.mem_reverse.mp (List.mem_of_find?_eq_some h)

namespace Shows

variable {m : Migration} {row : List Cell}

theorem hasKey (h : Shows m row) (text : String) :
    Data.hasKey (.text text) row = true ↔ m.name.text = text := by
  obtain ⟨order, created, executed, rfl⟩ := h
  rw [Data.hasKey, Cell.same_text]
  exact ⟨Cell.text.inj, fun h => congrArg _ h⟩

theorem isLogRow (h : Shows m row) (text : String) :
    Data.isLogRow (.text text) row = true ↔ m.name.text = text := by
  have hlength : row.length = 9 := by
    obtain ⟨order, created, executed, rfl⟩ := h
    rfl
  rw [Data.isLogRow, hlength, ← h.hasKey text]
  rfl

theorem head (h : Shows m row) : row.head? = some (.text m.name.text) := by
  obtain ⟨order, created, executed, rfl⟩ := h
  rfl

theorem set_order (h : Shows m row) (cell : Cell) : Shows m (row.set 4 cell) := by
  obtain ⟨order, created, executed, rfl⟩ := h
  exact ⟨cell, created, executed, rfl⟩

/-- An update turns a row with the same name into one that shows the migration. -/
theorem update {m' : Migration} (h : Shows m' row) (hname : m'.name = m.name) (order : Int)
    (now : Cell) : Shows m (Data.updateRow
      ((LogEntry.ofMigration m order).updateParameters.map Cell.ofValue) now row) := by
  obtain ⟨order', created, executed, rfl⟩ := h
  refine ⟨.big order, created, now, ?_⟩
  rw [← hname]
  rfl

end Shows

namespace Agrees

variable {rows : List (List Cell)} {executed : List Migration} {m : Migration}

theorem nil : Agrees [] [] where
  shows _ h := by cases h
  covers _ h := by cases h
  distinct := List.nodup_nil

/-- There is a row with a text as its key exactly when a migration with that name was executed. -/
theorem exists_row_iff (h : Agrees rows executed) (text : String) :
    (∃ row ∈ rows, Data.hasKey (.text text) row = true) ↔ ∃ m ∈ executed, m.name.text = text := by
  constructor
  · rintro ⟨row, hrow, hkey⟩
    obtain ⟨m, hm, hshows⟩ := h.shows row hrow
    exact ⟨m, mem_of_latest? hm, (hshows.hasKey text).mp hkey⟩
  · rintro ⟨m, hm, rfl⟩
    exact h.covers m hm

/-- A change of rows that leaves their keys alone leaves the keys distinct. -/
theorem distinct_map (h : Agrees rows executed) {f : List Cell → List Cell}
    (hf : ∀ row ∈ rows, (f row).head? = row.head?) : ((rows.map f).map List.head?).Nodup := by
  have hsame : (rows.map f).map List.head? = rows.map List.head? := by
    rw [List.map_map]
    exact List.map_congr_left hf
  rw [hsame]
  exact h.distinct

theorem moved (h : Agrees rows executed) (p : List Cell → Bool) (cell : Cell) :
    Agrees (rows.map fun row => if p row then row.set 4 cell else row) executed where
  shows row hrow := by
    obtain ⟨old, hold, rfl⟩ := List.mem_map.mp hrow
    obtain ⟨m, hm, hshows⟩ := h.shows old hold
    refine ⟨m, hm, ?_⟩
    split
    · exact hshows.set_order cell
    · exact hshows
  covers m hm := by
    obtain ⟨row, hrow, hkey⟩ := h.covers m hm
    obtain ⟨m', -, hshows⟩ := h.shows row hrow
    refine ⟨_, List.mem_map_of_mem hrow, ?_⟩
    split
    · exact ((hshows.set_order cell).hasKey _).mpr ((hshows.hasKey _).mp hkey)
    · exact hkey
  distinct := by
    refine h.distinct_map fun row hrow => ?_
    obtain ⟨m, -, hshows⟩ := h.shows row hrow
    split
    · rw [(hshows.set_order cell).head, hshows.head]
    · rfl

/-- A new row for a migration that was not executed before. -/
theorem inserted (h : Agrees rows executed) (hnew : ∀ e ∈ executed, e.name ≠ m.name)
    {row : List Cell} (hrow : Shows m row) : Agrees (rows ++ [row]) (executed ++ [m]) where
  shows r hr := by
    rcases List.mem_append.mp hr with hr | hr
    · obtain ⟨m', hm', hshows⟩ := h.shows r hr
      refine ⟨m', ?_, hshows⟩
      rw [latest?_append, if_neg (hnew m' (mem_of_latest? hm')).symm]
      exact hm'
    · rw [List.mem_singleton.mp hr]
      refine ⟨m, ?_, hrow⟩
      rw [latest?_append, if_pos rfl]
  covers e he := by
    rcases List.mem_append.mp he with he | he
    · obtain ⟨r, hr, hkey⟩ := h.covers e he
      exact ⟨r, List.mem_append_left _ hr, hkey⟩
    · rw [List.mem_singleton.mp he]
      exact ⟨row, List.mem_append_right _ List.mem_cons_self, (hrow.hasKey _).mpr rfl⟩
  distinct := by
    rw [List.map_append, List.nodup_append]
    refine ⟨h.distinct, List.nodup_cons.mpr ⟨List.not_mem_nil, List.nodup_nil⟩, ?_⟩
    intro old hold new hnew' hsame
    obtain ⟨r, hr, rfl⟩ := List.mem_map.mp hold
    obtain ⟨m', hm', hshows⟩ := h.shows r hr
    rw [List.map_singleton, List.mem_singleton, hrow.head] at hnew'
    rw [hshows.head, hnew', Option.some.injEq, Cell.text.injEq] at hsame
    exact hnew m' (mem_of_latest? hm') (Name.text_injective hsame)

/-- The update of the row of a migration that was executed before. -/
theorem updated (h : Agrees rows executed) (hold : ∃ e ∈ executed, e.name = m.name)
    (order : Int) (now : Cell) :
    Agrees (rows.map fun row =>
        if Data.isLogRow (.text m.name.text) row then
          Data.updateRow ((LogEntry.ofMigration m order).updateParameters.map Cell.ofValue) now row
        else row) (executed ++ [m]) where
  shows row hrow := by
    obtain ⟨old, hmem, rfl⟩ := List.mem_map.mp hrow
    obtain ⟨m', hm', hshows⟩ := h.shows old hmem
    by_cases hname : m'.name = m.name
    · refine ⟨m, by rw [latest?_append, if_pos rfl], ?_⟩
      rw [if_pos ((hshows.isLogRow _).mpr (congrArg Name.text hname))]
      exact hshows.update hname order now
    · refine ⟨m', by rw [latest?_append, if_neg (Ne.symm hname)]; exact hm', ?_⟩
      rw [if_neg fun hkey => hname (Name.text_injective ((hshows.isLogRow _).mp hkey))]
      exact hshows
  covers e he := by
    have hbefore : ∃ e' ∈ executed, e'.name = e.name := by
      rcases List.mem_append.mp he with he | he
      · exact ⟨e, he, rfl⟩
      · rw [List.mem_singleton.mp he]
        exact hold
    obtain ⟨e', he', hname⟩ := hbefore
    obtain ⟨row, hrow, hkey⟩ := h.covers e' he'
    obtain ⟨m', -, hshows⟩ := h.shows row hrow
    have hm' : m'.name = e.name := (Name.text_injective ((hshows.hasKey _).mp hkey)).trans hname
    refine ⟨_, List.mem_map_of_mem hrow, ?_⟩
    split
    · rename_i hlog
      have hsame : m'.name = m.name := Name.text_injective ((hshows.isLogRow _).mp hlog)
      refine ((hshows.update hsame order now).hasKey _).mpr ?_
      rw [← hsame, hm']
    · exact (hshows.hasKey _).mpr (congrArg Name.text hm')
  distinct := by
    refine h.distinct_map fun row hrow => ?_
    obtain ⟨m', -, hshows⟩ := h.shows row hrow
    split
    · rename_i hlog
      have hsame : m'.name = m.name := Name.text_injective ((hshows.isLogRow _).mp hlog)
      rw [(hshows.update hsame order now).head, hshows.head, hsame]
    · rfl

end Agrees
end SchemaMigration
