import SchemaMigration.History.Store
import SchemaMigration.Proofs.Database.LogTable
import SchemaMigration.Proofs.History.Agreement

/-!
# SchemaMigration.Proofs.History.Loading

Which migrations a log knows that was read from the database.

* `Log.contains_ofEntries` : a log contains the names of the entries that it is made of.
* `Store.names_readEntries` : the names of the entries in rows are the rows' first cells.
* `contains_of_agrees` : a log that was read from rows that agree with some executions contains
  the names that were executed.
-/

namespace SchemaMigration

open Sql Database

namespace Log

theorem contains_upsert (log : Log) (entry : LogEntry) (name : String) :
    (log.upsert entry).contains name = true ↔ entry.name = name ∨ log.contains name = true := by
  by_cases h : entry.name = name
  · subst h
    simp [contains, get?_upsert_self]
  · simp [contains, get?_upsert_of_ne log (Ne.symm h), h]

theorem contains_foldl (entries : List LogEntry) (log : Log) (name : String) :
    (entries.foldl upsert log).contains name = true ↔
      (∃ entry ∈ entries, entry.name = name) ∨ log.contains name = true := by
  induction entries generalizing log with
  | nil => simp
  | cons entry rest ih =>
    rw [List.foldl_cons, ih, contains_upsert, or_left_comm, ← or_assoc]
    simp only [List.mem_cons, exists_eq_or_imp]

theorem contains_ofEntries (entries : List LogEntry) (name : String) :
    (ofEntries entries).contains name = true ↔ ∃ entry ∈ entries, entry.name = name := by
  rw [ofEntries, contains_foldl]
  simp [contains, get?, empty]

end Log

theorem Except.bind_eq_ok {ε α β : Type} {x : Except ε α} {f : α → Except ε β} {b : β}
    (h : x >>= f = .ok b) : ∃ a, x = .ok a ∧ f a = .ok b := by
  cases x with
  | error e => cases h
  | ok a => exact ⟨a, rfl, h⟩

theorem Attempt.ofCell_eq_ok {α : Type} {x : Except DecodeError α} {a : α}
    (h : ofCell x = .ok a) : x = .ok a := by
  cases x with
  | error e => cases h
  | ok b => cases h; rfl

/-- A row with the log's columns whose cells read as the fields of an entry. -/
structure ReadsAs (row : Row) (entry : LogEntry) : Prop where
  name : row.str 0 = .ok entry.name
  filename : row.str 1 = .ok entry.filename
  author : row.str 2 = .ok entry.author
  modifier : ∃ text, row.str 3 = .ok text ∧ RunModifier.ofText? text = some entry.modifier
  runOrder : row.int 4 = .ok entry.runOrder
  hash : row.str 5 = .ok entry.hash
  createdAt : row.timestamp 6 = .ok entry.createdAt
  lastExecutedAt : row.timestamp 7 = .ok entry.lastExecutedAt
  userParameters : row.optStr 8 = .ok entry.userParameters
  size : row.size = logColumns.length
  applied : entry.applied = false

theorem readsAs_of_ofRow {row : Row} {entry : LogEntry} (h : LogEntry.ofRow row = .ok entry) :
    ReadsAs row entry := by
  obtain ⟨name, hname, h⟩ := Except.bind_eq_ok h
  by_cases hsize : row.size = logColumns.length
  · rw [if_neg (not_not_intro hsize)] at h
    obtain ⟨text, htext, h⟩ := Except.bind_eq_ok h
    cases hmodifier : RunModifier.ofText? text with
    | none => rw [hmodifier] at h; cases h
    | some modifier =>
      rw [hmodifier] at h
      obtain ⟨filename, hfilename, h⟩ := Except.bind_eq_ok h
      obtain ⟨author, hauthor, h⟩ := Except.bind_eq_ok h
      obtain ⟨runOrder, horder, h⟩ := Except.bind_eq_ok h
      obtain ⟨hash, hhash, h⟩ := Except.bind_eq_ok h
      obtain ⟨createdAt, hcreated, h⟩ := Except.bind_eq_ok h
      obtain ⟨lastExecutedAt, hexecuted, h⟩ := Except.bind_eq_ok h
      obtain ⟨userParameters, hparameters, h⟩ := Except.bind_eq_ok h
      cases h
      exact ⟨Attempt.ofCell_eq_ok hname, Attempt.ofCell_eq_ok hfilename,
        Attempt.ofCell_eq_ok hauthor, ⟨text, Attempt.ofCell_eq_ok htext, hmodifier⟩,
        Attempt.ofCell_eq_ok horder, Attempt.ofCell_eq_ok hhash, Attempt.ofCell_eq_ok hcreated,
        Attempt.ofCell_eq_ok hexecuted, Attempt.ofCell_eq_ok hparameters, hsize, rfl⟩
  · rw [if_pos hsize] at h
    cases h

namespace Store

theorem names_readEntries {rows : List Row} {entries : List LogEntry}
    (h : readEntries rows = .ok entries) (name : String) :
    (∃ entry ∈ entries, entry.name = name) ↔ ∃ row ∈ rows, row.str 0 = .ok name := by
  induction rows generalizing entries with
  | nil =>
    cases h
    simp
  | cons row rest ih =>
    rw [readEntries] at h
    cases hrow : LogEntry.ofRow row with
    | error e => rw [hrow] at h; cases h
    | ok entry =>
      cases hrest : readEntries rest with
      | error e => rw [hrow, hrest] at h; cases h
      | ok others =>
        rw [hrow, hrest] at h
        cases h
        simp only [List.mem_cons, exists_eq_or_imp, ih hrest, (readsAs_of_ofRow hrow).name,
          Except.ok.injEq]

end Store

theorem Shows.str {m : Migration} {row : List Cell} (h : Shows m row) :
    (⟨row.map Cell.value⟩ : Row).str 0 = .ok m.name.text := by
  obtain ⟨order, created, executed, rfl⟩ := h
  rfl

/-- A log that is read from rows that agree with some executions contains what was executed. -/
theorem contains_of_agrees {rows : List (List Cell)} {executed : List Migration}
    (h : Agrees rows executed) {outcome : Outcome} (hperm : outcome.rows.Perm rows)
    {entries : List LogEntry} (hread : Store.readEntries (shownRows outcome) = .ok entries)
    (name : Name) :
    (Log.ofEntries entries).contains name.text = true ↔ ∃ m ∈ executed, m.name = name := by
  rw [Log.contains_ofEntries, Store.names_readEntries hread]
  constructor
  · rintro ⟨row, hrow, hstr⟩
    obtain ⟨cells, hcells, rfl⟩ := List.mem_map.mp hrow
    obtain ⟨m, hm, hshows⟩ := h.shows cells (hperm.mem_iff.mp hcells)
    rw [hshows.str, Except.ok.injEq] at hstr
    exact ⟨m, mem_of_latest? hm, Name.text_injective hstr⟩
  · rintro ⟨m, hm, rfl⟩
    obtain ⟨row, hrow, hkey⟩ := h.covers m hm
    obtain ⟨m', -, hshows⟩ := h.shows row hrow
    refine ⟨_, List.mem_map_of_mem (hperm.mem_iff.mpr hrow), ?_⟩
    rw [hshows.str, (hshows.hasKey _).mp hkey]

end SchemaMigration
