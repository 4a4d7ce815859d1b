import SchemaMigration.Proofs.History.Mirror
import SchemaMigration.Proofs.Sql.Execution

/-!
# SchemaMigration.Proofs.History.Represents

The log as a map from names to entries, and the rows that represent it.

* `LogMap` : entries by name, with `LogMap.put`, `LogMap.adjust` and `LogMap.renumber`.
* `HoldsEntry` : a row of the log holds the fields of an entry.
* `Represents` : rows that hold the entries of a map, each once.
* `Represents.append`, `Represents.adjust` : one row more, and rows rewritten by name.
* `Represents.valid`, `Represents.valid_append_iff` : rows that represent a map are allowed, and
  so is one more unless its name is taken.
* `Represents.exists_readEntries` : what is read of the rows is the map.
-/

namespace SchemaMigration

open Sql

/-- Entries by name. -/
abbrev LogMap := String → Option LogEntry

namespace LogMap

def empty : LogMap := fun _ => none

def put (map : LogMap) (entry : LogEntry) : LogMap :=
  fun name => if name = entry.name then some entry else map name

/-- Change the entry with a name, if there is one. -/
def adjust (map : LogMap) (name : String) (f : LogEntry → LogEntry) : LogMap :=
  fun other => if other = name then (map name).map f else map other

/-- Move entries to other run orders, one after the other. -/
def renumber (map : LogMap) : List (String × Int64) → LogMap
  | [] => map
  | (name, order) :: rest =>
    (map.adjust name fun old => { old with runOrder := order.toInt }).renumber rest

end LogMap

/-- A row of the log with the fields of an entry. The times are counts of microseconds. -/
structure HoldsEntry (row : Record) (entry : LogEntry) : Prop where
  name : row "name" = .text entry.name
  filename : row "filename" = .text entry.filename
  author : row "author" = .text entry.author
  modifier : row "run_modifier" = .text entry.modifier.text
  runOrder : row "run_order" = .big entry.runOrder
  fits : IntegerType.big.holds entry.runOrder = true
  hash : row "hash" = .text entry.hash
  createdAt : ∃ n, row "created_at" = .timestamp .microsecond n ∧
    entry.createdAt = Instant.ofMicros? n
  lastExecutedAt : ∃ n, row "last_executed_at" = .timestamp .microsecond n ∧
    entry.lastExecutedAt = Instant.ofMicros? n
  userParameters : row "user_params" = Cell.ofValue entry.parametersCell
  applied : entry.applied = false

/-- The rows hold the entries of a map. -/
structure Represents (rows : List Record) (map : LogMap) : Prop where
  distinct : (rows.map (· "name")).Nodup
  holds : ∀ row ∈ rows, ∃ entry, HoldsEntry row entry ∧ map entry.name = some entry
  covers : ∀ name entry, map name = some entry →
    entry.name = name ∧ ∃ row ∈ rows, HoldsEntry row entry

theorem HoldsEntry.admits {row : Record} {entry : LogEntry} (h : HoldsEntry row entry) :
    ∀ column ∈ logDeclaration, column.Admits (row column.name) := by
  obtain ⟨created, hcreated, -⟩ := h.createdAt
  obtain ⟨executed, hexecuted, -⟩ := h.lastExecutedAt
  simp only [logDeclaration, List.forall_mem_cons, List.not_mem_nil, false_imp_iff, implies_true,
    and_true, h.name, h.filename, h.author, h.modifier, h.runOrder, h.hash, hcreated, hexecuted,
    h.userParameters]
  refine ⟨.inl rfl, .inl rfl, .inl rfl, .inl rfl, .inl h.fits, .inl rfl, .inl rfl, .inl rfl, ?_⟩
  cases hparameters : entry.userParameters with
  | none => exact .inr ⟨by rw [LogEntry.parametersCell, hparameters]; rfl, rfl, rfl⟩
  | some text => exact .inl (by rw [LogEntry.parametersCell, hparameters]; rfl)

theorem represents_empty : Represents [] .empty :=
  ⟨List.nodup_nil, fun _ h => (by cases h), fun _ _ h => (by cases h)⟩

namespace Represents

variable {rows : List Record} {map : LogMap} {row : Record} {entry : LogEntry}

theorem mem_names_iff (h : Represents rows map) (name : String) :
    .text name ∈ rows.map (· "name") ↔ (map name).isSome = true := by
  rw [List.mem_map, Option.isSome_iff_exists]
  constructor
  · rintro ⟨row, hrow, hname⟩
    obtain ⟨entry, hholds, hmap⟩ := h.holds row hrow
    have hsame : entry.name = name := Cell.text.inj (hholds.name.symm.trans hname)
    exact ⟨entry, hsame ▸ hmap⟩
  · rintro ⟨entry, hmap⟩
    obtain ⟨rfl, row, hrow, hholds⟩ := h.covers name entry hmap
    exact ⟨row, hrow, hholds.name⟩

theorem name_of_isKey : ∀ column ∈ logDeclaration, column.isKey = true → column.name = "name" := by
  decide

theorem valid (h : Represents rows map) : Relation.Valid ⟨logDeclaration, rows⟩ := by
  refine ⟨fun row hrow => ?_, fun column hcolumn hkey => ?_⟩
  · obtain ⟨entry, hholds, -⟩ := h.holds row hrow
    exact hholds.admits
  · simpa only [name_of_isKey column hcolumn hkey] using h.distinct

theorem append (h : Represents rows map) (hrow : HoldsEntry row entry)
    (hnew : map entry.name = none) : Represents (rows ++ [row]) (map.put entry) := by
  have hname : .text entry.name ∉ rows.map (· "name") := by
    rw [h.mem_names_iff, hnew]
    simp
  refine ⟨?_, fun other hother => ?_, fun name other hmap => ?_⟩
  · rw [List.map_append, List.map_singleton, hrow.name]
    exact List.nodup_append.mpr ⟨h.distinct, by simp, fun a ha b hb hab =>
      hname (List.mem_singleton.mp hb ▸ hab ▸ ha)⟩
  · rcases List.mem_append.mp hother with hold | hlast
    · obtain ⟨old, hholds, hmap⟩ := h.holds other hold
      have hne : old.name ≠ entry.name := fun he => by
        rw [he, hnew] at hmap
        cases hmap
      exact ⟨old, hholds, (if_neg hne).trans hmap⟩
    · rw [List.mem_singleton.mp hlast]
      exact ⟨entry, hrow, if_pos rfl⟩
  · by_cases he : name = entry.name
    · rw [LogMap.put, if_pos he] at hmap
      cases hmap
      exact ⟨he.symm, row, by simp, hrow⟩
    · rw [LogMap.put, if_neg he] at hmap
      obtain ⟨hname, old, hold, hholds⟩ := h.covers name other hmap
      exact ⟨hname, old, List.mem_append_left _ hold, hholds⟩

/-- One more row is allowed unless its name is taken. -/
theorem valid_append_iff (h : Represents rows map) (hrow : HoldsEntry row entry) :
    Relation.Valid ⟨logDeclaration, rows ++ [row]⟩ ↔ map entry.name = none := by
  constructor
  · intro hvalid
    have hd := hvalid.distinct { name := "name", type := .varchar, isKey := true }
      List.mem_cons_self rfl
    rw [List.map_append, List.map_singleton, hrow.name] at hd
    have hnew : .text entry.name ∉ rows.map (· "name") := fun hmem =>
      (List.nodup_append.mp hd).2.2 _ hmem _ List.mem_cons_self rfl
    simpa [h.mem_names_iff] using hnew
  · intro hnew
    exact (h.append hrow hnew).valid

end Represents

/-- Rewrite a row if it has a name, as an update does. -/
def rewriteRow (name : String) (f : Record → Record) (row : Record) : Record :=
  if (row "name").equals (.text name) then f row else row

/-- Change an entry if it has a name. -/
def LogEntry.rewrite (name : String) (g : LogEntry → LogEntry) (entry : LogEntry) : LogEntry :=
  if entry.name = name then g entry else entry

section Rewrite

variable {f : Record → Record} {g : LogEntry → LogEntry} {name : String}

theorem HoldsEntry.rewrite {row : Record} {entry : LogEntry} (h : HoldsEntry row entry)
    (hf : ∀ row entry, HoldsEntry row entry → entry.name = name → HoldsEntry (f row) (g entry)) :
    HoldsEntry (rewriteRow name f row) (entry.rewrite name g) := by
  have hmet : (row "name").equals (.text name) = true ↔ entry.name = name := by
    rw [Cell.equals_text, h.name, Cell.text.injEq]
  by_cases he : entry.name = name
  · rw [rewriteRow, if_pos (hmet.mpr he), LogEntry.rewrite, if_pos he]
    exact hf row entry h he
  · rw [rewriteRow, if_neg (mt hmet.mp he), LogEntry.rewrite, if_neg he]
    exact h

theorem LogEntry.name_rewrite (hg : ∀ entry, entry.name = name → (g entry).name = name)
    (entry : LogEntry) : (entry.rewrite name g).name = entry.name := by
  rw [rewrite]
  split
  · rename_i he
    rw [hg entry he, he]
  · rfl

/-- In a map that has its entries at their names, only the entry with the name changes. -/
theorem LogMap.adjust_eq_some_iff {map : LogMap}
    (hnames : ∀ other entry, map other = some entry → entry.name = other) {other : String}
    {entry : LogEntry} : map.adjust name g other = some entry ↔
      ∃ old, map other = some old ∧ old.rewrite name g = entry := by
  rw [adjust]
  by_cases he : other = name
  · rw [if_pos he, ← he, Option.map_eq_some_iff]
    refine exists_congr fun old => and_congr_right fun hold => ?_
    rw [LogEntry.rewrite, if_pos (hnames other old hold)]
  · rw [if_neg he]
    constructor
    · intro hmap
      exact ⟨entry, hmap, if_neg (hnames other entry hmap ▸ he)⟩
    · rintro ⟨old, hold, rfl⟩
      rwa [LogEntry.rewrite, if_neg (hnames other old hold ▸ he)]

end Rewrite

namespace Represents

variable {rows : List Record} {map : LogMap}

/-- Rows rewritten by name, and the map with them. -/
theorem adjust {f : Record → Record} {g : LogEntry → LogEntry} (h : Represents rows map)
    (name : String)
    (hf : ∀ row entry, HoldsEntry row entry → entry.name = name → HoldsEntry (f row) (g entry))
    (hg : ∀ entry, entry.name = name → (g entry).name = name) :
    Represents (rows.map (rewriteRow name f)) (map.adjust name g) := by
  have hiff {other : String} {entry : LogEntry} : map.adjust name g other = some entry ↔
      ∃ old, map other = some old ∧ old.rewrite name g = entry :=
    LogMap.adjust_eq_some_iff fun other entry hmap => (h.covers other entry hmap).1
  refine ⟨?_, ?_, fun other entry hmap => ?_⟩
  · have hnames : (rows.map (rewriteRow name f)).map (· "name") = rows.map (· "name") := by
      rw [List.map_map]
      refine List.map_congr_left fun row hrow => ?_
      obtain ⟨entry, hholds, -⟩ := h.holds row hrow
      rw [Function.comp_apply, (hholds.rewrite hf).name, LogEntry.name_rewrite hg, hholds.name]
    exact hnames ▸ h.distinct
  · intro row hrow
    obtain ⟨old, hold, rfl⟩ := List.mem_map.mp hrow
    obtain ⟨entry, hholds, hmap⟩ := h.holds old hold
    refine ⟨_, hholds.rewrite hf, ?_⟩
    rw [LogEntry.name_rewrite hg]
    exact hiff.mpr ⟨entry, hmap, rfl⟩
  · obtain ⟨old, hold, rfl⟩ := hiff.mp hmap
    obtain ⟨rfl, row, hrow, hholds⟩ := h.covers other old hold
    exact ⟨LogEntry.name_rewrite hg old, _, List.mem_map_of_mem hrow, hholds.rewrite hf⟩

theorem perm {rows' : List Record} (h : Represents rows map) (hperm : rows'.Perm rows) :
    Represents rows' map := by
  refine ⟨((hperm.map _).nodup_iff).mpr h.distinct, fun row hrow => ?_, fun name entry hmap => ?_⟩
  · exact h.holds row (hperm.mem_iff.mp hrow)
  · obtain ⟨hname, row, hrow, hholds⟩ := h.covers name entry hmap
    exact ⟨hname, row, hperm.mem_iff.mpr hrow, hholds⟩

end Represents

/-! ## Reading the rows back -/

theorem timestamp_of_micros {row : Row} {column : Nat} {n : Int}
    (h : row.get column = .ok (Cell.timestamp .microsecond n).value) :
    row.timestamp column = .ok (Instant.ofMicros? n) := by
  rw [Row.timestamp, Row.read, h, Cell.value, Cell.microseconds]
  cases Instant.ofMicros? n with
  | none => rfl
  | some instant => rfl

/-- The columns are read at the places where the query shows them. -/
theorem HoldsEntry.readsAs {row : Record} {entry : LogEntry} (h : HoldsEntry row entry) :
    ReadsAs (row.shown logColumns) entry := by
  have hget : ∀ (place : Nat) (column : String), logColumns[place]? = some column →
      (row.shown logColumns).get place = .ok (row column).value := by
    intro place column hplace
    rw [Row.get, Record.shown, List.getElem?_map, hplace, Option.map_some]
  have htext : ∀ (place : Nat) (column content : String), logColumns[place]? = some column →
      row column = .text content → (row.shown logColumns).str place = .ok content := by
    intro place column content hplace hcell
    rw [Row.str, Row.read, hget place column hplace, hcell]
    rfl
  obtain ⟨created, hcreated, hcreatedAt⟩ := h.createdAt
  obtain ⟨executed, hexecuted, hexecutedAt⟩ := h.lastExecutedAt
  exact {
    name := htext 0 _ _ rfl h.name
    filename := htext 1 _ _ rfl h.filename
    author := htext 2 _ _ rfl h.author
    modifier := ⟨_, htext 3 _ _ rfl h.modifier, Readable.ofText?_text _⟩
    runOrder := Readable.int_of_holds _ 4 h.fits ((hget 4 _ rfl).trans (by rw [h.runOrder]; rfl))
    hash := htext 5 _ _ rfl h.hash
    createdAt := by
      rw [hcreatedAt]
      exact timestamp_of_micros ((hget 6 _ rfl).trans (by rw [hcreated]))
    lastExecutedAt := by
      rw [hexecutedAt]
      exact timestamp_of_micros ((hget 7 _ rfl).trans (by rw [hexecuted]))
    userParameters := by
      rw [Row.optStr, Row.read, hget 8 _ rfl, h.userParameters, LogEntry.parametersCell]
      cases entry.userParameters with
      | none => rfl
      | some text => rfl
    size := rfl
    applied := h.applied }

theorem HoldsEntry.ofRow {row : Record} {entry : LogEntry} (h : HoldsEntry row entry) :
    LogEntry.ofRow (row.shown logColumns) = .ok entry := ofRow_of_readsAs h.readsAs

theorem HoldsEntry.unique {row : Record} {entry entry' : LogEntry} (h : HoldsEntry row entry)
    (h' : HoldsEntry row entry') : entry = entry' := Except.ok.inj (h.ofRow.symm.trans h'.ofRow)

theorem Store.exists_readEntries {rows : List Record}
    (h : ∀ row ∈ rows, ∃ entry, HoldsEntry row entry) :
    ∃ entries, readEntries (rows.map (Record.shown logColumns)) = .ok entries ∧
      (entries.map (·.name)).map Cell.text = rows.map (· "name") ∧
      ∀ entry, entry ∈ entries ↔ ∃ row ∈ rows, HoldsEntry row entry := by
  induction rows with
  | nil => exact ⟨[], rfl, rfl, by simp⟩
  | cons row rest ih =>
    obtain ⟨⟨first, hfirst⟩, hrest⟩ := List.forall_mem_cons.mp h
    obtain ⟨entries, hread, hnames, hmem⟩ := ih hrest
    refine ⟨first :: entries, ?_, ?_, fun entry => ?_⟩
    · rw [List.map_cons, readEntries, hfirst.ofRow, hread]
      rfl
    · rw [List.map_cons, List.map_cons, List.map_cons, hnames, hfirst.name]
    · simp only [List.mem_cons, exists_eq_or_imp, hmem]
      exact or_congr_left ⟨fun he => he ▸ hfirst, fun hholds => hholds.unique hfirst⟩

/-- The log that is read from rows that represent a map is the map. -/
theorem Represents.exists_readEntries {rows : List Record} {map : LogMap}
    (h : Represents rows map) :
    ∃ entries, Store.readEntries (rows.map (Record.shown logColumns)) = .ok entries ∧
      ∀ name, (Log.ofEntries entries).get? name = map name := by
  obtain ⟨entries, hread, hnames, hmem⟩ :=
    Store.exists_readEntries fun row hrow => (h.holds row hrow).imp fun _ hh => hh.1
  have hd : (entries.map (·.name)).Nodup :=
    List.Pairwise.of_map Cell.text (fun a b hne he => hne (he ▸ rfl)) (hnames ▸ h.distinct)
  refine ⟨entries, hread, fun name => Option.ext fun entry => ?_⟩
  rw [Log.get?, Log.entries_ofEntries hd, find?_key_eq_some_iff hd, hmem]
  constructor
  · rintro ⟨⟨row, hrow, hholds⟩, rfl⟩
    obtain ⟨entry', hholds', hmap⟩ := h.holds row hrow
    exact hholds.unique hholds' ▸ hmap
  · intro hmap
    obtain ⟨hname, hrow⟩ := h.covers name entry hmap
    exact ⟨hrow, hname⟩

end SchemaMigration
