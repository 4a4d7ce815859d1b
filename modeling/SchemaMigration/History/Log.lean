import SchemaMigration.History.LogEntry

/-!
# SchemaMigration.History.Log

The log of applied migrations during a cycle: entries by name.

* `Log` : entries with pairwise distinct names.
* `Log.get?`, `Log.upsert`, `Log.modify` : look-up and change by name.
* `Log.namesByRunOrder`, `Log.unapplied` : the names by run order, and of entries not met.

Main statements: `get?_upsert_self` and `get?_upsert_of_ne` say what `upsert` does to each name.
-/

namespace SchemaMigration

/-- Put an entry in the place of the one with its name, or at the end. -/
def upsertEntry (entry : LogEntry) : List LogEntry → List LogEntry
  | [] => [entry]
  | other :: rest =>
    if other.name = entry.name then entry :: rest else other :: upsertEntry entry rest

theorem mem_names_upsertEntry {entry : LogEntry} {name : String} {entries : List LogEntry}
    (h : name ∈ (upsertEntry entry entries).map (·.name)) :
    name = entry.name ∨ name ∈ entries.map (·.name) := by
  induction entries with
  | nil => left; simpa [upsertEntry] using h
  | cons other rest ih =>
    simp only [upsertEntry] at h
    split at h
    · simp only [List.map_cons, List.mem_cons] at h ⊢
      rcases h with h | h
      · exact .inl h
      · exact .inr (.inr h)
    · simp only [List.map_cons, List.mem_cons] at h ⊢
      rcases h with h | h
      · exact .inr (.inl h)
      · rcases ih h with h | h
        · exact .inl h
        · exact .inr (.inr h)

theorem nodup_upsertEntry (entry : LogEntry) {entries : List LogEntry}
    (h : (entries.map (·.name)).Nodup) : ((upsertEntry entry entries).map (·.name)).Nodup := by
  induction entries with
  | nil => simp [upsertEntry]
  | cons other rest ih =>
    simp only [List.map_cons, List.nodup_cons] at h
    simp only [upsertEntry]
    split
    · rename_i heq
      simp only [List.map_cons, List.nodup_cons]
      exact ⟨heq ▸ h.1, h.2⟩
    · rename_i hne
      simp only [List.map_cons, List.nodup_cons]
      refine ⟨fun hmem => ?_, ih h.2⟩
      rcases mem_names_upsertEntry hmem with h' | h'
      · exact hne h'
      · exact h.1 h'

structure Log where
  entries : List LogEntry := []
  nodup : (entries.map (·.name)).Nodup := by decide

namespace Log

def empty : Log := {}

def get? (log : Log) (name : String) : Option LogEntry := log.entries.find? (·.name = name)

def contains (log : Log) (name : String) : Bool := (log.get? name).isSome

def size (log : Log) : Nat := log.entries.length

def isEmpty (log : Log) : Bool := log.entries.isEmpty

/-- Put an entry in the place of the one with its name, or at the end. -/
def upsert (log : Log) (entry : LogEntry) : Log :=
  ⟨upsertEntry entry log.entries, nodup_upsertEntry entry log.nodup⟩

/-- The log of some entries; of two with the same name the later one counts. -/
def ofEntries (entries : List LogEntry) : Log := entries.foldl upsert empty

theorem get?_upsert_self (log : Log) (entry : LogEntry) :
    (log.upsert entry).get? entry.name = some entry := by
  simp only [get?, upsert]
  induction log.entries with
  | nil => simp [upsertEntry]
  | cons other rest ih =>
    simp only [upsertEntry]
    split
    · simp
    · rename_i h; simp [h, ih]

theorem get?_upsert_of_ne (log : Log) {entry : LogEntry} {name : String} (h : name ≠ entry.name) :
    (log.upsert entry).get? name = log.get? name := by
  simp only [get?, upsert]
  induction log.entries with
  | nil => simp [upsertEntry, Ne.symm h]
  | cons other rest ih =>
    simp only [upsertEntry]
    split
    · rename_i heq; simp [heq, Ne.symm h]
    · simp only [List.find?_cons, ih]

/-- Change the entry with a name, if there is one, without changing its name. -/
def modify (log : Log) (name : String) (f : LogEntry → LogEntry) : Log :=
  match log.get? name with
  | none => log
  | some entry => log.upsert { f entry with name := entry.name }

def setRunOrder (log : Log) (name : String) (order : Int) : Log :=
  log.modify name fun entry => { entry with runOrder := order }

def markApplied (log : Log) (name : String) : Log :=
  log.modify name fun entry => { entry with applied := true }

/-- By run order, and by name where that is equal. -/
def entryLe (a b : LogEntry) : Bool :=
  a.runOrder < b.runOrder || (a.runOrder == b.runOrder && decide (a.name ≤ b.name))

def byRunOrder (log : Log) : List LogEntry := log.entries.mergeSort entryLe

def namesByRunOrder (log : Log) : List String := log.byRunOrder.map (·.name)

/-- The names of the entries that were not met in this cycle, in ascending order. -/
def unapplied (log : Log) : List String :=
  ((log.entries.filter (!·.applied)).map (·.name)).mergeSort fun a b => decide (a ≤ b)

end Log
end SchemaMigration
