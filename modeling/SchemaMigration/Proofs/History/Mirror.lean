import SchemaMigration.Proofs.History.Loading
import SchemaMigration.Proofs.History.RunOrder

/-!
# SchemaMigration.Proofs.History.Mirror

The log in memory beside the entries that it was read from.

* `Log.Mirrors` : a log has the names, run orders and hashes of stored entries.
* `Store.readIn` : the log that contents hold, or why it cannot be read.
* `Store.exists_sorted_of_readIn`, `mirrors_of_readIn` : a log that was read says what is stored,
  and so mirrors the stored entries.
* `Readable`, `exists_readIn_iff` : the entries that can be read, and that a log can be read when
  all its entries can.
-/

namespace SchemaMigration

open Sql Database

/-! ## Looking up by a key -/

section Lookup

variable {α β : Type} [DecidableEq β] {key : α → β} {l l' : List α}

theorem find?_key_eq_some_iff (hd : (l.map key).Nodup) {b : β} {a : α} :
    l.find? (key · = b) = some a ↔ a ∈ l ∧ key a = b := by
  constructor
  · intro h
    exact ⟨List.mem_of_find?_eq_some h, by simpa using List.find?_some h⟩
  · rintro ⟨ha, rfl⟩
    induction l with
    | nil => cases ha
    | cons first rest ih =>
      obtain ⟨hfirst, hrest⟩ := List.nodup_cons.mp hd
      rcases List.mem_cons.mp ha with rfl | ha
      · simp
      · have hne : key first ≠ key a := fun h => hfirst (h ▸ List.mem_map_of_mem ha)
        rw [List.find?_cons_of_neg (by simpa using hne)]
        exact ih hrest ha

theorem find?_key_of_perm (hp : l.Perm l') (hd : (l.map key).Nodup) (b : β) :
    l.find? (key · = b) = l'.find? (key · = b) := by
  have hd' : (l'.map key).Nodup := (hp.map key).nodup_iff.mp hd
  refine Option.ext fun a => ?_
  rw [find?_key_eq_some_iff hd, find?_key_eq_some_iff hd', hp.mem_iff]

end Lookup

/-- What the order and the status of a migration depend on. -/
def LogEntry.essence (entry : LogEntry) : String × Int × String :=
  (entry.name, entry.runOrder, entry.hash)

def StoredEntry.essence (e : StoredEntry) : String × Int × String := (e.name, e.runOrder, e.hash)

def Log.Mirrors (log : Log) (entries : List StoredEntry) : Prop :=
  (log.entries.map LogEntry.essence).Perm (entries.map StoredEntry.essence)

namespace Log.Mirrors

variable {log : Log} {entries : List StoredEntry}

theorem names_perm (h : log.Mirrors entries) :
    (log.entries.map (·.name)).Perm (entries.map (·.name)) := by
  have hnames := h.map Prod.fst
  rw [List.map_map, List.map_map] at hnames
  exact hnames

theorem names_nodup (h : log.Mirrors entries) : (entries.map (·.name)).Nodup :=
  h.names_perm.nodup_iff.mp log.nodup

theorem get? (h : log.Mirrors entries) (name : String) :
    (log.get? name).map LogEntry.essence =
      (entries.find? (·.name = name)).map StoredEntry.essence := by
  have hd : ((log.entries.map LogEntry.essence).map Prod.fst).Nodup := by
    rw [List.map_map]
    exact log.nodup
  have hfind := find?_key_of_perm h hd name
  rw [List.find?_map, List.find?_map] at hfind
  exact hfind

theorem contains (h : log.Mirrors entries) (name : String) :
    log.contains name = (entries.find? (·.name = name)).isSome := by
  have hget := congrArg Option.isSome (h.get? name)
  rw [Option.isSome_map, Option.isSome_map] at hget
  exact hget

theorem namesByRunOrder (h : log.Mirrors entries) :
    log.namesByRunOrder = namesByOrder entries := by
  let place : LogEntry → Int × String := fun entry => (entry.runOrder, entry.name)
  have hperm : (log.entries.map place).Perm (entries.map StoredEntry.place) := by
    have hplace := h.map fun essence => (essence.2.1, essence.1)
    rw [List.map_map, List.map_map] at hplace
    exact hplace
  have hsort : log.byRunOrder.map place = (log.entries.map place).mergeSort orderLe :=
    List.map_mergeSort fun a _ b _ => rfl
  rw [namesByOrder, ← mergeSort_orderLe_congr hperm, ← hsort, List.map_map]
  rfl

end Log.Mirrors

/-! ## Reading the log -/

/-- The log that contents hold. Contents without a log table hold an empty one. -/
def Store.readIn (schema : String) (data : Data) : Except CycleError Log :=
  let rows := (logRows schema data).mergeSort fun a b => Data.runOrder a ≤ Data.runOrder b
  match Store.readEntries (shownRows { rows }) with
  | .error e => .error e
  | .ok entries => .ok (.ofEntries entries)

theorem Store.readIn_of_empty {schema : String} {data : Data} (h : logRows schema data = []) :
    readIn schema data = .ok .empty := by
  rw [readIn, h, List.mergeSort_nil]
  rfl

def StoredEntry.shown (e : StoredEntry) : Row := ⟨e.cells.map Cell.value⟩

theorem upsertEntry_of_not_mem {entry : LogEntry} {entries : List LogEntry}
    (h : entry.name ∉ entries.map (·.name)) : upsertEntry entry entries = entries ++ [entry] := by
  induction entries with
  | nil => rfl
  | cons other rest ih =>
    rw [List.map_cons, List.mem_cons, not_or] at h
    rw [upsertEntry, if_neg (Ne.symm h.1), ih h.2, List.cons_append]

/-- Entries with names of their own make a log as they are. -/
theorem Log.entries_ofEntries {entries : List LogEntry} (hd : (entries.map (·.name)).Nodup) :
    (Log.ofEntries entries).entries = entries := by
  -- on the entries that are left, behind those that are in the log
  have hfold : ∀ (entries : List LogEntry) (log : Log),
      ((log.entries ++ entries).map (·.name)).Nodup →
        (entries.foldl Log.upsert log).entries = log.entries ++ entries := by
    intro entries
    induction entries with
    | nil => intro log _; exact (List.append_nil _).symm
    | cons entry rest ih =>
      intro log hlog
      have hnew : entry.name ∉ log.entries.map (·.name) := by
        intro hmem
        rw [List.map_append, List.nodup_append] at hlog
        exact hlog.2.2 _ hmem _ List.mem_cons_self rfl
      have hentries : (log.upsert entry).entries = log.entries ++ [entry] :=
        upsertEntry_of_not_mem hnew
      rw [List.foldl_cons, ih, hentries, List.append_assoc, List.singleton_append]
      rw [hentries, List.append_assoc, List.singleton_append]
      exact hlog
  exact hfold entries .empty hd

theorem essence_of_readsAs {e : StoredEntry} {entry : LogEntry} (h : ReadsAs e.shown entry) :
    entry.essence = e.essence := by
  have hname : e.name = entry.name := Except.ok.inj h.name
  have hhash : e.hash = entry.hash := Except.ok.inj h.hash
  have horder : e.runOrder = entry.runOrder := by
    have hread : e.shown.int 4 = .ok entry.runOrder := h.runOrder
    have hcell : e.shown.get 4 = .ok (Cell.integerValue .big e.runOrder) := rfl
    rw [Row.int, Row.read, hcell, Cell.integerValue, if_neg (by decide)] at hread
    by_cases hfits : IntegerType.big.holds e.runOrder = true
    · rw [if_pos hfits] at hread
      exact Except.ok.inj hread
    · rw [if_neg hfits] at hread
      cases hread
  rw [LogEntry.essence, StoredEntry.essence, hname, hhash, horder]

/-- Entries that are read from rows say what the rows say, one for each. -/
theorem Store.forall₂_readEntries {stored : List StoredEntry} {entries : List LogEntry}
    (h : readEntries (stored.map StoredEntry.shown) = .ok entries) :
    List.Forall₂ (fun e entry => ReadsAs e.shown entry) stored entries := by
  induction stored generalizing entries with
  | nil => cases h; exact .nil
  | cons e rest ih =>
    obtain ⟨entry, hentry, h⟩ := Except.bind_eq_ok h
    obtain ⟨others, hothers, h⟩ := Except.bind_eq_ok h
    cases h
    exact .cons (readsAs_of_ofRow hentry) (ih hothers)

theorem map_essence_of_forall₂ {stored : List StoredEntry} {entries : List LogEntry}
    (h : List.Forall₂ (fun e entry => ReadsAs e.shown entry) stored entries) :
    entries.map LogEntry.essence = stored.map StoredEntry.essence := by
  induction h with
  | nil => rfl
  | cons hread _ ih => rw [List.map_cons, List.map_cons, essence_of_readsAs hread, ih]

/-- What is shown of a log that is read are its entries, in some order. -/
theorem shownRows_sorted (entries : List StoredEntry) :
    ∃ sorted : List StoredEntry, sorted.Perm entries ∧
      let rows := (entries.map StoredEntry.cells).mergeSort fun a b =>
        Data.runOrder a ≤ Data.runOrder b
      shownRows { rows } = sorted.map StoredEntry.shown := by
  have hsort : (entries.mergeSort fun a b => a.runOrder ≤ b.runOrder).map StoredEntry.cells =
      (entries.map StoredEntry.cells).mergeSort fun a b => Data.runOrder a ≤ Data.runOrder b :=
    List.map_mergeSort fun _ _ _ _ => rfl
  refine ⟨entries.mergeSort fun a b => a.runOrder ≤ b.runOrder, List.mergeSort_perm _ _, ?_⟩
  intro rows
  rw [show rows = _ from hsort.symm, shownRows, List.map_map]
  rfl

/-- The entries of a log that was read say what is stored, one for each, in some order. -/
theorem Store.exists_sorted_of_readIn {schema : String} {data : Data} {entries : List StoredEntry}
    {log : Log} (hrows : logRows schema data = entries.map StoredEntry.cells)
    (hd : (entries.map (·.name)).Nodup) (h : Store.readIn schema data = .ok log) :
    ∃ sorted : List StoredEntry, sorted.Perm entries ∧
      List.Forall₂ (fun e entry => ReadsAs e.shown entry) sorted log.entries := by
  obtain ⟨sorted, hperm, hsorted⟩ := shownRows_sorted entries
  refine ⟨sorted, hperm, ?_⟩
  rw [Store.readIn, hrows, hsorted] at h
  cases hread : Store.readEntries (sorted.map StoredEntry.shown) with
  | error e => rw [hread] at h; cases h
  | ok read =>
    rw [hread] at h
    cases h
    have hall := Store.forall₂_readEntries hread
    have hnames : (read.map (·.name)).Nodup := by
      have hfst := congrArg (List.map Prod.fst) (map_essence_of_forall₂ hall)
      rw [List.map_map, List.map_map] at hfst
      have hread : read.map (·.name) = sorted.map (·.name) := hfst
      rw [hread]
      exact ((hperm.map _).nodup_iff).mpr hd
    rw [Log.entries_ofEntries hnames]
    exact hall

theorem mirrors_of_readIn {schema : String} {data : Data} {entries : List StoredEntry} {log : Log}
    (hrows : logRows schema data = entries.map StoredEntry.cells)
    (hd : (entries.map (·.name)).Nodup) (h : Store.readIn schema data = .ok log) :
    log.Mirrors entries := by
  obtain ⟨sorted, hperm, hall⟩ := Store.exists_sorted_of_readIn hrows hd h
  rw [Log.Mirrors, map_essence_of_forall₂ hall]
  exact hperm.map _

/-! ## Entries that can be read -/

/-- An entry whose columns can be read as those of a log in memory. -/
def Readable (e : StoredEntry) : Prop := ∃ entry, ReadsAs e.shown entry

theorem ofRow_of_readsAs {row : Row} {entry : LogEntry} (h : ReadsAs row entry) :
    LogEntry.ofRow row = .ok entry := by
  obtain ⟨text, htext, hmodifier⟩ := h.modifier
  have happlied := h.applied
  have hbind : ∀ {α β : Type} (a : α) (f : α → Except CycleError β), (Except.ok a >>= f) = f a :=
    fun _ _ => rfl
  simp only [LogEntry.ofRow, h.name, h.filename, h.author, htext, h.runOrder, h.hash, h.createdAt,
    h.lastExecutedAt, h.userParameters, h.size, Attempt.ofCell, Except.mapError, hbind, hmodifier,
    ne_eq, not_true_eq_false, if_false]
  cases entry
  cases happlied
  rfl

theorem exists_readIn_iff {schema : String} {data : Data} {entries : List StoredEntry}
    (hrows : logRows schema data = entries.map StoredEntry.cells) :
    (∃ log, Store.readIn schema data = .ok log) ↔ ∀ e ∈ entries, Readable e := by
  obtain ⟨sorted, hperm, hsorted⟩ := shownRows_sorted entries
  have hread : (∃ log, Store.readIn schema data = .ok log) ↔
      ∃ read, Store.readEntries (sorted.map StoredEntry.shown) = .ok read := by
    rw [Store.readIn, hrows, hsorted]
    cases Store.readEntries (sorted.map StoredEntry.shown) with
    | error e => exact ⟨fun ⟨_, h⟩ => (by cases h), fun ⟨_, h⟩ => (by cases h)⟩
    | ok read => exact ⟨fun _ => ⟨_, rfl⟩, fun _ => ⟨_, rfl⟩⟩
  have hall : ∀ stored : List StoredEntry,
      (∃ read, Store.readEntries (stored.map StoredEntry.shown) = .ok read) ↔
        ∀ e ∈ stored, Readable e := by
    intro stored
    induction stored with
    | nil => simp [Store.readEntries]
    | cons e rest ih =>
      rw [List.forall_mem_cons, ← ih]
      constructor
      · rintro ⟨read, h⟩
        obtain ⟨entry, hentry, h⟩ := Except.bind_eq_ok h
        obtain ⟨others, hothers, -⟩ := Except.bind_eq_ok h
        exact ⟨⟨entry, readsAs_of_ofRow hentry⟩, others, hothers⟩
      · rintro ⟨⟨entry, hentry⟩, others, hothers⟩
        refine ⟨entry :: others, ?_⟩
        rw [List.map_cons, Store.readEntries, ofRow_of_readsAs hentry, hothers]
        rfl
  rw [hread, hall]
  exact ⟨fun h e he => h e (hperm.mem_iff.mpr he), fun h e he => h e (hperm.mem_iff.mp he)⟩

namespace Readable

variable {e : StoredEntry}

theorem int_of_holds (row : Row) (column : Nat) {n : Int} (hfits : IntegerType.big.holds n = true)
    (hcell : row.get column = .ok (Cell.integerValue .big n)) : row.int column = .ok n := by
  rw [Row.int, Row.read, hcell, Cell.integerValue, if_neg (by decide), if_pos hfits]

theorem readsAs_moved {entry : LogEntry} (h : ReadsAs e.shown entry) {order : Int}
    (hfits : IntegerType.big.holds order = true) :
    ReadsAs { e with runOrder := order }.shown { entry with runOrder := order } :=
  ⟨h.name, h.filename, h.author, h.modifier, int_of_holds _ 4 hfits rfl, h.hash, h.createdAt,
    h.lastExecutedAt, h.userParameters, rfl, h.applied⟩

theorem moved (h : Readable e) {order : Int} (hfits : IntegerType.big.holds order = true) :
    Readable { e with runOrder := order } := by
  obtain ⟨entry, h⟩ := h
  exact ⟨_, readsAs_moved h hfits⟩

theorem timestamp_stamp (row : Row) (column tick : Nat)
    (hcell : row.get column = .ok (Data.stamp tick).value) :
    ∃ instant, row.timestamp column = .ok instant := by
  rw [Row.timestamp, Row.read, hcell, Data.stamp, Cell.value]
  cases Instant.ofMicros? (Cell.microseconds .microsecond (tick * 1000000)) with
  | none => exact ⟨none, rfl⟩
  | some instant => exact ⟨some instant, rfl⟩

theorem ofText?_text (modifier : RunModifier) :
    RunModifier.ofText? modifier.text = some modifier := by
  cases modifier <;> decide

/-- What is written for a migration is read as its entry, if its position has 64 bits and the time
of its creation can be read. -/
theorem exists_readsAs_ofMigration (m : Migration) {position : Int} (tick : Nat) {createdAt : Cell}
    (hfits : IntegerType.big.holds position = true)
    (hcreated : ∃ instant, (StoredEntry.ofMigration m position createdAt
      (Data.stamp tick)).shown.timestamp 6 = .ok instant) :
    ∃ created executed, ReadsAs (StoredEntry.ofMigration m position createdAt
      (Data.stamp tick)).shown { LogEntry.ofMigration m position with
        createdAt := created, lastExecutedAt := executed, applied := false } := by
  obtain ⟨created, hcreated⟩ := hcreated
  obtain ⟨executed, hexecuted⟩ := timestamp_stamp
    (StoredEntry.ofMigration m position createdAt (Data.stamp tick)).shown 7 tick rfl
  exact ⟨created, executed, rfl, rfl, rfl, ⟨_, rfl, ofText?_text _⟩, int_of_holds _ 4 hfits rfl,
    rfl, hcreated, hexecuted, rfl, rfl, rfl⟩

theorem ofMigration (m : Migration) {position : Int} (tick : Nat) {createdAt : Cell}
    (hfits : IntegerType.big.holds position = true)
    (hcreated : ∃ instant, (StoredEntry.ofMigration m position createdAt
      (Data.stamp tick)).shown.timestamp 6 = .ok instant) :
    Readable (.ofMigration m position createdAt (Data.stamp tick)) := by
  obtain ⟨created, executed, hread⟩ := exists_readsAs_ofMigration m tick hfits hcreated
  exact ⟨_, hread⟩

theorem inserted (m : Migration) {position : Int} (tick : Nat)
    (hfits : IntegerType.big.holds position = true) :
    Readable (.ofMigration m position (Data.stamp tick) (Data.stamp tick)) :=
  ofMigration m tick hfits (timestamp_stamp _ 6 tick rfl)

theorem updated (h : Readable e) (m : Migration) {position : Int} (tick : Nat)
    (hfits : IntegerType.big.holds position = true) :
    Readable (.ofMigration m position e.createdAt (Data.stamp tick)) := by
  obtain ⟨entry, h⟩ := h
  exact ofMigration m tick hfits ⟨_, h.createdAt⟩

end Readable
end SchemaMigration
