import SchemaMigration.Proofs.Cycle.Insertion

/-!
# SchemaMigration.Proofs.Cycle.Validation

What the validation of an order answers, for any migrations with distinct names and any log.

* `Log.ListsAs` : the entries of a log in the order in which it lists them; there is one such list.
* `Planned.Compares` : what is planned for a migration, in terms of the log's entries.
* `length_filter_eq_iff` : the names that a list shares with another one are as many as these
  exactly if none of these is missing.
* `validateOrder_outcome` : the three answers, and when each of them is given.
-/

namespace SchemaMigration

/-! ## The order of a log -/

def LogEntry.place (entry : LogEntry) : Int × String := (entry.runOrder, entry.name)

/-- The entries of a log by run order, and by name where that is equal. -/
structure Log.ListsAs (log : Log) (entries : List LogEntry) : Prop where
  perm : entries.Perm log.entries
  sorted : entries.Pairwise fun a b =>
    a.runOrder < b.runOrder ∨ a.runOrder = b.runOrder ∧ a.name < b.name

namespace Log

variable {log : Log} {entries : List LogEntry}

theorem sorted_byRunOrder (log : Log) :
    log.byRunOrder.Pairwise fun a b => orderLe a.place b.place = true :=
  List.pairwise_mergeSort (fun a b c => orderLe_trans a.place b.place c.place)
    (fun a b => orderLe_total a.place b.place) log.entries

theorem listsAs_byRunOrder (log : Log) : log.ListsAs log.byRunOrder := by
  have hperm : log.byRunOrder.Perm log.entries := List.mergeSort_perm _ _
  have hnames := List.pairwise_map.mp ((hperm.map (·.name)).nodup_iff.mpr log.nodup)
  refine ⟨hperm, (log.sorted_byRunOrder.and hnames).imp fun ⟨hle, hne⟩ => ?_⟩
  exact (orderLe_iff.mp hle).imp_right fun ⟨horder, hname⟩ => ⟨horder, lt_of_le_of_ne hname hne⟩

/-- A log lists its entries in one way. -/
theorem ListsAs.eq_byRunOrder (h : log.ListsAs entries) : entries = log.byRunOrder := by
  have hsorted : entries.Pairwise fun a b => orderLe a.place b.place = true :=
    h.sorted.imp fun hlt => orderLe_iff.mpr (hlt.imp_right fun ⟨ho, hn⟩ => ⟨ho, hn.le⟩)
  refine (h.perm.trans (log.listsAs_byRunOrder.perm).symm).eq_of_pairwise ?_ hsorted
    log.sorted_byRunOrder
  intro a b ha hb hab hba
  have hname : a.name = b.name := congrArg Prod.snd (orderLe_antisymm hab hba)
  exact List.inj_on_of_nodup_map log.nodup (h.perm.mem_iff.mp ha) (List.mem_mergeSort.mp hb) hname

theorem get?_eq_some_iff {name : String} {entry : LogEntry} :
    log.get? name = some entry ↔ entry ∈ log.entries ∧ entry.name = name :=
  find?_key_eq_some_iff log.nodup

end Log

/-! ## What is planned -/

/-- What is planned for a migration at a position tells the two, and how the migration compares
with its entry in the log. -/
structure Planned.Compares (log : Log) (m : Migration) (position : Nat) (p : Planned) : Prop where
  migration : p.migration = m
  actualOrder : p.actualOrder = position
  logged : p.logged = true ↔ ∃ entry ∈ log.entries, entry.name = m.name.text
  new : p.status = some .new ↔ ¬ ∃ entry ∈ log.entries, entry.name = m.name.text
  applied : p.status = some .applied ↔
    ∃ entry ∈ log.entries, entry.name = m.name.text ∧ entry.hash = m.hash
  bodyChanged : p.status = some .bodyChanged ↔
    ∃ entry ∈ log.entries, entry.name = m.name.text ∧ entry.hash ≠ m.hash

namespace Planned

variable {log : Log} {m : Migration} {position : Nat}

theorem compares_compare (log : Log) (m : Migration) (position : Nat) :
    Compares log m position (compare log m position) := by
  have hentry : ∀ entry, (entry ∈ log.entries ∧ entry.name = m.name.text) ↔
      log.get? m.name.text = some entry := fun _ => Log.get?_eq_some_iff.symm
  refine ⟨rfl, rfl, ?_, ?_, ?_, ?_⟩
  all_goals
    simp only [compare, Log.contains, ← and_assoc, hentry]
    cases log.get? m.name.text with
    | none => simp [RunStatus.of]
    | some entry => by_cases hhash : entry.hash = m.hash <;> simp [RunStatus.of, hhash]

theorem Compares.eq_compare {p : Planned} (h : Compares log m position p) :
    p = compare log m position := by
  have hc := compares_compare log m position
  have hlogged : p.logged = (compare log m position).logged := by
    rw [Bool.eq_iff_iff, h.logged, hc.logged]
  have hstatus : p.status = (compare log m position).status := by
    by_cases hentry : ∃ entry ∈ log.entries, entry.name = m.name.text
    · obtain ⟨entry, he, hname⟩ := hentry
      by_cases hhash : entry.hash = m.hash
      · rw [h.applied.mpr ⟨entry, he, hname, hhash⟩, hc.applied.mpr ⟨entry, he, hname, hhash⟩]
      · rw [h.bodyChanged.mpr ⟨entry, he, hname, hhash⟩,
          hc.bodyChanged.mpr ⟨entry, he, hname, hhash⟩]
    · rw [h.new.mpr hentry, hc.new.mpr hentry]
  obtain ⟨migration, actualOrder, status, logged⟩ := p
  rw [show migration = m from h.migration, show actualOrder = position from h.actualOrder,
    show status = _ from hstatus, show logged = _ from hlogged]
  rfl

/-- The list of what is planned, told item by item. -/
theorem eq_map_compare_iff {ordered : List Migration} {planned : List Planned} :
    planned = ordered.zipIdx.map (fun (m, i) => compare log m i) ↔
      planned.length = ordered.length ∧ ∀ i m p, ordered[i]? = some m → planned[i]? = some p →
        Compares log m i p := by
  constructor
  · rintro rfl
    refine ⟨by simp, fun i m p hm hp => ?_⟩
    rw [List.getElem?_map, List.getElem?_zipIdx, hm] at hp
    cases hp
    rw [Nat.zero_add]
    exact compares_compare log m i
  · rintro ⟨hlength, hall⟩
    refine List.ext_getElem (by simpa using hlength) fun i hi hi' => ?_
    have hm : i < ordered.length := hlength ▸ hi
    have hcompares := hall i ordered[i] planned[i] (List.getElem?_eq_getElem hm)
      (List.getElem?_eq_getElem hi)
    rw [hcompares.eq_compare]
    simp

end Planned

/-! ## The three answers -/

/-- The names that a list shares with another one are as many as these exactly if none of these is
missing. -/
theorem length_filter_eq_iff {names logged : List String} (hn : names.Nodup) (hl : logged.Nodup) :
    (names.filter (· ∈ logged)).length = logged.length ↔ ∀ name ∈ logged, name ∈ names := by
  have hmem : ∀ name, name ∈ names.filter (· ∈ logged) ↔ name ∈ names ∧ name ∈ logged := by simp
  have hsub : (names.filter (· ∈ logged)).Subperm logged :=
    (hn.filter _).subperm fun name h => ((hmem name).mp h).2
  constructor
  · intro hlength name hname
    have hperm := hsub.perm_of_length_le hlength.ge
    exact ((hmem name).mp (hperm.mem_iff.mpr hname)).1
  · intro hall
    refine ((List.perm_ext_iff_of_nodup (hn.filter _) hl).mpr fun name => ?_).length_eq
    rw [hmem]
    exact ⟨fun h => h.2, fun h => ⟨hall name h, h⟩⟩

section Answers

variable {ordered : List Migration} {log : Log}

/-- The names of migrations that a log has too. -/
def loggedTexts (ordered : List Migration) (log : Log) : List String :=
  (texts ordered).filter (· ∈ log.namesByRunOrder)

theorem filter_contains (ordered : List Migration) (log : Log) :
    (texts ordered).filter log.contains = loggedTexts ordered log := by
  refine List.filter_congr fun name _ => ?_
  rw [Bool.eq_iff_iff, ← Log.mem_namesByRunOrder, decide_eq_true_iff]

theorem length_loggedTexts_iff (hnames : (ordered.map (·.name)).Nodup) :
    (loggedTexts ordered log).length = log.namesByRunOrder.length ↔
      ∀ name ∈ log.namesByRunOrder, name ∈ texts ordered := by
  have hinj : Function.Injective Name.text := fun _ _ => Name.text_injective
  have htexts : (texts ordered).Nodup := by
    have hmap := hnames.map hinj
    rwa [List.map_map] at hmap
  have hlogged : log.namesByRunOrder.Nodup :=
    (log.listsAs_byRunOrder.perm.map LogEntry.name).nodup_iff.mpr log.nodup
  exact length_filter_eq_iff htexts hlogged

theorem validateOrder_eq (hnames : (ordered.map (·.name)).Nodup) (log : Log) :
    validateOrder ordered log =
      if ∀ name ∈ log.namesByRunOrder, name ∈ texts ordered then
        if loggedTexts ordered log = log.namesByRunOrder then
          .ok (ordered.zipIdx.map fun (m, i) => Planned.compare log m i)
        else .error (.orderDrift log.namesByRunOrder (loggedTexts ordered log))
      else .error (.deletedMigrations (log.namesByRunOrder.filter (· ∉ texts ordered))) := by
  simp only [validateOrder, loggedNames_compare, filter_contains, ne_eq,
    length_loggedTexts_iff hnames, ite_not]
  refine if_congr Iff.rfl rfl ?_
  -- a name of the log is not a current one when no migration has it
  refine congrArg (fun names => Except.error (CycleError.deletedMigrations names)) ?_
  refine List.filter_congr fun name hname => ?_
  rw [loggedTexts, Bool.eq_iff_iff, Bool.not_eq_true', ← Bool.not_eq_true, List.contains_iff_mem,
    List.mem_filter, decide_eq_true_iff, decide_eq_true_iff]
  exact not_congr ⟨And.left, fun hn => ⟨hn, hname⟩⟩

/-- Migrations with distinct names are validated against a log. The log lists its entries in one
order. The error is that migrations were deleted exactly if the list lacks a name of the log, and it
tells those that the list lacks, in the order of the log. Otherwise the error is a drift of the
order exactly if the list has the names of the log in another order, and it tells both. Otherwise
every migration is planned at its position. -/
theorem validateOrder_outcome (hnames : (ordered.map (·.name)).Nodup) (log : Log) :
    ∃ entries, log.ListsAs entries ∧ (∀ others, log.ListsAs others → others = entries) ∧
      ∃ persisted current, persisted = entries.map (·.name) ∧
        current = (texts ordered).filter (· ∈ persisted) ∧
      (∀ deleted, validateOrder ordered log = .error (.deletedMigrations deleted) ↔
        (∃ name ∈ persisted, name ∉ texts ordered) ∧
          deleted = persisted.filter (· ∉ texts ordered)) ∧
      (∀ expected actual, validateOrder ordered log = .error (.orderDrift expected actual) ↔
        (∀ name ∈ persisted, name ∈ texts ordered) ∧ current ≠ persisted ∧
          expected = persisted ∧ actual = current) ∧
      (∀ planned, validateOrder ordered log = .ok planned ↔
        (∀ name ∈ persisted, name ∈ texts ordered) ∧ current = persisted ∧
          planned.length = ordered.length ∧ ∀ i m p, ordered[i]? = some m →
            planned[i]? = some p → Planned.Compares log m i p) ∧
      ((∃ deleted, validateOrder ordered log = .error (.deletedMigrations deleted)) ∨
        (∃ expected actual, validateOrder ordered log = .error (.orderDrift expected actual)) ∨
        ∃ planned, validateOrder ordered log = .ok planned) := by
  refine ⟨log.byRunOrder, log.listsAs_byRunOrder, fun _ => Log.ListsAs.eq_byRunOrder,
    log.namesByRunOrder, loggedTexts ordered log, rfl, rfl, ?_⟩
  simp only [← Planned.eq_map_compare_iff, validateOrder_eq hnames]
  by_cases hall : ∀ name ∈ log.namesByRunOrder, name ∈ texts ordered
  · have hnone : ¬ ∃ name ∈ log.namesByRunOrder, name ∉ texts ordered :=
      fun ⟨name, hname, hn⟩ => hn (hall name hname)
    rw [if_pos hall]
    by_cases hsame : loggedTexts ordered log = log.namesByRunOrder
    · simpa [hnone, hsame, eq_comm] using hall
    · simpa [hnone, hsame, eq_comm] using hall
  · have hsome : ∃ name ∈ log.namesByRunOrder, name ∉ texts ordered := by
      by_contra hnone
      exact hall fun name hname => by_contra fun hn => hnone ⟨name, hname, hn⟩
    rw [if_neg hall]
    simp only [hall, hsome]
    simp [eq_comm]

end Answers

/-- A log in which `articles` and `authors` have one run order, and `badges` is missing. -/
def tiedLog : Log where
  entries := (MigrationGraph.beforeTags.filter (·.name.text ≠ "badges")).map (.ofMigration · 0)
  nodup := by decide

theorem validateOrder_outcome_tied :
    (MigrationGraph.beforeTags.map (·.name)).Nodup ∧
      validateOrder MigrationGraph.beforeTags tiedLog =
        .error (.orderDrift ["articles", "authors"] ["authors", "articles"]) := by
  have hnames : (MigrationGraph.beforeTags.map (·.name)).Nodup := by decide
  have hlists : tiedLog.ListsAs tiedLog.entries.reverse :=
    ⟨tiedLog.entries.reverse_perm, by decide⟩
  obtain ⟨entries, -, honly, persisted, current, hp, hc, -, hdrift, -⟩ :=
    validateOrder_outcome hnames tiedLog
  have hpersisted : persisted = ["articles", "authors"] := by
    rw [hp, ← honly _ hlists]
    rfl
  have hcurrent : current = ["authors", "articles"] := by
    rw [hc, hpersisted]
    decide
  refine ⟨hnames, (hdrift _ _).mpr ?_⟩
  rw [hpersisted, hcurrent]
  decide

end SchemaMigration
