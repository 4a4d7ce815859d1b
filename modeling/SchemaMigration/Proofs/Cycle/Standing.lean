import SchemaMigration.Proofs.History.Mirror
import SchemaMigration.Proofs.History.Recording

/-!
# SchemaMigration.Proofs.Cycle.Standing

Where the migrations of a cycle stand, in terms of the entries that are stored.

* `plannedIn`, `planOf` : migrations compared with stored entries.
* `InOrder` : the entries come in the order of the migrations, and each has a migration.
* `Log.Pending` : the entries that a cycle has not met yet are among those still to come.

`validateOrder_eq_ok_iff` says when the order is valid and what is planned then, and
`foldl_movesOf` that the moves of a cycle bring every entry to the position of its migration.
-/

namespace SchemaMigration

open Sql Database

/-- The names of migrations, as the log has them. -/
def texts (migrations : List Migration) : List String := migrations.map (·.name.text)

def entryOf? (entries : List StoredEntry) (name : String) : Option StoredEntry :=
  entries.find? (·.name = name)

def RunStatus.ofStored (m : Migration) : Option StoredEntry → RunStatus
  | none => .new
  | some e => if e.hash = m.hash then .applied else .bodyChanged

def plannedIn (entries : List StoredEntry) (m : Migration) (position : Nat) : Planned where
  migration := m
  actualOrder := position
  status := some (.ofStored m (entryOf? entries m.name.text))
  logged := (entryOf? entries m.name.text).isSome

def planOf (entries : List StoredEntry) (ordered : List Migration) : List Planned :=
  ordered.zipIdx.map fun (m, i) => plannedIn entries m i

/-- The entries come in the order of some names, which have all of theirs among them. -/
def InOrder (names : List String) (entries : List StoredEntry) : Prop :=
  namesByOrder entries = names.filter (· ∈ entries.map (·.name))

variable {entries : List StoredEntry} {ordered : List Migration} {names : List String} {log : Log}

theorem entryOf?_eq_some_iff (hd : (entries.map (·.name)).Nodup) {name : String} {e : StoredEntry} :
    entryOf? entries name = some e ↔ e ∈ entries ∧ e.name = name :=
  find?_key_eq_some_iff hd

theorem isSome_entryOf? {name : String} :
    (entryOf? entries name).isSome = true ↔ name ∈ entries.map (·.name) := by
  simp [entryOf?, List.mem_map]

theorem InOrder.mem (h : InOrder names entries) {e : StoredEntry} (he : e ∈ entries) :
    e.name ∈ names := by
  have hmem := (namesByOrder_perm entries).mem_iff.mpr (List.mem_map_of_mem he)
  rw [h] at hmem
  exact List.mem_of_mem_filter hmem

theorem Placed.inOrder (h : Placed names entries) (hn : names.Nodup)
    (hd : (entries.map (·.name)).Nodup) : InOrder names entries :=
  h.namesByOrder hn hd

theorem InOrder.placed_inPlace (h : InOrder names entries) : Placed names (inPlace names entries) :=
  SchemaMigration.placed_inPlace fun _ he => h.mem he

/-! ## What is planned -/

theorem compare_eq (h : log.Mirrors entries) (m : Migration) (position : Nat) :
    Planned.compare log m position = plannedIn entries m position := by
  have hget := h.get? m.name.text
  have hstatus : RunStatus.of m (log.get? m.name.text) =
      .ofStored m (entryOf? entries m.name.text) := by
    rw [entryOf?]
    cases hlog : log.get? m.name.text with
    | none =>
      rw [hlog, Option.map_none, eq_comm, Option.map_eq_none_iff] at hget
      rw [hget, RunStatus.of, RunStatus.ofStored]
    | some entry =>
      rw [hlog, Option.map_some, eq_comm, Option.map_eq_some_iff] at hget
      obtain ⟨e, he, hessence⟩ := hget
      have hhash : e.hash = entry.hash := congrArg (·.2.2) hessence
      rw [he, RunStatus.of, RunStatus.ofStored, hhash]
  have hlogged : log.contains m.name.text = (entryOf? entries m.name.text).isSome :=
    h.contains m.name.text
  rw [Planned.compare, plannedIn, hstatus, hlogged]

theorem mem_planOf {p : Planned} (h : p ∈ planOf entries ordered) :
    ∃ m, ordered[p.actualOrder]? = some m ∧ p = plannedIn entries m p.actualOrder := by
  obtain ⟨⟨m, i⟩, hmem, rfl⟩ := List.mem_map.mp h
  exact ⟨m, List.mem_zipIdx_iff_getElem?.mp hmem, rfl⟩

theorem plannedIn_mem_planOf {m : Migration} {i : Nat} (h : ordered[i]? = some m) :
    plannedIn entries m i ∈ planOf entries ordered :=
  List.mem_map.mpr ⟨(m, i), List.mem_zipIdx_iff_getElem?.mpr h, rfl⟩

theorem map_migration_planOf (entries : List StoredEntry) (ordered : List Migration) :
    (planOf entries ordered).map (·.migration) = ordered := by
  rw [planOf, List.map_map]
  exact List.zipIdx_map_fst 0 ordered

theorem texts_planOf (entries : List StoredEntry) (ordered : List Migration) :
    (planOf entries ordered).map (·.migration.name.text) = texts ordered := by
  have htexts := congrArg texts (map_migration_planOf entries ordered)
  rw [texts, List.map_map] at htexts
  exact htexts

theorem idxOf_texts (hn : (texts ordered).Nodup) {m : Migration} {i : Nat}
    (h : ordered[i]? = some m) : (texts ordered).idxOf m.name.text = i := by
  obtain ⟨hi, rfl⟩ := List.getElem?_eq_some_iff.mp h
  have hi' : i < (texts ordered).length := by rw [texts, List.length_map]; exact hi
  have hname : (texts ordered)[i] = ordered[i].name.text := List.getElem_map _
  rw [← hname]
  exact hn.idxOf_getElem i hi'

theorem idxOf_of_mem_planOf (hn : (texts ordered).Nodup) {p : Planned}
    (h : p ∈ planOf entries ordered) :
    (texts ordered).idxOf p.migration.name.text = p.actualOrder := by
  obtain ⟨m, hm, hp⟩ := mem_planOf h
  rw [hp]
  exact idxOf_texts hn hm

theorem logged_of_mem_planOf {p : Planned} (h : p ∈ planOf entries ordered) :
    p.logged = true ↔ p.migration.name.text ∈ entries.map (·.name) := by
  obtain ⟨m, -, hp⟩ := mem_planOf h
  rw [hp]
  exact isSome_entryOf?

theorem loggedNames_planOf (entries : List StoredEntry) (ordered : List Migration) :
    Planned.loggedNames (planOf entries ordered) =
      (texts ordered).filter (· ∈ entries.map (·.name)) := by
  have hlogged : ∀ p ∈ planOf entries ordered,
      p.logged = decide (p.migration.name.text ∈ entries.map (·.name)) := fun p hp =>
    Bool.eq_iff_iff.mpr ((logged_of_mem_planOf hp).trans decide_eq_true_iff.symm)
  rw [Planned.loggedNames, List.filter_congr hlogged, ← texts_planOf entries ordered,
    List.filter_map]
  rfl

theorem validateOrder_eq_ok_iff (h : log.Mirrors entries) {planned : List Planned} :
    validateOrder ordered log = .ok planned ↔
      InOrder (texts ordered) entries ∧ planned = planOf entries ordered := by
  have hplanned : (ordered.zipIdx.map fun (m, i) => Planned.compare log m i) =
      planOf entries ordered :=
    List.map_congr_left fun _ _ => compare_eq h _ _
  simp only [validateOrder, hplanned, loggedNames_planOf, h.namesByRunOrder]
  rw [InOrder]
  generalize (texts ordered).filter _ = current
  by_cases horder : current = namesByOrder entries
  · rw [if_neg (by rw [horder]; simp), if_neg (not_not_intro horder), Except.ok.injEq]
    exact ⟨fun hp => ⟨horder.symm, hp.symm⟩, fun hp => hp.2.symm⟩
  · refine ⟨fun hp => ?_, fun hp => absurd hp.1.symm horder⟩
    split at hp
    · cases hp
    · cases hp

/-! ## Renumbering -/

/-- Moves to a target, which reach every entry that is elsewhere. -/
theorem foldl_moveEntry (target : String → Int) {moves : List (String × Int)}
    (hm : ∀ move ∈ moves, move.2 = target move.1)
    (he : ∀ e ∈ entries, e.runOrder = target e.name ∨ e.name ∈ moves.map (·.1)) :
    moves.foldl (fun entries (name, order) => moveEntry name order entries) entries =
      entries.map fun e => { e with runOrder := target e.name } := by
  -- on the moves that are left; an entry that was reached is at its target
  induction moves generalizing entries with
  | nil =>
    refine (List.map_id entries).symm.trans (List.map_congr_left fun e hmem => ?_)
    rcases he e hmem with htarget | hmem
    · rw [← htarget, id]
    · cases hmem
  | cons move rest ih =>
    obtain ⟨name, order⟩ := move
    obtain ⟨horder, hrest⟩ := List.forall_mem_cons.mp hm
    have horder : order = target name := horder
    rw [List.foldl_cons, ih hrest]
    · dsimp only
      rw [moveEntry, List.map_map]
      refine List.map_congr_left fun e _ => ?_
      dsimp only [Function.comp_apply]
      split <;> rfl
    · intro e hmem
      obtain ⟨old, hold, rfl⟩ := List.mem_map.mp hmem
      by_cases hname : old.name = name
      · rw [if_pos hname]
        exact .inl (by rw [horder, hname])
      · rw [if_neg hname]
        refine (he old hold).imp_right fun hmem => ?_
        rw [List.map_cons] at hmem
        exact (List.mem_cons.mp hmem).resolve_left hname

theorem foldl_movesOf (hmirror : log.Mirrors entries) (hn : (texts ordered).Nodup)
    (horder : InOrder (texts ordered) entries) :
    (Engine.movesOf log (planOf entries ordered)).foldl
        (fun entries (name, order) => moveEntry name order entries) entries =
      inPlace (texts ordered) entries := by
  refine foldl_moveEntry (fun name => (texts ordered).idxOf name) ?_ ?_
  · rintro ⟨name, order⟩ hmem
    obtain ⟨p, hp, hmove⟩ := List.mem_filterMap.mp hmem
    split at hmove
    · cases hmove
    · rename_i entry hget
      split at hmove
      · cases hmove
      · cases hmove
        have hname : entry.name = p.migration.name.text := by
          simpa using List.find?_some hget
        dsimp only
        rw [hname, idxOf_of_mem_planOf hn hp]
  · intro e he
    obtain ⟨m, hm, hname⟩ := List.mem_map.mp (horder.mem he)
    obtain ⟨i, hi⟩ := List.getElem?_of_mem hm
    have hget := hmirror.get? m.name.text
    have hentry := (entryOf?_eq_some_iff hmirror.names_nodup).mpr ⟨he, hname.symm⟩
    rw [entryOf?] at hentry
    rw [hentry, Option.map_some, Option.map_eq_some_iff] at hget
    obtain ⟨entry, hget, hessence⟩ := hget
    have hrunOrder : entry.runOrder = e.runOrder := congrArg (·.2.1) hessence
    have hidx : ((texts ordered).idxOf e.name : Int) = i := by
      rw [← hname, idxOf_texts hn hi]
    rw [hidx]
    refine or_iff_not_imp_left.mpr fun hmoved => ?_
    refine List.mem_map.mpr ⟨(entry.name, (i : Int)), List.mem_filterMap.mpr
      ⟨_, plannedIn_mem_planOf hi, ?_⟩, congrArg Prod.fst hessence⟩
    rw [plannedIn, hget]
    exact if_neg fun hsame => hmoved (hrunOrder.symm.trans hsame)

/-! ## The entries that were not met yet -/

namespace Log

/-- The entries that were not met yet are among some names. -/
def Pending (log : Log) (names : List String) : Prop :=
  ∀ name entry, log.get? name = some entry → entry.applied = false → name ∈ names

theorem name_of_get? {name : String} {entry : LogEntry} (h : log.get? name = some entry) :
    entry.name = name := by
  simpa using List.find?_some h

theorem get?_modify_self (log : Log) (name : String) (f : LogEntry → LogEntry) :
    (log.modify name f).get? name =
      (log.get? name).map fun entry => { f entry with name := entry.name } := by
  rw [modify]
  cases hget : log.get? name with
  | none => exact hget
  | some entry =>
    have hself := get?_upsert_self log { f entry with name := entry.name }
    have hname : entry.name = name := name_of_get? hget
    subst hname
    exact hself

theorem get?_modify_of_ne (log : Log) {name other : String} (f : LogEntry → LogEntry)
    (h : other ≠ name) : (log.modify name f).get? other = log.get? other := by
  rw [modify]
  cases hget : log.get? name with
  | none => rfl
  | some entry =>
    refine get?_upsert_of_ne log ?_
    rw [name_of_get? hget]
    exact h

namespace Pending

theorem setRunOrder (h : log.Pending names) (name : String) (order : Int) :
    (log.setRunOrder name order).Pending names := by
  intro other entry hget happlied
  by_cases hother : other = name
  · subst hother
    rw [Log.setRunOrder, get?_modify_self, Option.map_eq_some_iff] at hget
    obtain ⟨old, hold, rfl⟩ := hget
    exact h other old hold happlied
  · rw [Log.setRunOrder, get?_modify_of_ne log _ hother] at hget
    exact h other entry hget happlied

theorem foldl_setRunOrder (h : log.Pending names) (moves : List (String × Int)) :
    (moves.foldl (fun log (name, order) => log.setRunOrder name order) log).Pending names := by
  induction moves generalizing log with
  | nil => exact h
  | cons move rest ih => exact ih (h.setRunOrder _ _)

theorem markApplied {name : String} (h : log.Pending (name :: names)) :
    (log.markApplied name).Pending names := by
  intro other entry hget happlied
  by_cases hother : other = name
  · subst hother
    rw [Log.markApplied, get?_modify_self, Option.map_eq_some_iff] at hget
    obtain ⟨old, -, rfl⟩ := hget
    cases happlied
  · rw [Log.markApplied, get?_modify_of_ne log _ hother] at hget
    exact (List.mem_cons.mp (h other entry hget happlied)).resolve_left hother

theorem upsert {entry : LogEntry} (h : log.Pending names) (happlied : entry.applied = true) :
    (log.upsert entry).Pending names := by
  intro other found hget hfound
  by_cases hother : other = entry.name
  · subst hother
    rw [get?_upsert_self, Option.some.injEq] at hget
    rw [← hget, happlied] at hfound
    cases hfound
  · rw [get?_upsert_of_ne log hother] at hget
    exact h other found hget hfound

theorem applied (h : log.Pending []) : ∀ entry ∈ log.entries, entry.applied = true := by
  intro entry hentry
  by_contra hpending
  have hget : log.get? entry.name = some entry :=
    (find?_key_eq_some_iff log.nodup).mpr ⟨hentry, rfl⟩
  have hmem := h entry.name entry hget (Bool.eq_false_iff.mpr hpending)
  cases hmem

theorem unapplied (h : log.Pending []) : log.unapplied = [] := by
  have hnone : log.entries.filter (!·.applied) = [] :=
    List.filter_eq_nil_iff.mpr fun entry hentry => by simp [h.applied entry hentry]
  rw [Log.unapplied, hnone, List.map_nil, List.mergeSort_nil]

end Pending

theorem Mirrors.pending (h : log.Mirrors entries) (hin : ∀ e ∈ entries, e.name ∈ names) :
    log.Pending names := by
  intro name entry hget _
  have hcontains : log.contains name = true := by rw [Log.contains, hget, Option.isSome_some]
  have hmem : name ∈ entries.map (·.name) :=
    isSome_entryOf?.mp ((h.contains name).symm.trans hcontains)
  obtain ⟨e, he, rfl⟩ := List.mem_map.mp hmem
  exact hin e he

end Log
end SchemaMigration
