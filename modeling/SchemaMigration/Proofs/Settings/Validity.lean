import Mathlib.Data.String.Basic
import SchemaMigration.Proofs.Text.Cut
import SchemaMigration.Proofs.Text.Trim
import SchemaMigration.Settings.Reading

/-!
# SchemaMigration.Proofs.Settings.Validity

What holds of every configuration that loads.

* `DatabaseSettings.Sound` : a schema that is not blank, and an address where a server is meant.
* `Settings.Valid` : every part of a configuration, the targets' databases included, is as it has to
  be; `problem?_eq_none_iff` says that the check finds nothing wrong just then.
* `Ascending` : targets in ascending order of their names, which makes each name a single target's.
* `Settings.Loaded` : both; `loaded_of_load` has them of what is read from a file.
-/

namespace SchemaMigration

open Text
open Yaml (Document Node)

/-! ## What the check asks for -/

/-- Whether a path is the address of a server. -/
def IsServerAddress (path : String) : Prop :=
  "postgres://".toList <+: path.toList ∨ "postgresql://".toList <+: path.toList

namespace DatabaseSettings

structure Sound (database : DatabaseSettings) : Prop where
  schema : ∃ c ∈ database.schema.toList, isBlank c = false
  address : database.kind = .postgres → IsServerAddress database.path

theorem isServerAddress_iff {path : String} :
    isServerAddress path = true ↔ IsServerAddress path := by
  rw [isServerAddress, Bool.or_eq_true, startsWith_iff, startsWith_iff, IsServerAddress]

theorem isEmpty_trimmed_iff {text : String} :
    (trimmed text).isEmpty = true ↔ ¬ ∃ c ∈ text.toList, isBlank c = false := by
  rw [trimmed, String.isEmpty_iff, String.ofList_eq_empty_iff, trim_eq_nil_iff, isBlankText_iff]
  simp

theorem problem?_eq_none_iff {database : DatabaseSettings} {target : Option String} :
    database.problem? target = none ↔ database.Sound := by
  rw [problem?]
  split
  · rename_i hblank
    exact ⟨nofun, fun h => absurd h.schema (isEmpty_trimmed_iff.mp hblank)⟩
  · rename_i hblank
    have hschema := not_not.mp (mt isEmpty_trimmed_iff.mpr hblank)
    split
    · rename_i hserver
      refine ⟨nofun, fun h => ?_⟩
      rw [isServerAddress_iff.mpr (h.address hserver.1)] at hserver
      cases hserver.2
    · rename_i hserver
      refine ⟨fun _ => ⟨hschema, fun hkind => isServerAddress_iff.mp ?_⟩, fun _ => rfl⟩
      simpa using fun hpath => hserver ⟨hkind, hpath⟩

end DatabaseSettings

namespace Settings

structure Valid (settings : Settings) : Prop where
  name : settings.name ≠ ""
  changelogPaths : settings.changelogPaths ≠ []
  attempts : 1 ≤ settings.lock.maxAttempts
  database : settings.database.Sound
  targets : ∀ name target, (name, target) ∈ settings.targets →
    ∀ database ∈ target.database, database.Sound

variable {settings : Settings}

/-- Every database is looked at, the base one and the targets' own. -/
theorem forall_databases_iff {P : DatabaseSettings → Prop} :
    (∀ entry ∈ settings.databases, P entry.2) ↔
      P settings.database ∧ ∀ name target, (name, target) ∈ settings.targets →
        ∀ database ∈ target.database, P database := by
  rw [databases, List.forall_mem_cons]
  refine and_congr_right fun _ => ⟨fun h name target hmem database hdb => ?_,
    fun h entry hentry => ?_⟩
  · have hown : target.database.map (some name, ·) = some (some name, database) := by
      rw [Option.mem_def.mp hdb, Option.map_some]
    exact h (some name, database) (List.mem_filterMap.mpr ⟨(name, target), hmem, hown⟩)
  · obtain ⟨⟨name, target⟩, hmem, hown⟩ := List.mem_filterMap.mp hentry
    obtain ⟨database, hdb, rfl⟩ := Option.map_eq_some_iff.mp hown
    exact h name target hmem database hdb

theorem problem?_eq_none_iff : settings.problem? = none ↔ settings.Valid := by
  rw [problem?]
  split
  · rename_i hname
    exact ⟨nofun, fun h => absurd (String.isEmpty_iff.mp hname) h.name⟩
  · rename_i hname
    split
    · rename_i hpaths
      exact ⟨nofun, fun h => absurd (List.isEmpty_iff.mp hpaths) h.changelogPaths⟩
    · rename_i hpaths
      split
      · rename_i hattempts
        exact ⟨nofun, fun h => absurd h.attempts (by omega)⟩
      · rename_i hattempts
        simp only [List.findSome?_eq_none_iff, DatabaseSettings.problem?_eq_none_iff]
        rw [forall_databases_iff]
        exact ⟨fun h => ⟨mt String.isEmpty_iff.mpr hname, mt List.isEmpty_iff.mpr hpaths,
          by omega, h.1, h.2⟩, fun h => ⟨h.database, h.targets⟩⟩

theorem check_eq_ok_iff {checked : Settings} :
    settings.check = .ok checked ↔ checked = settings ∧ settings.Valid := by
  rw [check, ← problem?_eq_none_iff]
  cases settings.problem? with
  | none => simp [eq_comm]
  | some problem => simp

end Settings

/-! ## The targets' order -/

/-- Targets in ascending order of their names. -/
def Ascending (targets : List (String × Target)) : Prop := targets.Pairwise fun a b => a.1 < b.1

variable {name : String} {target : Target} {targets : List (String × Target)}

theorem mem_insertTarget {entry : String × Target} (h : entry ∈ insertTarget name target targets) :
    entry = (name, target) ∨ entry ∈ targets := by
  induction targets with
  | nil => exact .inl (List.mem_singleton.mp h)
  | cons first rest ih =>
    obtain ⟨other, kept⟩ := first
    rw [insertTarget] at h
    split at h
    · exact List.mem_cons.mp h
    · split at h
      · exact (List.mem_cons.mp h).imp_right (List.mem_cons_of_mem _)
      · rcases List.mem_cons.mp h with hentry | hentry
        · exact .inr (hentry ▸ List.mem_cons_self)
        · exact (ih hentry).imp_right (List.mem_cons_of_mem _)

theorem ascending_insertTarget (h : Ascending targets) (name : String) (target : Target) :
    Ascending (insertTarget name target targets) := by
  induction targets with
  | nil => exact List.pairwise_singleton _ _
  | cons first rest ih =>
    obtain ⟨other, kept⟩ := first
    obtain ⟨hfirst, hrest⟩ := List.pairwise_cons.mp h
    rw [insertTarget]
    split
    · rename_i hlt
      refine List.pairwise_cons.mpr ⟨List.forall_mem_cons.mpr ⟨hlt, fun entry hentry => ?_⟩, h⟩
      exact String.lt_trans hlt (hfirst entry hentry)
    · rename_i hnot
      split
      · rename_i heq
        exact List.pairwise_cons.mpr ⟨fun entry hentry => heq ▸ hfirst entry hentry, hrest⟩
      · rename_i hne
        refine List.pairwise_cons.mpr ⟨fun entry hentry => ?_, ih hrest⟩
        rcases mem_insertTarget hentry with rfl | hentry
        · exact (lt_trichotomy name other).resolve_left hnot |>.resolve_left hne
        · exact hfirst entry hentry

theorem ascending_foldl_insertTarget (h : Ascending targets) (more : List (String × Target)) :
    Ascending (more.foldl (fun sorted entry => insertTarget entry.1 entry.2 sorted) targets) := by
  induction more generalizing targets with
  | nil => exact h
  | cons entry more ih => exact ih (ascending_insertTarget h entry.1 entry.2)

/-- A name has one target, which is found under it. -/
theorem Ascending.lookup_of_mem (h : Ascending targets) (hmem : (name, target) ∈ targets) :
    targets.lookup name = some target := by
  obtain ⟨before, after, rfl⟩ := List.append_of_mem hmem
  refine List.lookup_eq_some_iff.mpr ⟨before, after, rfl, fun other hother => ?_⟩
  have hlt := (List.pairwise_append.mp h).2.2 other hother (name, target) List.mem_cons_self
  simpa using ne_of_gt hlt

theorem ascending_targetsOfNode? {document : Document} {node : Node}
    (h : targetsOfNode? document node = some targets) : Ascending targets := by
  rw [targetsOfNode?] at h
  obtain ⟨fields, -, h⟩ := Option.bind_eq_some_iff.mp h
  obtain ⟨read, -, h⟩ := Option.bind_eq_some_iff.mp h
  cases h
  exact ascending_foldl_insertTarget List.Pairwise.nil read

namespace Settings

variable {settings : Settings}

theorem ascending_ofDocument? {document : Document} (h : ofDocument? document = some settings) :
    Ascending settings.targets := by
  simp only [ofDocument?, bind, Option.bind_eq_some_iff] at h
  obtain ⟨fields, -, name, -, changelogPaths, -, environment, -, database, -, lock, -, targets,
    htargets, h⟩ := h
  cases h
  rw [fieldOr] at htargets
  split at htargets
  · exact ascending_targetsOfNode? htargets
  · cases htargets
    exact List.Pairwise.nil

/-! ## Loading -/

/-- What is known of a configuration that was loaded. -/
structure Loaded (settings : Settings) : Prop where
  valid : settings.Valid
  ascending : Ascending settings.targets

theorem loaded_of_load {tree : Tree} {path : Path} (h : load tree path = .ok settings) :
    settings.Loaded := by
  rw [load] at h
  split at h
  · split at h
    · cases h
    · rename_i text _
      split at h
      · cases h
      · rename_i read hread
        obtain ⟨rfl, hvalid⟩ := check_eq_ok_iff.mp h
        rw [ofText?] at hread
        split at hread
        · exact ⟨hvalid, ascending_ofDocument? hread⟩
        · cases hread
  · cases h

theorem loaded_of_loadFrom {tree : Tree} {directory : Path}
    (h : loadFrom tree directory = .ok settings) : settings.Loaded := by
  rw [loadFrom] at h
  split at h
  · exact loaded_of_load h
  · split at h
    · exact loaded_of_load h
    · cases h

end Settings
end SchemaMigration
