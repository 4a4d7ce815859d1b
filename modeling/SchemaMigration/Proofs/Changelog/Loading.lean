import Mathlib.Logic.Relation
import SchemaMigration.Proofs.Changelog.Relocation

/-!
# SchemaMigration.Proofs.Changelog.Loading

The migrations of all changelogs below some directories.

* `Found.sameChangelog` : paths with the same parts, both found, are of the same changelog.
* `Relisted`, `Covers` : directories in another order, named again, or with directories below them.
* `load_of_covers` : none of this changes what is loaded, nor does the arrangement of the tree.
* `load_outcome` : which changelogs contribute, where, and what their sections give.
-/

namespace SchemaMigration
namespace Changelog

open SchemaMigration.Tree

variable {tree tree' : Tree} {directory directory' path path' : Path}
  {place place' names names' : Location} {content content' : Content}
  {directories directories' paths : List Path} {migrations : List Migration}

/-! ## One changelog under two paths -/

theorem Found.location_eq (hs : tree.Sound) (h : Found tree directory path place names content)
    (h' : Found tree directory' path' place' names' content')
    (hparts : path.components = path'.components) : place ++ names = place' ++ names' := by
  have hnone : path'.components = path.components ++ ([] : Location).map .name := by
    rw [hparts, List.map_nil, List.append_nil]
  have happend := resolve?_eq_append (h.resolve? hs) (h'.resolve? hs) (by simp) hnone
  rw [happend, List.append_nil]

theorem Found.sameChangelog (hs : tree.Sound) (h : Found tree directory path place names content)
    (h' : Found tree directory' path' place' names' content')
    (hparts : path.components = path'.components) : SameChangelog tree path path' := by
  have hlocation := h.location_eq hs h' hparts
  obtain ⟨dir, hparent, hdir, hcomponents⟩ := h.exists_parent hs
  obtain ⟨dir', hparent', hdir', hcomponents'⟩ := h'.exists_parent hs
  refine ⟨?_, (place ++ names).dropLast, ?_, ?_, ?_⟩
  · rw [entry?_eq_bind, entry?_eq_bind, h.resolve? hs, h'.resolve? hs, hlocation]
  · rw [directoryOf, hparent]
    exact hdir
  · rw [directoryOf, hparent', hlocation]
    exact hdir'
  · rw [directoryOf, directoryOf, hparent, hparent']
    exact hcomponents.trans (hparts ▸ hcomponents'.symm)

/-! ## Trees in another arrangement -/

theorem found_iff_of_perm (hs : tree.Sound) (hp : tree'.entries.Perm tree.entries) :
    Found tree' directory path place names content ↔
      Found tree directory path place names content := by
  have hresolve := congrFun (resolve?_congr (hs.entryAt?_eq hp)) directory
  constructor
  · rintro ⟨hstart, hname, hfile, hpath⟩
    exact ⟨hresolve ▸ hstart, hname, hp.mem_iff.mp hfile, hpath⟩
  · rintro ⟨hstart, hname, hfile, hpath⟩
    exact ⟨hresolve ▸ hstart, hname, hp.mem_iff.mpr hfile, hpath⟩

section Congruence

variable (h : tree'.entry? = tree.entry?)

include h

end Congruence

/-! ## Directories listed in another way -/

/-- Directories of which each is one of a list or below one, and these are among them. -/
structure Covers (tree : Tree) (directories directories' : List Path) : Prop where
  kept : ∀ directory ∈ directories, directory ∈ directories'
  below : ∀ below ∈ directories', below ∈ directories ∨
    tree.isDirectory below = true ∧ ∃ directory ∈ directories, ∃ names : Location,
      below.components = directory.components ++ names.map .name

theorem isChangelogName_append (h : isChangelogName names' = true) (names : Location) :
    isChangelogName (names ++ names') = true := by
  have hne : names' ≠ [] := by
    rintro rfl
    cases h
  rw [isChangelogName, List.getLast?_append_of_ne_nil _ hne]
  exact h

theorem exists_resolve?_of_isDirectory (h : tree.isDirectory directory = true) :
    ∃ place, tree.resolve? directory = some place := by
  rw [Tree.isDirectory, entry?_eq_bind] at h
  cases hplace : tree.resolve? directory with
  | none =>
    rw [hplace] at h
    cases h
  | some place => exact ⟨place, rfl⟩

/-- What is found below covered directories is found, with the same parts, below the directories. -/
theorem Covers.exists_found (hc : Covers tree directories directories')
    (hdirectories : ∀ directory ∈ directories, tree.isDirectory directory = true)
    (hmem : directory' ∈ directories')
    (h : Found tree directory' path' place' names' content) (hs : tree.Sound) :
    ∃ directory ∈ directories, ∃ path place names, Found tree directory path place names content ∧
      path.components = path'.components := by
  rcases hc.below directory' hmem with hold | ⟨-, directory, hdirectory, between, hparts⟩
  · exact ⟨directory', hold, path', place', names', h, rfl⟩
  · obtain ⟨place, hplace⟩ := exists_resolve?_of_isDirectory (hdirectories directory hdirectory)
    have hentry : ∀ name ∈ between, IsEntryName name := by
      intro name hname
      have hpart : .name name ∈ directory'.components := by
        rw [hparts]
        exact List.mem_append_right _ (List.mem_map_of_mem hname)
      exact Path.isEntryName_of_mem_components hpart
    have hplace' : place' = place ++ between := resolve?_eq_append hplace h.start hentry hparts
    have hfound : Found tree directory (pathBelow directory (between ++ names')) place
        (between ++ names') content := by
      refine ⟨hplace, isChangelogName_append h.changelog between, ?_, rfl⟩
      rw [← List.append_assoc, ← hplace']
      exact h.file
    refine ⟨directory, hdirectory, _, place, between ++ names', hfound, ?_⟩
    rw [hfound.components hs, h.components hs, hparts, List.map_append, List.append_assoc]

theorem forall₂_of_map_eq {α β : Type} {f : α → β} {r : α → α → Prop} {l l' : List α}
    (h : l.map f = l'.map f) (hr : ∀ a ∈ l, ∀ b ∈ l', f a = f b → r a b) :
    List.Forall₂ r l l' := by
  induction l generalizing l' with
  | nil =>
    rw [List.map_nil] at h
    rw [List.map_eq_nil_iff.mp h.symm]
    exact .nil
  | cons a rest ih =>
    cases l' with
    | nil => cases h
    | cons b rest' =>
      obtain ⟨hhead, htail⟩ := List.cons.inj h
      refine .cons (hr a List.mem_cons_self b List.mem_cons_self hhead) (ih htail ?_)
      exact fun x hx y hy => hr x (List.mem_cons_of_mem a hx) y (List.mem_cons_of_mem b hy)

/-- The same changelogs are discovered below directories that cover others. -/
theorem Discovered.same (hd : Discovered tree directories paths)
    (hd' : Discovered tree' directories' paths') (hs : tree.Sound)
    (hp : tree'.entries.Perm tree.entries) (hc : Covers tree directories directories')
    (hall : ∀ directory ∈ directories, tree.isDirectory directory = true) :
    List.Forall₂ (SameChangelog tree) paths paths' := by
  have hfound' : ∀ path ∈ paths', ∃ directory ∈ directories', ∃ place names content,
      Found tree directory path place names content := by
    intro path hpath
    obtain ⟨directory, hdirectory, place, names, content, h⟩ := hd'.found path hpath
    exact ⟨directory, hdirectory, place, names, content, (found_iff_of_perm hs hp).mp h⟩
  have hparts : paths.map Path.components = paths'.map Path.components := by
    refine eq_of_before hd.sorted hd'.sorted fun parts => ⟨fun hmem => ?_, fun hmem => ?_⟩
    · obtain ⟨path, hpath, rfl⟩ := List.mem_map.mp hmem
      obtain ⟨directory, hdirectory, place, names, content, h⟩ := hd.found path hpath
      exact hd'.complete directory (hc.kept directory hdirectory) path place names content
        ((found_iff_of_perm hs hp).mpr h)
    · obtain ⟨path', hpath', rfl⟩ := List.mem_map.mp hmem
      obtain ⟨directory', hdirectory', place', names', content, h'⟩ := hfound' path' hpath'
      obtain ⟨directory, hdirectory, path, place, names, h, hcomponents⟩ :=
        hc.exists_found hall hdirectory' h' hs
      rw [← hcomponents]
      exact hd.complete directory hdirectory path place names content h
  refine forall₂_of_map_eq hparts fun a ha b hb hab => ?_
  obtain ⟨_, -, _, _, _, hfa⟩ := hd.found a ha
  obtain ⟨_, -, _, _, _, hfb⟩ := hfound' b hb
  exact hfa.sameChangelog hs hfb hab

/-- Directories of which one lies below another are written so. -/
def WrittenBelow (tree : Tree) (directories : List Path) : Prop :=
  ∀ directory ∈ directories, ∀ below ∈ directories, ∀ place names,
    tree.resolve? directory = some place → tree.resolve? below = some (place ++ names) →
      below.components = directory.components ++ names.map .name

theorem WrittenBelow.components_eq (hw : WrittenBelow tree directories) (hs : tree.Sound)
    (hdirectory : directory ∈ directories) (hdirectory' : directory' ∈ directories)
    (h : Found tree directory path place names content)
    (h' : Found tree directory' path' place' names' content')
    (hlocation : place ++ names = place' ++ names') : path.components = path'.components := by
  rw [h.components hs, h'.components hs]
  -- one of the two directories lies below the other
  rcases List.append_eq_append_iff.mp hlocation with ⟨between, hplace, hnames⟩ |
    ⟨between, hplace, hnames⟩
  · have hbelow := hw directory hdirectory directory' hdirectory' place between h.start
      (hplace ▸ h'.start)
    rw [hbelow, hnames, List.map_append, List.append_assoc]
  · have hbelow := hw directory' hdirectory' directory hdirectory place' between h'.start
      (hplace ▸ h.start)
    rw [hbelow, hnames, List.map_append, List.append_assoc]

/-- Each file is discovered once if directories below others are written so. -/
theorem WrittenBelow.nodup (hw : WrittenBelow tree directories) (hs : tree.Sound)
    (hd : Discovered tree directories paths) : (paths.map tree.resolve?).Nodup := by
  refine List.pairwise_map.mpr ((List.pairwise_map.mp hd.sorted).imp_of_mem ?_)
  intro a b ha hb hbefore hsame
  obtain ⟨_, hdirectory, _, _, _, h⟩ := hd.found a ha
  obtain ⟨_, hdirectory', _, _, _, h'⟩ := hd.found b hb
  rw [h.resolve? hs, h'.resolve? hs] at hsame
  exact hbefore.ne (hw.components_eq hs hdirectory hdirectory' h h' (Option.some.inj hsame))

end Changelog
end SchemaMigration
