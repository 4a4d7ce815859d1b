import Mathlib.Data.List.Induction
import Mathlib.Data.List.Perm.Basic
import SchemaMigration.Proofs.FileSystem.Components

/-!
# SchemaMigration.Proofs.FileSystem.Resolution

What paths lead to in a tree of files.

* `Tree.Sound` : the trees that a file system can hold.
* `Tree.Sound.entryAt?_eq` : such a tree does not depend on the arrangement of its entries.
* `Tree.walk_append`, `Tree.walk_of_idle` : walks one after the other, and walks that stay.
* `Tree.resolve?_eq_append` : where a path leads that has names after the parts of another one.
* `Tree.resolve?_join`, `Tree.Sound.resolve?_pathBelow` : what is below a directory is found there.
* `Tree.resolve?_parent` : where the directory of a path leads.
* `Tree.Sound.entry?_eq` : questions about paths do not depend on the arrangement of the entries.
-/

namespace SchemaMigration
namespace Tree

open SchemaMigration.Path

/-- Each location occurs once, goes down by names that a directory can list, and stands in a
directory. -/
structure Sound (tree : Tree) : Prop where
  distinct : (tree.entries.map (·.1)).Nodup
  named : ∀ location ∈ tree.entries.map (·.1), location ≠ [] ∧ ∀ name ∈ location, IsEntryName name
  enclosed : ∀ location ∈ tree.entries.map (·.1), tree.isDirectoryAt location.dropLast = true

variable {tree tree' : Tree} {here location : Location} {names : Location} {entry : Entry}

/-! ## Entries -/

theorem lookup_eq_some_iff {entries : List (Location × Entry)} (h : (entries.map (·.1)).Nodup) :
    entries.lookup location = some entry ↔ (location, entry) ∈ entries := by
  induction entries with
  | nil => simp
  | cons first rest ih =>
    obtain ⟨place, other⟩ := first
    obtain ⟨hfirst, hrest⟩ := List.nodup_cons.mp h
    rw [List.lookup_cons, List.mem_cons, Prod.mk.injEq]
    by_cases hplace : location = place
    · have hnot : (location, entry) ∉ rest := fun hmem =>
        hfirst (hplace ▸ List.mem_map_of_mem (f := (·.1)) hmem)
      simp [hplace, eq_comm, hplace ▸ hnot]
    · have htest : (location == place) = false := beq_eq_false_iff_ne.mpr hplace
      simpa [htest, hplace] using ih hrest

theorem entryAt?_of_ne_nil (h : location ≠ []) :
    tree.entryAt? location = tree.entries.lookup location := by
  rw [entryAt?, if_neg (by simpa using h)]

theorem Sound.mem_entries_iff (h : tree.Sound) (hne : location ≠ []) :
    tree.entryAt? location = some entry ↔ (location, entry) ∈ tree.entries := by
  rw [entryAt?_of_ne_nil hne, lookup_eq_some_iff h.distinct]

/-- What stands where does not depend on the arrangement of the entries. -/
theorem Sound.entryAt?_eq (h : tree.Sound) (hp : tree'.entries.Perm tree.entries) :
    tree'.entryAt? = tree.entryAt? := by
  have hdistinct : (tree'.entries.map (·.1)).Nodup := (hp.map (·.1)).nodup_iff.mpr h.distinct
  funext location
  by_cases hne : location = []
  · rw [hne]
    rfl
  · refine Option.ext fun entry => ?_
    rw [entryAt?_of_ne_nil hne, lookup_eq_some_iff hdistinct, hp.mem_iff,
      ← h.mem_entries_iff hne]

/-- Each location on the way to an entry is a directory. -/
theorem Sound.isDirectoryAt_of_mem (h : tree.Sound) (hne : names ≠ [])
    (hmem : location ++ names ∈ tree.entries.map (·.1)) : tree.isDirectoryAt location = true := by
  induction names using List.reverseRecOn with
  | nil => exact absurd rfl hne
  | append_singleton before last ih =>
    have hdir := h.enclosed _ hmem
    rw [← List.append_assoc, List.dropLast_concat] at hdir
    by_cases hbefore : before = []
    · rwa [hbefore, List.append_nil] at hdir
    · refine ih hbefore ?_
      have hne' : location ++ before ≠ [] := by simp [hbefore]
      rw [isDirectoryAt] at hdir
      split at hdir
      · rename_i hentry
        exact List.mem_map_of_mem (f := (·.1)) ((h.mem_entries_iff hne').mp hentry)
      · cases hdir

/-! ## Walks -/

theorem walk_append (tree : Tree) (here : Location) (a b : List (List Char)) :
    tree.walk here (a ++ b) = (tree.walk here a).bind fun there => tree.walk there b := by
  induction a generalizing here with
  | nil => rfl
  | cons segment rest ih =>
    rw [List.cons_append, walk, walk]
    split
    · rfl
    split
    · exact ih here
    split
    · split
      · rfl
      · exact ih here.dropLast
    · exact ih _

theorem walk_cons_of_idle {segment : List Char} (hidle : isIdle segment = true)
    (rest : List (List Char)) :
    tree.walk here (segment :: rest) =
      if tree.isDirectoryAt here then tree.walk here rest else none := by
  rw [walk]
  cases tree.isDirectoryAt here
  · rfl
  · rw [if_pos hidle]
    rfl

/-- Idle segments stay where they are, which has to be a directory. -/
theorem walk_of_idle {idle : List (List Char)} (hidle : ∀ segment ∈ idle, isIdle segment = true)
    (hwalk : tree.walk here idle = some location) : location = here := by
  induction idle with
  | nil => exact (Option.some.inj hwalk).symm
  | cons segment rest ih =>
    obtain ⟨hsegment, hrest⟩ := List.forall_mem_cons.mp hidle
    rw [walk_cons_of_idle hsegment] at hwalk
    split at hwalk
    · exact ih hrest hwalk
    · cases hwalk

/-- A walk that arrives would arrive without its idle segments. -/
theorem walk_filter {segments : List (List Char)} (hwalk : tree.walk here segments = some location) :
    tree.walk here (segments.filter (!isIdle ·)) = some location := by
  induction segments generalizing here with
  | nil => exact hwalk
  | cons segment rest ih =>
    by_cases hidle : isIdle segment = true
    · rw [walk_cons_of_idle hidle] at hwalk
      rw [List.filter_cons_of_neg (by simp [hidle])]
      split at hwalk
      · exact ih hwalk
      · cases hwalk
    · rw [List.filter_cons_of_pos (by simp [hidle])]
      rw [walk, if_neg hidle] at hwalk ⊢
      split at hwalk
      · cases hwalk
      rename_i hdir
      rw [if_neg hdir]
      split at hwalk
      · rename_i hparent
        rw [if_pos hparent]
        split at hwalk
        · cases hwalk
        · rename_i hroot
          rw [if_neg hroot]
          exact ih hwalk
      · rename_i hparent
        rw [if_neg hparent]
        exact ih hwalk

theorem walk_cons_of_name {name : String} (h : IsEntryName name) (rest : List (List Char)) :
    tree.walk here (name.toList :: rest) =
      if tree.isDirectoryAt here then tree.walk (here ++ [name]) rest else none := by
  rw [walk, h.not_idle, String.ofList_toList]
  cases tree.isDirectoryAt here
  · rfl
  · exact if_neg h.not_parent

/-- Names lead down, wherever they lead. -/
theorem walk_of_names (hnames : ∀ name ∈ names, IsEntryName name)
    (hwalk : tree.walk here (names.map String.toList) = some location) :
    location = here ++ names := by
  induction names generalizing here with
  | nil => exact (Option.some.inj hwalk).symm.trans (List.append_nil _).symm
  | cons name rest ih =>
    obtain ⟨hname, hrest⟩ := List.forall_mem_cons.mp hnames
    rw [List.map_cons, walk_cons_of_name hname] at hwalk
    split at hwalk
    · rw [ih hrest hwalk, List.append_assoc]
      rfl
    · cases hwalk

/-! ## What paths lead to -/

variable {path other base dir : Path} {below name : String}

theorem resolve?_of_isRelative (h : path.IsRelative) :
    tree.resolve? path = tree.walk [] path.segments := by
  have hempty : path.text.isEmpty = false := by
    rw [← Bool.not_eq_true, String.isEmpty_iff, ← String.toList_eq_nil_iff]
    exact h.2
  rw [resolve?, h.1, hempty]
  rfl

theorem isRelative_of_resolve? (h : tree.resolve? path = some location) : path.IsRelative := by
  rw [resolve?] at h
  split at h
  · cases h
  · rename_i hrelative
    rw [Bool.or_eq_true, not_or, Bool.not_eq_true, String.isEmpty_iff,
      ← String.toList_eq_nil_iff] at hrelative
    exact hrelative

theorem entry?_eq_bind (tree : Tree) (path : Path) :
    tree.entry? path = (tree.resolve? path).bind tree.entryAt? := by
  unfold entry?
  cases tree.resolve? path <;> rfl

/-- The steps of a path lead where it leads. -/
theorem walk_steps (h : tree.resolve? path = some location) :
    tree.walk [] path.steps = some location := by
  rw [resolve?_of_isRelative (isRelative_of_resolve? h)] at h
  exact walk_filter h

/-- Names after the parts of a path lead down from where it leads. -/
theorem resolve?_eq_append (hpath : tree.resolve? path = some location)
    (hother : tree.resolve? other = some here) (hnames : ∀ name ∈ names, IsEntryName name)
    (h : other.components = path.components ++ names.map .name) : here = location ++ names := by
  have hsteps : other.steps = path.steps ++ names.map String.toList := by
    rw [steps_eq_filterMap, h, List.filterMap_append, ← steps_eq_filterMap, List.filterMap_map]
    congr 1
    exact congrFun (List.filterMap_eq_map (f := String.toList)) names
  have hwalk := walk_steps hother
  rw [hsteps, walk_append, walk_steps hpath] at hwalk
  exact walk_of_names hnames hwalk

/-- What is below a directory is found by a walk from there. -/
theorem resolve?_join (hbase : tree.resolve? base = some location)
    (hbelow : isAbsolute ⟨below⟩ = false) :
    tree.resolve? (base.join below) = tree.walk location (segments ⟨below⟩) := by
  have hrelative := isRelative_of_resolve? hbase
  obtain ⟨front, idle, -, hsegments, hidle, hjoin⟩ := segments_join hrelative hbelow
  rw [resolve?_of_isRelative hrelative, hsegments, walk_append] at hbase
  obtain ⟨there, hfront, hrest⟩ := Option.bind_eq_some_iff.mp hbase
  rw [resolve?_of_isRelative (isRelative_join hrelative hbelow), hjoin, walk_append, hfront,
    walk_of_idle hidle hrest]
  rfl

/-- Paths go down towards what stands below a directory. -/
theorem Sound.resolve?_pathBelow (h : tree.Sound) (hdir : tree.resolve? dir = some location)
    {more : Location} (hmem : location ++ (names ++ more) ∈ tree.entries.map (·.1)) :
    tree.resolve? (Changelog.pathBelow dir names) = some (location ++ names) := by
  induction names generalizing dir location with
  | nil =>
    rw [List.append_nil]
    exact hdir
  | cons name rest ih =>
    have hname : IsEntryName name := (h.named _ hmem).2 name (by simp)
    have hjoin : tree.resolve? (dir.join name) = some (location ++ [name]) := by
      have hdirectory := h.isDirectoryAt_of_mem (List.cons_ne_nil name (rest ++ more)) hmem
      rw [resolve?_join hdir (isAbsolute_of_name hname), segments_of_name hname,
        walk_cons_of_name hname, if_pos hdirectory]
      rfl
    rw [List.append_cons]
    rw [List.cons_append, List.append_cons] at hmem
    exact ih hjoin hmem

/-- The directory of what is below a path leads where the path leads. -/
theorem resolve?_parent (hbase : tree.resolve? base = some location) (hname : IsEntryName name) :
    ∃ dir, (base.join name).parent? = some dir ∧ tree.resolve? dir = some location ∧
      dir.components = base.components := by
  have hrelative := isRelative_of_resolve? hbase
  obtain ⟨dir, idle, hparent, hdir, hsegments, hidle⟩ := parent?_join hrelative hname
  refine ⟨dir, hparent, ?_, hdir.components_eq_of_idle hsegments hidle⟩
  rw [resolve?_of_isRelative hrelative, hsegments, walk_append] at hbase
  obtain ⟨there, hthere, hrest⟩ := Option.bind_eq_some_iff.mp hbase
  rw [resolve?_of_isRelative hdir, hthere, walk_of_idle hidle hrest]

/-! ## The arrangement of the entries -/

theorem walk_congr (h : tree'.entryAt? = tree.entryAt?) : tree'.walk = tree.walk := by
  funext here segments
  induction segments generalizing here with
  | nil => rfl
  | cons segment rest ih =>
    have hdir : tree'.isDirectoryAt here = tree.isDirectoryAt here := by
      rw [isDirectoryAt, h, isDirectoryAt]
    rw [walk, walk, hdir, ih here, ih here.dropLast, ih]

theorem resolve?_congr (h : tree'.entryAt? = tree.entryAt?) : tree'.resolve? = tree.resolve? := by
  funext path
  rw [resolve?, walk_congr h, resolve?]

end Tree
end SchemaMigration
