import Mathlib.Data.List.Basic
import Mathlib.Data.List.Induction
import SchemaMigration.Changelog.Discovery
import SchemaMigration.Proofs.Text.Lines

/-!
# SchemaMigration.Proofs.FileSystem.Components

The parts of paths that are put together and taken apart.

* `Path.steps`, `Path.lead` : the segments that count, and what stands before them.
* `Path.steps_eq_filterMap` : the parts of a path tell its steps.
* `Path.IsRelative`, `Path.segments_join` : paths that can lead to something, and what is below.
* `IsEntryName`, `components_pathBelow` : names of a directory's entries, and paths that go down.
* `Path.parent?_join` : the directory of what is below a path.
-/

namespace SchemaMigration

open Text

/-- What a directory can list: a text without slashes that is neither empty nor a dot or two. -/
structure IsEntryName (name : String) : Prop where
  no_slash : '/' ∉ name.toList
  not_idle : Path.isIdle name.toList = false
  not_parent : name.toList ≠ ['.', '.']

instance (name : String) : Decidable (IsEntryName name) :=
  decidable_of_iff
    ('/' ∉ name.toList ∧ Path.isIdle name.toList = false ∧ name.toList ≠ ['.', '.'])
    ⟨fun h => ⟨h.1, h.2.1, h.2.2⟩, fun h => ⟨h.no_slash, h.not_idle, h.not_parent⟩⟩

/-- The segment that a part was made of. -/
def Component.segment? : Component → Option (List Char)
  | .root | .current => none
  | .parent => some ['.', '.']
  | .name text => some text.toList

theorem Component.segment?_ofSegment (segment : List Char) :
    (ofSegment segment).segment? = some segment := by
  rw [ofSegment]
  split
  · rename_i h
    rw [h]
    rfl
  · rw [segment?, String.toList_ofList]

namespace Path

variable {path base dir : Path} {below name : String}

/-! ## Steps -/

/-- The segments that are parts of the path. -/
def steps (path : Path) : List (List Char) := path.segments.filter (!isIdle ·)

/-- The root of an absolute path, or the dot that begins a path. -/
def lead (path : Path) : List Component :=
  if path.isAbsolute then [.root] else if path.segments.head? = some ['.'] then [.current] else []

theorem components_eq (path : Path) :
    path.components = path.lead ++ path.steps.map Component.ofSegment := by
  rw [components, lead, steps]
  split
  · rfl
  · split
    · rename_i hsegments
      rw [hsegments]
      rfl
    · rename_i hfirst
      rw [if_neg, List.nil_append]
      intro hhead
      obtain ⟨rest, hrest⟩ := List.head?_eq_some_iff.mp hhead
      exact hfirst rest hrest

theorem filterMap_lead (path : Path) : path.lead.filterMap Component.segment? = [] := by
  rw [lead]
  split
  · rfl
  · split <;> rfl

/-- The parts of a path tell its steps. -/
theorem steps_eq_filterMap (path : Path) :
    path.steps = path.components.filterMap Component.segment? := by
  have hcomp : Component.segment? ∘ Component.ofSegment = some :=
    funext Component.segment?_ofSegment
  rw [components_eq, List.filterMap_append, filterMap_lead, List.filterMap_map, hcomp,
    List.filterMap_some, List.nil_append]

theorem filter_of_idle {idle : List (List Char)} (h : ∀ segment ∈ idle, isIdle segment = true) :
    idle.filter (!isIdle ·) = [] := by simpa using h

/-! ## Relative paths -/

/-- Neither absolute nor empty. -/
def IsRelative (path : Path) : Prop := path.isAbsolute = false ∧ path.text.toList ≠ []

/-- The first segment tells whether a path is relative. -/
theorem isRelative_iff : path.IsRelative ↔ path.segments.head? ≠ some [] := by
  rw [IsRelative, isAbsolute, segments]
  cases path.text.toList with
  | nil => simp [splitOn]
  | cons c text =>
    by_cases hc : c = '/'
    · simp [hc, splitOn]
    · obtain ⟨piece, pieces, -, hcons⟩ := splitOn_cons_of_ne hc text
      simp [hc, hcons]

/-- A relative path and what it begins with have the same parts if the rest is idle. -/
theorem IsRelative.components_eq_of_idle {idle : List (List Char)} (hdir : dir.IsRelative)
    (hsegments : path.segments = dir.segments ++ idle)
    (hidle : ∀ segment ∈ idle, isIdle segment = true) : dir.components = path.components := by
  have hhead : path.segments.head? = dir.segments.head? := by
    rw [hsegments, List.head?_append_of_ne_nil dir.segments (splitOn_ne_nil _ _)]
  have hpath : path.IsRelative := by rwa [isRelative_iff, hhead, ← isRelative_iff]
  rw [components_eq, components_eq, lead, lead, steps, steps, hpath.1, hdir.1, hhead, hsegments,
    List.filter_append, filter_of_idle hidle, List.append_nil]

/-! ## What is below -/

/-- A path goes on with the segments of what is below it. A slash at its end is not repeated. -/
theorem segments_join (hbase : base.IsRelative) (hbelow : isAbsolute ⟨below⟩ = false) :
    ∃ front idle, front ≠ [] ∧ base.segments = front ++ idle ∧
      (∀ segment ∈ idle, isIdle segment = true) ∧
      (base.join below).segments = front ++ segments ⟨below⟩ := by
  have hne : base.text.toList.isEmpty = false := by simpa using hbase.2
  rw [join]
  simp only [hbelow, hne, Bool.or_false, Bool.false_eq_true, if_false]
  split
  · rename_i hlast
    obtain ⟨start, hstart⟩ := List.getLast?_eq_some_iff.mp hlast
    refine ⟨splitOn '/' start, [[]], splitOn_ne_nil '/' start, ?_, by simp [isIdle], ?_⟩
    · rw [segments, hstart, splitOn_append]
      rfl
    · rw [segments, String.toList_append, hstart, List.append_assoc, List.singleton_append,
        splitOn_append]
      rfl
  · refine ⟨base.segments, [], splitOn_ne_nil _ _, (List.append_nil _).symm, by simp, ?_⟩
    rw [segments, String.toList_append, String.toList_append, List.append_assoc]
    exact splitOn_append '/' _ _

theorem head?_segments_join (hbase : base.IsRelative) (hbelow : isAbsolute ⟨below⟩ = false) :
    (base.join below).segments.head? = base.segments.head? := by
  obtain ⟨front, idle, hne, hfront, -, hjoin⟩ := segments_join hbase hbelow
  rw [hjoin, hfront, List.head?_append_of_ne_nil _ hne, List.head?_append_of_ne_nil _ hne]

theorem isRelative_join (hbase : base.IsRelative) (hbelow : isAbsolute ⟨below⟩ = false) :
    (base.join below).IsRelative := by
  rwa [isRelative_iff, head?_segments_join hbase hbelow, ← isRelative_iff]

theorem steps_join (hbase : base.IsRelative) (hbelow : isAbsolute ⟨below⟩ = false) :
    (base.join below).steps = base.steps ++ steps ⟨below⟩ := by
  obtain ⟨front, idle, -, hfront, hidle, hjoin⟩ := segments_join hbase hbelow
  rw [steps, steps, steps, hjoin, hfront, List.filter_append, List.filter_append,
    filter_of_idle hidle, List.append_nil]

theorem components_join (hbase : base.IsRelative) (hbelow : isAbsolute ⟨below⟩ = false) :
    (base.join below).components =
      base.components ++ (steps ⟨below⟩).map Component.ofSegment := by
  have hlead : (base.join below).lead = base.lead := by
    rw [lead, lead, (isRelative_join hbase hbelow).1, hbase.1, head?_segments_join hbase hbelow]
  rw [components_eq, components_eq, hlead, steps_join hbase hbelow, List.map_append,
    List.append_assoc]

/-! ## Names of entries -/

theorem segments_of_name (h : IsEntryName name) : segments ⟨name⟩ = [name.toList] :=
  splitOn_of_not_mem h.no_slash

theorem isAbsolute_of_name (h : IsEntryName name) : isAbsolute ⟨name⟩ = false := by
  rw [isAbsolute, decide_eq_false_iff_not]
  exact fun hhead => h.no_slash (List.mem_of_mem_head? hhead)

theorem components_join_name (hbase : base.IsRelative) (h : IsEntryName name) :
    (base.join name).components = base.components ++ [.name name] := by
  rw [components_join hbase (isAbsolute_of_name h), steps, segments_of_name h,
    List.filter_cons_of_pos (by rw [h.not_idle]; rfl), List.filter_nil, List.map_singleton,
    Component.ofSegment, if_neg h.not_parent, String.ofList_toList]

/-- The names in a path are names that a directory can list. -/
theorem isEntryName_of_mem_components (h : .name name ∈ path.components) : IsEntryName name := by
  rw [components_eq, List.mem_append] at h
  rcases h with h | h
  · rw [lead] at h
    split at h
    · cases List.mem_singleton.mp h
    · split at h
      · cases List.mem_singleton.mp h
      · cases h
  · obtain ⟨segment, hmem, hname⟩ := List.mem_map.mp h
    obtain ⟨hsegment, hidle⟩ := List.mem_filter.mp hmem
    rw [Component.ofSegment] at hname
    split at hname
    · cases hname
    · rename_i hparent
      cases hname
      refine ⟨?_, ?_, ?_⟩
      · rw [String.toList_ofList]
        exact not_mem_of_mem_splitOn hsegment
      · rw [String.toList_ofList]
        simpa using hidle
      · rw [String.toList_ofList]
        exact hparent

/-! ## The directory of a path -/

theorem dropIdle_cons_of_not_idle {segment : List Char} (h : isIdle segment = false)
    (before : List (List Char)) : dropIdle (segment :: before) = segment :: before := by
  cases before with
  | nil =>
    rw [dropIdle, if_neg]
    intro hempty
    rw [List.isEmpty_iff.mp hempty] at h
    cases h
  | cons next more =>
    rw [dropIdle, if_neg (by rw [h]; exact Bool.false_ne_true)]
    exact List.cons_ne_nil _ _

/-- What is dropped is idle, and something stays if the first segment is not empty. -/
theorem dropIdle_reverse {front : List (List Char)} (hne : front ≠ [])
    (hfirst : front.head? ≠ some []) :
    ∃ kept idle, dropIdle front.reverse = kept.reverse ∧ kept ≠ [] ∧ front = kept ++ idle ∧
      ∀ segment ∈ idle, isIdle segment = true := by
  induction front using List.reverseRecOn with
  | nil => exact absurd rfl hne
  | append_singleton before segment ih =>
    rw [List.reverse_concat]
    by_cases hbefore : before = []
    · subst hbefore
      refine ⟨[segment], [], ?_, by simp, rfl, by simp⟩
      rw [List.reverse_nil, dropIdle, if_neg]
      · rfl
      · intro hempty
        exact hfirst (congrArg some (List.isEmpty_iff.mp hempty))
    · obtain ⟨last, rest, hlast⟩ := List.exists_cons_of_ne_nil (List.reverse_ne_nil_iff.mpr hbefore)
      have hstep : dropIdle (segment :: before.reverse) =
          if isIdle segment then dropIdle before.reverse else segment :: before.reverse := by
        rw [hlast, dropIdle]
        exact List.cons_ne_nil last rest
      rw [hstep]
      split
      · rename_i hidle
        rw [List.head?_append_of_ne_nil _ hbefore] at hfirst
        obtain ⟨kept, idle, hdrop, hkept, hsplit, hall⟩ := ih hbefore hfirst
        refine ⟨kept, idle ++ [segment], hdrop, hkept, ?_, ?_⟩
        · rw [← List.append_assoc, ← hsplit]
        · simpa [or_imp, forall_and] using ⟨hall, hidle⟩
      · exact ⟨before ++ [segment], [], List.reverse_concat.symm, by simp, by simp, by simp⟩

theorem segments_ofReversed {absolute : Bool} {reversed : List (List Char)} (hne : reversed ≠ [])
    (h : ∀ segment ∈ reversed, '/' ∉ segment) :
    (ofReversed absolute reversed).segments = reversed.reverse := by
  obtain ⟨last, before, rfl⟩ := List.exists_cons_of_ne_nil hne
  rw [ofReversed, segments, String.toList_ofList]
  exact splitOn_joinWith (by simp) fun segment hs => h segment (List.mem_reverse.mp hs)

/-- What is below a path has it as its directory, without what is idle at its end. -/
theorem parent?_join (hbase : base.IsRelative) (h : IsEntryName name) :
    ∃ dir idle, (base.join name).parent? = some dir ∧ dir.IsRelative ∧
      base.segments = dir.segments ++ idle ∧ ∀ segment ∈ idle, isIdle segment = true := by
  obtain ⟨front, idle, hne, hbasefront, hidle, hjoin⟩ := segments_join hbase (isAbsolute_of_name h)
  have hhead : front.head? ≠ some [] := by
    rwa [isRelative_iff, hbasefront, List.head?_append_of_ne_nil _ hne] at hbase
  obtain ⟨kept, idle', hdrop, hkept, hfront, hidle'⟩ := dropIdle_reverse hne hhead
  let dir := ofReversed (base.join name).isAbsolute kept.reverse
  have hdir : dir.segments = kept := by
    have hplain : ∀ segment ∈ kept.reverse, '/' ∉ segment := by
      intro segment hmem
      have hbasemem : segment ∈ base.segments := by
        rw [hbasefront, hfront]
        simp [List.mem_reverse.mp hmem]
      exact not_mem_of_mem_splitOn hbasemem
    rw [segments_ofReversed (by simpa using hkept) hplain, List.reverse_reverse]
  refine ⟨dir, idle' ++ idle, ?_, ?_, ?_, ?_⟩
  · rw [parent?, hjoin, segments_of_name h, List.reverse_append, List.reverse_singleton,
      List.singleton_append, dropIdle_cons_of_not_idle h.not_idle]
    change some (ofReversed (base.join name).isAbsolute (dropIdle front.reverse)) = some dir
    rw [hdrop]
  · rw [isRelative_iff, hdir]
    rwa [hfront, List.head?_append_of_ne_nil _ hkept] at hhead
  · rw [hdir, ← List.append_assoc, ← hfront, hbasefront]
  · intro segment hmem
    exact (List.mem_append.mp hmem).elim (hidle' segment) (hidle segment)

end Path

/-- A path that goes down has the names on the way after the parts of the directory. -/
theorem Changelog.components_pathBelow {directory : Path} {names : Location}
    (hdir : directory.IsRelative) (hnames : ∀ name ∈ names, IsEntryName name) :
    (pathBelow directory names).IsRelative ∧
      (pathBelow directory names).components = directory.components ++ names.map .name := by
  induction names generalizing directory with
  | nil => exact ⟨hdir, (List.append_nil _).symm⟩
  | cons name rest ih =>
    obtain ⟨hname, hrest⟩ := List.forall_mem_cons.mp hnames
    obtain ⟨hrelative, hcomponents⟩ :=
      ih (Path.isRelative_join hdir (Path.isAbsolute_of_name hname)) hrest
    refine ⟨hrelative, hcomponents.trans ?_⟩
    rw [Path.components_join_name hdir hname, List.append_assoc]
    rfl

end SchemaMigration
