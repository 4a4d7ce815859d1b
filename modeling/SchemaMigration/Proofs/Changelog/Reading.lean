import Mathlib.Data.List.Forall2
import SchemaMigration.Proofs.Changelog.Outline

/-!
# SchemaMigration.Proofs.Changelog.Reading

What is read of a migration file.

* `LaidOut` : the layout of a file, and `LaidOut.unique`: it has one at most.
* `Block.Gives` : the migration of a section, in terms of its header line and its body.
* `MigrationFile.number_cases` : the sections all build, or one is the first not to.
* `MigrationFile.read_outcome` : when a file is read, what comes of it and where the counter ends.
-/

namespace SchemaMigration

open Text

/-- The lines of a migration file: the file header and the sections, with blank lines only before
the header and between it and the first section. -/
def LaidOut (lines : List (List Char)) (blocks : List Block) : Prop :=
  ∃ before first between, lines = before ++ first :: (between ++ blocks.flatMap Block.lines) ∧
    (∀ line ∈ before, isBlankText line = true) ∧
    MigrationFile.isFileHeader migrationFileHeader first = true ∧
    (∀ line ∈ between, isBlankText line = true) ∧ ∀ block ∈ blocks, block.IsSection

/-! ## Headers and drafts -/

namespace Header

variable {file : Path} {line author title rest : List Char}

/-- Neither author nor title of a header holds a blank. -/
theorem not_blank_of_split? (h : split? line = some (author, title, rest)) :
    (∀ c ∈ author, isBlank c = false) ∧ ∀ c ∈ title, isBlank c = false := by
  rw [split?] at h
  split at h
  · cases h
  rename_i afterKeyword _
  split at h
  · cases h
  dsimp only at h
  split at h
  · rename_i afterColon _
    split at h
    · cases h
    · cases h
      refine ⟨fun c hc => ?_, fun c hc => ?_⟩
      · have hauthor := List.mem_takeWhile_imp hc
        simp only [Bool.and_eq_true, Bool.not_eq_true'] at hauthor
        exact hauthor.1
      · simpa using List.mem_takeWhile_imp hc
  · cases h

/-- Tokens leave author and title as they are. -/
theorem applyTokens_names {draft draft' : Draft} {tokens : List (List Char)}
    (h : applyTokens file draft tokens = .ok draft') :
    draft'.author = draft.author ∧ draft'.title = draft.title := by
  induction tokens generalizing draft with
  | nil =>
    cases h
    exact ⟨rfl, rfl⟩
  | cons token rest ih =>
    rw [applyTokens] at h
    split at h
    · cases h
    · rename_i next htoken
      have hnext : next.author = draft.author ∧ next.title = draft.title := by
        rw [applyToken] at htoken
        split at htoken
        · cases htoken
        split at htoken
        · cases htoken
          exact ⟨rfl, rfl⟩
        split at htoken
        · cases htoken
        · cases htoken
          exact ⟨rfl, rfl⟩
      obtain ⟨hauthor, htitle⟩ := ih h
      exact ⟨hauthor.trans hnext.1, htitle.trans hnext.2⟩

end Header

theorem trimmed_ofList {text : List Char} (h : ∀ c ∈ text, isBlank c = false) :
    trimmed (String.ofList text) = String.ofList text := by
  rw [trimmed, String.toList_ofList, trim_of_no_blank h]

/-- A migration takes its parts from its draft. -/
theorem Draft.of_build {draft : Draft} {m : Migration} (h : draft.build = .ok m) :
    m.name.text = trimmed draft.title ∧ m.author = trimmed draft.author ∧
      m.path = draft.path ∧ m.naturalOrder = draft.naturalOrder ∧
      m.body = normalizedBody draft.body ∧ m.parameters = draft.parameters ∧
      m.userParameters = draft.userParameters := by
  rw [Draft.build] at h
  split at h
  · cases h
  rename_i name hname
  have htext : name.text = trimmed draft.title := by
    rw [Name.ofText?] at hname
    split at hname
    · cases hname
      rfl
    · cases hname
  split at h
  · cases h
  split at h
  · cases h
  split at h
  · cases h
  cases h
  exact ⟨htext, rfl, rfl, rfl, rfl, rfl, rfl⟩

/-! ## The migration of a section -/

namespace Block

variable {file : Path} {order : Nat} {block : Block} {m : Migration}

/-- What a section builds as the migration at a place. -/
def migration (file : Path) (order : Nat) (block : Block) : Except InputError Migration :=
  match block.draft file with
  | .error e => .error e
  | .ok draft => (MigrationFile.Section.draftAt ⟨draft, block.body⟩ file order).build

/-- The migration of a section at a place. Author, title and parameters are the header's, and the
body is what stands between this header and the next. -/
structure Gives (file : Path) (order : Nat) (block : Block) (m : Migration) : Prop where
  naturalOrder : m.naturalOrder = order
  path : m.path = file
  body : m.body = normalizedBody block.text
  header : ∃ author title rest draft,
    Header.split? (trim block.header) = some (author, title, rest) ∧
    Header.applyTokens file { author := String.ofList author, title := String.ofList title }
      (words rest) = .ok draft ∧
    m.author = String.ofList author ∧ m.name.text = String.ofList title ∧
    m.parameters = draft.parameters ∧ m.userParameters = draft.userParameters

theorem gives_of_migration (h : block.migration file order = .ok m) :
    block.Gives file order m := by
  rw [migration] at h
  split at h
  · cases h
  rename_i draft hdraft
  rw [Block.draft, Header.read, String.toList_ofList] at hdraft
  split at hdraft
  · cases hdraft
  rename_i author title rest hsplit
  obtain ⟨hname, hauthor, hpath, horder, hbody, hparameters, huser⟩ := Draft.of_build h
  obtain ⟨hauthor', htitle'⟩ := Header.applyTokens_names hdraft
  obtain ⟨hblank, hblank'⟩ := Header.not_blank_of_split? hsplit
  refine ⟨horder, hpath, hbody, author, title, rest, draft, hsplit, hdraft, ?_, ?_, hparameters,
    huser⟩
  · calc m.author = trimmed draft.author := hauthor
      _ = trimmed (String.ofList author) := by rw [hauthor']
      _ = String.ofList author := trimmed_ofList hblank
  · calc m.name.text = trimmed draft.title := hname
      _ = trimmed (String.ofList title) := by rw [htitle']
      _ = String.ofList title := trimmed_ofList hblank'

/-- All header lines can be read. -/
def HeadersRight (file : Path) (blocks : List Block) : Prop :=
  ∀ block ∈ blocks, ∃ draft, block.draft file = .ok draft

/-- Either all headers are right, and each section has its header's draft, or one is wrong. -/
theorem sections_cases (file : Path) (blocks : List Block) :
    (∃ found, sections file blocks = .ok found ∧ HeadersRight file blocks ∧
      List.Forall₂ (fun block s => block.draft file = .ok s.draft ∧ s.lines = block.body)
        blocks found) ∨
    ∃ block ∈ blocks, ∃ e, block.draft file = .error e ∧ sections file blocks = .error e := by
  induction blocks with
  | nil => exact .inl ⟨[], rfl, nofun, .nil⟩
  | cons block rest ih =>
    cases hdraft : block.draft file with
    | error e =>
      exact .inr ⟨block, List.mem_cons_self, e, hdraft, by rw [sections, hdraft]⟩
    | ok draft =>
      rcases ih with ⟨found, hfound, hright, hall⟩ | ⟨other, ho, e, he, herr⟩
      · refine .inl ⟨⟨draft, block.body⟩ :: found, ?_, ?_, .cons ⟨hdraft, rfl⟩ hall⟩
        · rw [sections, hdraft, hfound]
        · exact List.forall_mem_cons.mpr ⟨⟨draft, hdraft⟩, hright⟩
      · refine .inr ⟨other, List.mem_cons_of_mem block ho, e, he, ?_⟩
        rw [sections, hdraft, herr]

end Block

/-! ## Numbering -/

namespace MigrationFile

variable {file : Path} {content : String} {start : Nat}

/-- Sections at the places from `next` on all build, each its migration. -/
structure Numbered (file : Path) (next : Nat) (blocks : List Block)
    (migrations : List Migration) : Prop where
  length : migrations.length = blocks.length
  builds : ∀ i (block : Block) (m : Migration), blocks[i]? = some block →
    migrations[i]? = some m → block.migration file (next + i) = .ok m

/-- The section with index `k` is the first that does not build, with this error. -/
structure FailsAt (file : Path) (next : Nat) (blocks : List Block) (k : Nat) (e : InputError) :
    Prop where
  before : ∀ i < k, ∀ block : Block, blocks[i]? = some block →
    ∃ m, block.migration file (next + i) = .ok m
  fails : ∃ block, blocks[k]? = some block ∧ block.migration file (next + k) = .error e

theorem Numbered.cons {next : Nat} {block : Block} {blocks : List Block} {m : Migration}
    {migrations : List Migration} (h : Numbered file (next + 1) blocks migrations)
    (hm : block.migration file next = .ok m) :
    Numbered file next (block :: blocks) (m :: migrations) := by
  refine ⟨congrArg (· + 1) h.length, fun i b m' hb hm' => ?_⟩
  cases i with
  | zero =>
    cases hb
    cases hm'
    exact hm
  | succ i =>
    rw [Nat.add_comm i 1, ← Nat.add_assoc]
    exact h.builds i b m' hb hm'

theorem FailsAt.cons {next k : Nat} {block : Block} {blocks : List Block} {m : Migration}
    {e : InputError} (h : FailsAt file (next + 1) blocks k e)
    (hm : block.migration file next = .ok m) :
    FailsAt file next (block :: blocks) (k + 1) e := by
  obtain ⟨hbefore, failing, hk, he⟩ := h
  refine ⟨fun i hi b hb => ?_, failing, hk, ?_⟩
  · cases i with
    | zero =>
      cases hb
      exact ⟨m, hm⟩
    | succ i =>
      rw [Nat.add_comm i 1, ← Nat.add_assoc]
      exact hbefore i (by omega) b hb
  · rwa [Nat.add_comm k 1, ← Nat.add_assoc]

/-- The sections all build, and the counter counts them, or one is the first not to, and the
counter stops there. -/
theorem number_cases {blocks : List Block} {found : List Section}
    (h : List.Forall₂ (fun block s => block.draft file = .ok s.draft ∧ s.lines = block.body)
      blocks found) (next : Nat) :
    (∃ migrations, number file next found = (.ok migrations, next + blocks.length) ∧
      Numbered file next blocks migrations) ∨
    ∃ k e, number file next found = (.error e, next + k) ∧ FailsAt file next blocks k e := by
  induction h generalizing next with
  | nil => exact .inl ⟨[], rfl, rfl, nofun⟩
  | @cons block s blocks found hs _ ih =>
    have hbuild : block.migration file next = (s.draftAt file next).build := by
      rw [Block.migration, hs.1, ← hs.2]
    cases hm : (s.draftAt file next).build with
    | error e =>
      refine .inr ⟨0, e, ?_, nofun, block, rfl, ?_⟩
      · rw [number_cons, hm]
        rfl
      · rw [Nat.add_zero, hbuild, hm]
    | ok m =>
      rw [hm] at hbuild
      rcases ih (next + 1) with ⟨migrations, heq, hall⟩ | ⟨k, e, heq, hfails⟩
      · refine .inl ⟨m :: migrations, ?_, hall.cons hbuild⟩
        rw [number_cons, hm, heq, List.length_cons]
        exact Prod.ext rfl (by simp; omega)
      · refine .inr ⟨k + 1, e, ?_, hfails.cons hbuild⟩
        rw [number_cons, hm, heq]
        exact Prod.ext rfl (by simp; omega)

end MigrationFile

/-! ## Layouts -/

namespace LaidOut

variable {lines : List (List Char)} {blocks blocks' : List Block}

/-- A file is laid out when the lines before its first section are the file header and blank
ones. -/
theorem iff_outline : LaidOut lines blocks ↔ (outline lines).2 = blocks ∧
    ∃ mark, marks (outline lines).1 = [mark] ∧ lowerAscii mark = migrationFileHeader.toList := by
  constructor
  · rintro ⟨before, first, between, hlines, hbefore, hfirst, hbetween, hblocks⟩
    have hout : outline lines = (before ++ first :: between, blocks) := by
      refine outline_eq_iff.mpr ⟨by simpa using hlines, ?_, hblocks⟩
      intro line hl
      rcases List.mem_append.mp hl with hl | hl
      · exact opensSection_of_blank (hbefore line hl)
      rcases List.mem_cons.mp hl with rfl | hl
      · exact opensSection_of_isFileHeader hfirst
      · exact opensSection_of_blank (hbetween line hl)
    have hne : isBlankText first = false := by
      by_contra hblank
      rw [not_isFileHeader_of_blank (by simpa using hblank)] at hfirst
      cases hfirst
    rw [hout]
    refine ⟨rfl, trim first, ?_, of_decide_eq_true hfirst⟩
    rw [marks_append, marks_eq_nil_iff.mpr hbefore, marks_cons_of_not_blank hne,
      marks_eq_nil_iff.mpr hbetween]
    rfl
  · rintro ⟨rfl, mark, hmark, hlower⟩
    obtain ⟨hlines, -, hblocks⟩ := outline_spec lines
    -- the mark is that of the only line in front that is not blank
    rw [marks, List.map_eq_singleton_iff] at hmark
    obtain ⟨first, hfirst, rfl⟩ := hmark
    obtain ⟨before, between, hfront, hbefore, -, hbetween⟩ := List.filter_eq_cons_iff.mp hfirst
    rw [List.filter_eq_nil_iff] at hbetween
    refine ⟨before, first, between, ?_, ?_, decide_eq_true hlower, ?_, hblocks⟩
    · rw [hfront] at hlines
      simpa using hlines
    · simpa using hbefore
    · simpa using hbetween

theorem unique (h : LaidOut lines blocks) (h' : LaidOut lines blocks') : blocks = blocks' :=
  (iff_outline.mp h).1.symm.trans (iff_outline.mp h').1

end LaidOut

namespace MigrationFile

variable {file : Path} {content : String} {start : Nat}

theorem read_of_laidOut {blocks : List Block} (h : LaidOut (lines content.toList) blocks) :
    read file content start = match Block.sections file blocks with
      | .error e => (.error e, start)
      | .ok found => number file start found := by
  obtain ⟨hblocks, mark, hmark, hlower⟩ := LaidOut.iff_outline.mp h
  rw [read_eq, hmark, hblocks, readOf, if_pos hlower]
  rfl

/-- A file that is not laid out is refused, and the counter stays. -/
theorem read_of_not_laidOut (h : ¬ ∃ blocks, LaidOut (lines content.toList) blocks)
    (file : Path) (start : Nat) :
    ∃ problem, read file content start = (.error (.invalidChangelog file problem), start) := by
  rw [read_eq]
  cases hmarks : marks (outline (lines content.toList)).1 with
  | nil => exact ⟨_, rfl⟩
  | cons first rest =>
    rw [readOf]
    split
    · rename_i hlower
      cases rest with
      | nil => exact absurd ⟨_, LaidOut.iff_outline.mpr ⟨rfl, first, hmarks, hlower⟩⟩ h
      | cons line more => exact ⟨_, rfl⟩
    · exact ⟨_, rfl⟩

/-- The three ways in which the reading of a file that is laid out ends. -/
theorem read_cases {blocks : List Block} (h : LaidOut (lines content.toList) blocks)
    (file : Path) (start : Nat) :
    (∃ migrations, read file content start = (.ok migrations, start + blocks.length) ∧
      Block.HeadersRight file blocks ∧ Numbered file start blocks migrations) ∨
    (∃ e, read file content start = (.error e, start) ∧ ¬ Block.HeadersRight file blocks) ∨
    ∃ k e, read file content start = (.error e, start + k) ∧
      Block.HeadersRight file blocks ∧ FailsAt file start blocks k e := by
  rw [read_of_laidOut h]
  rcases Block.sections_cases file blocks with ⟨found, hfound, hright, hall⟩ |
    ⟨block, hb, e, he, herr⟩
  · rw [hfound]
    rcases number_cases hall start with ⟨migrations, heq, hnumbered⟩ | ⟨k, e, heq, hfails⟩
    · exact .inl ⟨migrations, heq, hright, hnumbered⟩
    · exact .inr (.inr ⟨k, e, heq, hright, hfails⟩)
  · refine .inr (.inl ⟨e, by rw [herr], fun hright => ?_⟩)
    obtain ⟨draft, hdraft⟩ := hright block hb
    rw [hdraft] at he
    cases he

/-- A file that is read is laid out, with headers that are right and sections that build. -/
theorem of_read {migrations : List Migration} {reached : Nat}
    (h : read file content start = (.ok migrations, reached)) :
    ∃ blocks, LaidOut (lines content.toList) blocks ∧ reached = start + blocks.length ∧
      Block.HeadersRight file blocks ∧ Numbered file start blocks migrations := by
  by_cases hlaid : ∃ blocks, LaidOut (lines content.toList) blocks
  · obtain ⟨blocks, hblocks⟩ := hlaid
    rcases read_cases hblocks file start with ⟨_, heq, hright, hnum⟩ | ⟨e, heq, -⟩ | ⟨k, e, heq, -⟩
    all_goals rw [heq] at h; cases h
    exact ⟨blocks, hblocks, rfl, hright, hnum⟩
  · obtain ⟨problem, heq⟩ := read_of_not_laidOut hlaid file start
    rw [heq] at h
    cases h

/-- Sections that all build do not fail. -/
theorem FailsAt.not_builds {next k : Nat} {blocks : List Block} {e : InputError}
    (h : FailsAt file next blocks k e) : ¬ ∀ i block, blocks[i]? = some block →
      ∃ m, Block.migration file (next + i) block = .ok m := by
  intro hall
  obtain ⟨block, hk, he⟩ := h.fails
  obtain ⟨m, hm⟩ := hall k block hk
  rw [hm] at he
  cases he

/-- There is one first section that does not build. -/
theorem FailsAt.unique {next k k' : Nat} {blocks : List Block} {e e' : InputError}
    (h : FailsAt file next blocks k e) (h' : FailsAt file next blocks k' e') :
    k = k' ∧ e = e' := by
  have hle : ∀ {k k' e e'}, FailsAt file next blocks k e → FailsAt file next blocks k' e' →
      k ≤ k' := by
    intro k k' e e' h h'
    by_contra hlt
    obtain ⟨block, hk, he⟩ := h'.fails
    obtain ⟨m, hm⟩ := h.before k' (by omega) block hk
    rw [hm] at he
    cases he
  obtain rfl : k = k' := Nat.le_antisymm (hle h h') (hle h' h)
  obtain ⟨block, hk, he⟩ := h.fails
  obtain ⟨block', hk', he'⟩ := h'.fails
  obtain rfl : block = block' := Option.some.inj (hk.symm.trans hk')
  exact ⟨rfl, Except.error.inj (he.symm.trans he')⟩

theorem Numbered.exists_migration {next i : Nat} {blocks : List Block}
    {migrations : List Migration} (h : Numbered file next blocks migrations) {block : Block}
    (hb : blocks[i]? = some block) : ∃ m, block.migration file (next + i) = .ok m := by
  have hi : i < migrations.length := by
    rw [h.length]
    exact (List.getElem?_eq_some_iff.mp hb).1
  exact ⟨migrations[i], h.builds i block _ hb (List.getElem?_eq_getElem hi)⟩

/-- What is read of a migration file. A file has one layout at most, and it is read exactly if it
has one, all its headers are right and all its sections build. Then each section gives one
migration, in the order of the file and numbered on from the start, and the counter has counted
them. A file without the layout or with a wrong header leaves the counter where it was, and the
first section that does not build leaves it at its own number. -/
theorem read_outcome (file : Path) (content : String) (start : Nat) :
    (∀ blocks blocks', LaidOut (lines content.toList) blocks →
      LaidOut (lines content.toList) blocks' → blocks = blocks') ∧
    ((∃ migrations, (read file content start).1 = .ok migrations) ↔
      ∃ blocks, LaidOut (lines content.toList) blocks ∧ Block.HeadersRight file blocks ∧
        ∀ i block, blocks[i]? = some block →
          ∃ m, Block.migration file (start + i) block = .ok m) ∧
    (∀ migrations reached, read file content start = (.ok migrations, reached) →
      ∃ blocks, LaidOut (lines content.toList) blocks ∧ reached = start + blocks.length ∧
        migrations.length = blocks.length ∧
        ∀ i block m, blocks[i]? = some block → migrations[i]? = some m →
          Block.Gives file (start + i) block m) ∧
    ((¬ ∃ blocks, LaidOut (lines content.toList) blocks) →
      ∃ problem, read file content start = (.error (.invalidChangelog file problem), start)) ∧
    ∀ blocks, LaidOut (lines content.toList) blocks →
      (¬ Block.HeadersRight file blocks → ∃ e, read file content start = (.error e, start)) ∧
      ∀ k e, Block.HeadersRight file blocks → FailsAt file start blocks k e →
        read file content start = (.error e, start + k) := by
  refine ⟨fun _ _ h h' => h.unique h', ⟨?_, ?_⟩, ?_, fun h => read_of_not_laidOut h file start, ?_⟩
  · rintro ⟨migrations, hok⟩
    obtain ⟨blocks, h, -, hright, hnum⟩ := of_read (Prod.ext hok rfl)
    exact ⟨blocks, h, hright, fun i block hb => hnum.exists_migration hb⟩
  · rintro ⟨blocks, h, hright, hbuilds⟩
    rcases read_cases h file start with ⟨migrations, heq, -⟩ | ⟨e, -, hwrong⟩ | ⟨k, e, -, -, hfails⟩
    · exact ⟨migrations, by rw [heq]⟩
    · exact absurd hright hwrong
    · exact absurd hbuilds hfails.not_builds
  · intro migrations reached hok
    obtain ⟨blocks, h, hreached, -, hnum⟩ := of_read hok
    exact ⟨blocks, h, hreached, hnum.length, fun i block m hb hm =>
      Block.gives_of_migration (hnum.builds i block m hb hm)⟩
  · intro blocks h
    refine ⟨fun hwrong => ?_, fun k e hright hfails => ?_⟩
    · rcases read_cases h file start with ⟨_, -, hright, -⟩ | ⟨e, heq, -⟩ | ⟨k, e, -, hright, -⟩
      · exact absurd hright hwrong
      · exact ⟨e, heq⟩
      · exact absurd hright hwrong
    · rcases read_cases h file start with ⟨_, -, -, hnum⟩ | ⟨e, -, hwrong⟩ |
        ⟨k', e', heq, -, hfails'⟩
      · exact absurd (fun i block hb => hnum.exists_migration hb) hfails.not_builds
      · exact absurd hright hwrong
      · obtain ⟨rfl, rfl⟩ := hfails.unique hfails'
        exact heq

end MigrationFile
end SchemaMigration
