import SchemaMigration.Changelog.MigrationFile
import SchemaMigration.Proofs.Text.Trim

/-!
# SchemaMigration.Proofs.Changelog.Outline

The outline of a migration file: the lines in front of the first section, and the sections as
blocks of lines. All that is read from a file is read from its outline, and of the front only the
lines that are not blank matter.

* `Block`, `outline`, `outline_eq_iff` : the one way to cut lines into a front and blocks.
* `marks` : what is left of lines where blanks do not count.
* `sections_eq`, `read_eq` : a file is read from its outline.
-/

namespace SchemaMigration

open Text

/-- A header line and the lines that follow it. -/
structure Block where
  header : List Char
  body : List (List Char)

namespace Block

def lines (block : Block) : List (List Char) := block.header :: block.body

/-- The first line of a block opens a section, and no other line of it does. -/
structure IsSection (block : Block) : Prop where
  opens : Header.opensSection block.header = true
  plain : ∀ line ∈ block.body, Header.opensSection line = false

/-- The body as text, without blanks at either end. -/
def text (block : Block) : String := String.ofList (trim (joinWith ['\n'] block.body))

/-- What the header says. -/
def draft (file : Path) (block : Block) : Except InputError Draft :=
  Header.read file (String.ofList (trim block.header))

/-- The sections of blocks. The first header that is wrong is the error. -/
def sections (file : Path) : List Block → Except InputError (List MigrationFile.Section)
  | [] => .ok []
  | block :: rest =>
    match block.draft file with
    | .error e => .error e
    | .ok draft =>
      match sections file rest with
      | .error e => .error e
      | .ok later => .ok (⟨draft, block.body⟩ :: later)

end Block

/-- The lines before the first header line, and a block for each header line. -/
def outline : List (List Char) → List (List Char) × List Block
  | [] => ([], [])
  | line :: rest =>
    if Header.opensSection line then ([], ⟨line, (outline rest).1⟩ :: (outline rest).2)
    else (line :: (outline rest).1, (outline rest).2)

/-- The lines that are not blank, without blanks at their ends. -/
def marks (lines : List (List Char)) : List (List Char) :=
  (lines.filter (!isBlankText ·)).map trim

/-! ## Lines by their trimmed text -/

section Lines

variable {line line' : List Char}

theorem opensSection_congr (h : trim line = trim line') :
    Header.opensSection line = Header.opensSection line' := by
  rw [Header.opensSection, Header.opensSection, h]

/-- A blank line opens no section. -/
theorem opensSection_of_blank (h : isBlankText line = true) :
    Header.opensSection line = false := by
  rw [Header.opensSection, trim_eq_nil_iff.mpr h]
  decide

/-- The file header opens no section: the keyword begins otherwise. -/
theorem opensSection_of_isFileHeader
    (h : MigrationFile.isFileHeader migrationFileHeader line = true) :
    Header.opensSection line = false := by
  rw [MigrationFile.isFileHeader, decide_eq_true_eq] at h
  rw [Header.opensSection]
  cases hk : dropStart? Header.keyword (trim line) with
  | none => rfl
  | some rest =>
    have hthird : (lowerAscii (Header.keyword ++ rest))[2]? = some 'm' := by
      rw [lowerAscii, List.map_append, List.getElem?_append_left (by decide)]
      decide
    rw [← dropStart?_eq_some hk, h] at hthird
    exact absurd hthird (by decide)

theorem not_isFileHeader_of_blank (h : isBlankText line = true) :
    MigrationFile.isFileHeader migrationFileHeader line = false := by
  rw [MigrationFile.isFileHeader, trim_eq_nil_iff.mpr h]
  decide

end Lines

/-! ## Marks -/

section Marks

variable {lines : List (List Char)}

theorem marks_append (a b : List (List Char)) : marks (a ++ b) = marks a ++ marks b := by
  simp [marks]

theorem marks_cons_of_blank {line : List Char} (h : isBlankText line = true) :
    marks (line :: lines) = marks lines := by
  simp [marks, h]

theorem marks_cons_of_not_blank {line : List Char} (h : isBlankText line = false) :
    marks (line :: lines) = trim line :: marks lines := by
  simp [marks, h]

theorem marks_eq_nil_iff : marks lines = [] ↔ ∀ line ∈ lines, isBlankText line = true := by
  simp [marks]

end Marks

/-! ## Outlines -/

section Outline

variable {lines front : List (List Char)} {blocks : List Block}

theorem outline_cons_of_opens {line : List Char} (h : Header.opensSection line = true) :
    outline (line :: lines) = ([], ⟨line, (outline lines).1⟩ :: (outline lines).2) := by
  rw [outline, if_pos h]

theorem outline_cons_of_plain {line : List Char} (h : Header.opensSection line = false) :
    outline (line :: lines) = (line :: (outline lines).1, (outline lines).2) := by
  rw [outline, if_neg (by simp [h])]

theorem outline_append_of_plain (h : ∀ line ∈ front, Header.opensSection line = false)
    (lines : List (List Char)) :
    outline (front ++ lines) = (front ++ (outline lines).1, (outline lines).2) := by
  induction front with
  | nil => rfl
  | cons line rest ih =>
    have hrest := ih fun l hl => h l (List.mem_cons_of_mem line hl)
    rw [List.cons_append, outline_cons_of_plain (h line List.mem_cons_self), hrest]
    rfl

theorem outline_flatMap (h : ∀ block ∈ blocks, block.IsSection) :
    outline (blocks.flatMap Block.lines) = ([], blocks) := by
  induction blocks with
  | nil => rfl
  | cons block rest ih =>
    have hblock := h block List.mem_cons_self
    have hrest := ih fun b hb => h b (List.mem_cons_of_mem block hb)
    rw [List.flatMap_cons, Block.lines, List.cons_append, outline_cons_of_opens hblock.opens,
      outline_append_of_plain hblock.plain, hrest, List.append_nil]

theorem outline_spec (lines : List (List Char)) :
    lines = (outline lines).1 ++ (outline lines).2.flatMap Block.lines ∧
      (∀ line ∈ (outline lines).1, Header.opensSection line = false) ∧
      ∀ block ∈ (outline lines).2, block.IsSection := by
  induction lines with
  | nil => exact ⟨rfl, nofun, nofun⟩
  | cons line rest ih =>
    obtain ⟨hlines, hfront, hblocks⟩ := ih
    by_cases hopens : Header.opensSection line = true
    · rw [outline_cons_of_opens hopens]
      refine ⟨?_, nofun, ?_⟩
      · rw [List.nil_append, List.flatMap_cons, Block.lines, List.cons_append, ← hlines]
      · intro block hb
        rcases List.mem_cons.mp hb with rfl | hb
        · exact ⟨hopens, hfront⟩
        · exact hblocks block hb
    · have hplain : Header.opensSection line = false := by simpa using hopens
      rw [outline_cons_of_plain hplain]
      refine ⟨?_, ?_, hblocks⟩
      · rw [List.cons_append, ← hlines]
      · intro l hl
        rcases List.mem_cons.mp hl with rfl | hl
        · exact hplain
        · exact hfront l hl

/-- Lines are cut into a front and blocks in one way. -/
theorem outline_eq_iff : outline lines = (front, blocks) ↔
    lines = front ++ blocks.flatMap Block.lines ∧
      (∀ line ∈ front, Header.opensSection line = false) ∧ ∀ block ∈ blocks, block.IsSection := by
  refine ⟨fun h => ?_, ?_⟩
  · have hspec := outline_spec lines
    rwa [h] at hspec
  · rintro ⟨rfl, hfront, hblocks⟩
    rw [outline_append_of_plain hfront, outline_flatMap hblocks, List.append_nil]

theorem outline_takeWhile (lines : List (List Char)) :
    (outline lines).1 = lines.takeWhile (!Header.opensSection ·) ∧
      outline (lines.dropWhile (!Header.opensSection ·)) = ([], (outline lines).2) := by
  induction lines with
  | nil => exact ⟨rfl, rfl⟩
  | cons line rest ih =>
    by_cases hopens : Header.opensSection line = true
    · rw [List.takeWhile_cons_of_neg (by simp [hopens]),
        List.dropWhile_cons_of_neg (by simp [hopens]), outline_cons_of_opens hopens]
      exact ⟨rfl, rfl⟩
    · rw [List.takeWhile_cons_of_pos (by simp [hopens]),
        List.dropWhile_cons_of_pos (by simp [hopens]),
        outline_cons_of_plain (by simpa using hopens)]
      exact ⟨congrArg (line :: ·) ih.1, ih.2⟩

end Outline

/-! ## Reading from the outline -/

namespace MigrationFile

variable {file : Path}

theorem number_cons (file : Path) (next : Nat) (s : Section) (rest : List Section) :
    number file next (s :: rest) = match (s.draftAt file next).build with
      | .error e => (.error e, next)
      | .ok migration =>
        match number file (next + 1) rest with
        | (.error e, reached) => (.error e, reached)
        | (.ok migrations, reached) => (.ok (migration :: migrations), reached) := by
  refine (number.eq_2 file next s rest).trans ?_
  cases (s.draftAt file next).build with
  | error e => rfl
  | ok m => rfl

/-- Before the first section nothing may stand; the sections are those of the blocks. -/
def sectionsOf (file : Path) (front : List (List Char)) (blocks : List Block) :
    Except InputError (List Section) :=
  match front with
  | [] => Block.sections file blocks
  | line :: _ => .error (.invalidChangelog file (.contentBeforeHeader (String.ofList line)))

theorem sections_eq (lines : List (List Char)) : sections file lines =
    sectionsOf file (marks (outline lines).1) (outline lines).2 := by
  fun_induction sections file lines with
  | case1 => rfl
  | case2 line rest hopens e hdraft =>
    rw [outline_cons_of_opens hopens]
    simp [marks, sectionsOf, Block.sections, Block.draft, hdraft]
  | case3 line rest hopens draft hdraft e hlater ih =>
    rw [hlater, (outline_takeWhile rest).2] at ih
    have hrest : Block.sections file (outline rest).2 = .error e := ih.symm
    rw [outline_cons_of_opens hopens]
    simp [marks, sectionsOf, Block.sections, Block.draft, hdraft, hrest]
  | case4 line rest hopens draft hdraft later hlater ih =>
    rw [hlater, (outline_takeWhile rest).2] at ih
    have hrest : Block.sections file (outline rest).2 = .ok later := ih.symm
    rw [outline_cons_of_opens hopens, (outline_takeWhile rest).1]
    simp [marks, sectionsOf, Block.sections, Block.draft, hdraft, hrest]
  | case5 line rest hopens hblank ih =>
    rw [outline_cons_of_plain (by simpa using hopens), marks_cons_of_blank hblank]
    exact ih
  | case6 line rest hopens hblank =>
    rw [outline_cons_of_plain (by simpa using hopens),
      marks_cons_of_not_blank (by simpa using hblank)]
    rfl

/-- What is read of a file whose front has some marks and whose sections are some blocks. -/
def readOf (file : Path) (front : List (List Char)) (blocks : List Block) (next : Nat) :
    Except InputError (List Migration) × Nat :=
  match front with
  | [] => (.error (.invalidChangelog file .noFileHeader), next)
  | first :: rest =>
    if lowerAscii first = migrationFileHeader.toList then
      match sectionsOf file rest blocks with
      | .error e => (.error e, next)
      | .ok found => number file next found
    else (.error (.invalidChangelog file .noFileHeader), next)

/-- A file is read from the marks before its first section and from its blocks. -/
theorem read_eq (file : Path) (content : String) (next : Nat) :
    read file content next = readOf file (marks (outline (lines content.toList)).1)
      (outline (lines content.toList)).2 next := by
  rw [read]
  have hsplit := List.takeWhile_append_dropWhile (p := isBlankText) (l := lines content.toList)
  have hblank : ∀ line ∈ (lines content.toList).takeWhile isBlankText,
      isBlankText line = true := fun _ => List.mem_takeWhile_imp
  generalize (lines content.toList).takeWhile isBlankText = before at hsplit hblank
  have hbefore : marks before = [] := marks_eq_nil_iff.mpr hblank
  rw [← hsplit, outline_append_of_plain fun line hl => opensSection_of_blank (hblank line hl),
    marks_append, hbefore, List.nil_append, hsplit]
  cases hfirst : (lines content.toList).dropWhile isBlankText with
  | nil => rfl
  | cons first rest =>
    have hne : isBlankText first = false := by
      have hhead := List.head?_dropWhile_not isBlankText (lines content.toList)
      rw [hfirst] at hhead
      simpa using hhead
    by_cases hheader : isFileHeader migrationFileHeader first = true
    · have hlower : lowerAscii (trim first) = migrationFileHeader.toList :=
        of_decide_eq_true hheader
      rw [outline_cons_of_plain (opensSection_of_isFileHeader hheader),
        marks_cons_of_not_blank hne, readOf, if_pos hlower, ← sections_eq]
      cases hsections : sections file rest with
      | error e => simp only [hheader, if_true, hsections]
      | ok found => simp only [hheader, if_true, hsections]
    · have hlower : lowerAscii (trim first) ≠ migrationFileHeader.toList := fun h =>
        hheader (decide_eq_true h)
      by_cases hopens : Header.opensSection first = true
      · rw [outline_cons_of_opens hopens]
        simp [marks, readOf, hheader]
      · rw [outline_cons_of_plain (by simpa using hopens), marks_cons_of_not_blank hne]
        simp [readOf, hheader, hlower]

end MigrationFile
end SchemaMigration
