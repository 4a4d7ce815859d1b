import Mathlib.Data.List.Forall2
import Mathlib.Logic.Relation
import SchemaMigration.Cycle.Plan
import SchemaMigration.Proofs.Changelog.Outline
import SchemaMigration.Proofs.Text.Lines

/-!
# SchemaMigration.Proofs.Changelog.Relayout

The layout of a migration file does not matter: carriage returns before the line feeds, blank lines
around the headers and before the first section, and blanks at the end of the file.

Of the outline of a file three things count: the marks of its front, the trimmed header lines and
the trimmed bodies. `AlikeOutlines` says more of the front, since the front of a rest becomes a body
when a header line is put before it; so it is kept by any lines that both files begin with
(`AlikeOutlines.append`).

* `Relaid` : the edits.
* `Block.Alike`, `readOf_congr` : what is read depends on nothing else.
* `outlines_congr` : no edit changes what counts.
* `read_relaid` : so the same is read, and with it the same status.
-/

namespace SchemaMigration

open Text

/-- Where blank lines may be put between the lines of a file. -/
inductive BlankPlace (before after : List (List Char)) : Prop where
  | inFront (h : ∀ line ∈ before, Header.opensSection line = false)
  | afterHeader {front : List (List Char)} {line : List Char} (h : before = front ++ [line])
    (hopens : Header.opensSection line = true)
  | beforeHeader {rest : List (List Char)} {line : List Char} (h : after = line :: rest)
    (hopens : Header.opensSection line = true)

/-- A change of the layout of a file. -/
inductive Relaid : List Char → List Char → Prop where
  | returns {text : List Char} (h : '\r' ∉ text) : Relaid text (withReturns text)
  | blankLines {before blanks after : List Char} (hbefore : Ended before) (hended : Ended blanks)
    (hblank : isBlankText blanks = true) (place : BlankPlace (lines before) (lines after)) :
    Relaid (before ++ after) (before ++ blanks ++ after)
  | atEnd {text blanks : List Char} (hblank : isBlankText blanks = true) :
    Relaid text (text ++ blanks)

/-! ## What is read from like blocks -/

/-- Blocks with one trimmed header line and one trimmed body. -/
structure Block.Alike (a b : Block) : Prop where
  header : trim a.header = trim b.header
  body : trim (joinWith ['\n'] a.body) = trim (joinWith ['\n'] b.body)

namespace MigrationFile

variable {file : Path} {blocks blocks' : List Block}

/-- Sections that build the same migration at any place. -/
def Section.Alike (s s' : Section) : Prop :=
  ∀ file order, s.draftAt file order = s'.draftAt file order

theorem sections_congr (h : List.Forall₂ Block.Alike blocks blocks') (file : Path) :
    (∃ e, Block.sections file blocks = .error e ∧ Block.sections file blocks' = .error e) ∨
    ∃ found found', Block.sections file blocks = .ok found ∧
      Block.sections file blocks' = .ok found' ∧ List.Forall₂ Section.Alike found found' := by
  induction h with
  | nil => exact .inr ⟨[], [], rfl, rfl, .nil⟩
  | @cons block block' rest rest' hb _ ih =>
    have hdraft : block.draft file = block'.draft file := by
      rw [Block.draft, Block.draft, hb.header]
    rw [Block.sections, Block.sections, ← hdraft]
    cases block.draft file with
    | error e => exact .inl ⟨e, rfl, rfl⟩
    | ok draft =>
      rcases ih with ⟨e, herr, herr'⟩ | ⟨found, found', hok, hok', hall⟩
      · rw [herr, herr']
        exact .inl ⟨e, rfl, rfl⟩
      · rw [hok, hok']
        refine .inr ⟨_, _, rfl, rfl, .cons (fun file order => ?_) hall⟩
        rw [Section.draftAt, Section.draftAt, hb.body]

theorem number_congr {found found' : List Section} (h : List.Forall₂ Section.Alike found found')
    (next : Nat) : number file next found = number file next found' := by
  induction h generalizing next with
  | nil => rfl
  | cons hs _ ih =>
    rw [number_cons, number_cons, hs, ih (next + 1)]

/-- A file is read from the marks of its front and from its blocks up to likeness. -/
theorem readOf_congr (h : List.Forall₂ Block.Alike blocks blocks') (front : List (List Char))
    (next : Nat) : readOf file front blocks next = readOf file front blocks' next := by
  cases front with
  | nil => rfl
  | cons first rest =>
    rw [readOf, readOf]
    split
    · cases rest with
      | cons line more => rfl
      | nil =>
        rw [sectionsOf, sectionsOf]
        rcases sections_congr h file with ⟨e, herr, herr'⟩ | ⟨found, found', hok, hok', hall⟩
        · rw [herr, herr']
        · rw [hok, hok']
          exact number_congr hall next
    · rfl

end MigrationFile

/-! ## Like outlines -/

/-- Outlines with like blocks, whose fronts have one text up to blanks at its end and the same
marks. -/
structure AlikeOutlines (a b : List (List Char) × List Block) : Prop where
  text : trimEnd (joinWith ['\n'] a.1) = trimEnd (joinWith ['\n'] b.1)
  marks : marks a.1 = marks b.1
  blocks : List.Forall₂ Block.Alike a.2 b.2

theorem Block.Alike.refl (block : Block) : block.Alike block := ⟨rfl, rfl⟩

theorem forall₂_alike_refl (blocks : List Block) : List.Forall₂ Block.Alike blocks blocks :=
  List.forall₂_same.mpr fun block _ => .refl block

theorem marks_cons_congr {line line' : List Char} {a b : List (List Char)}
    (htrim : trim line = trim line') (h : marks a = marks b) :
    marks (line :: a) = marks (line' :: b) := by
  have hblank := isBlankText_congr htrim
  by_cases hl : isBlankText line = true
  · rw [marks_cons_of_blank hl, marks_cons_of_blank (hblank ▸ hl), h]
  · rw [Bool.not_eq_true] at hl
    rw [marks_cons_of_not_blank hl, marks_cons_of_not_blank (hblank ▸ hl), h, htrim]

namespace AlikeOutlines

variable {lines lines' : List (List Char)}

/-- Whatever line both files begin with, as a header it takes the fronts for bodies, and otherwise
it joins the fronts. -/
theorem cons (h : AlikeOutlines (outline lines) (outline lines')) (line : List Char) :
    AlikeOutlines (outline (line :: lines)) (outline (line :: lines')) := by
  by_cases hopens : Header.opensSection line = true
  · rw [outline_cons_of_opens hopens, outline_cons_of_opens hopens]
    exact ⟨rfl, rfl, .cons ⟨rfl, trim_eq_of_trimEnd_eq h.text⟩ h.blocks⟩
  · have hplain : Header.opensSection line = false := by simpa using hopens
    rw [outline_cons_of_plain hplain, outline_cons_of_plain hplain]
    refine ⟨?_, marks_cons_congr rfl h.marks, h.blocks⟩
    have hblank : isBlankText (joinWith ['\n'] (outline lines).1) =
        isBlankText (joinWith ['\n'] (outline lines').1) := by
      rw [Bool.eq_iff_iff, ← trimEnd_eq_nil_iff, ← trimEnd_eq_nil_iff, h.text]
    rw [trimEnd_joinWith_cons, trimEnd_joinWith_cons, h.text, hblank]

theorem append (h : AlikeOutlines (outline lines) (outline lines')) (front : List (List Char)) :
    AlikeOutlines (outline (front ++ lines)) (outline (front ++ lines')) := by
  induction front with
  | nil => exact h
  | cons line rest ih => exact ih.cons line

end AlikeOutlines

section Edits

variable {blanks : List (List Char)} (hb : ∀ line ∈ blanks, isBlankText line = true)
include hb

theorem outline_blank_append (rest : List (List Char)) :
    outline (blanks ++ rest) = (blanks ++ (outline rest).1, (outline rest).2) :=
  outline_append_of_plain (fun line hl => opensSection_of_blank (hb line hl)) rest

theorem alike_beforeHeader {line : List Char} (hopens : Header.opensSection line = true)
    (rest : List (List Char)) :
    AlikeOutlines (outline (line :: rest)) (outline (blanks ++ line :: rest)) := by
  rw [outline_blank_append hb, outline_cons_of_opens hopens, List.append_nil]
  refine ⟨?_, (marks_eq_nil_iff.mpr hb).symm, forall₂_alike_refl _⟩
  exact (trimEnd_eq_nil_iff.mpr (isBlankText_joinWith hb)).symm

theorem alike_afterHeader {line : List Char} (hopens : Header.opensSection line = true)
    (rest : List (List Char)) :
    AlikeOutlines (outline (line :: rest)) (outline (line :: (blanks ++ rest))) := by
  rw [outline_cons_of_opens hopens, outline_cons_of_opens hopens, outline_blank_append hb]
  exact ⟨rfl, rfl, .cons ⟨rfl, (trim_joinWith_blank_append hb _).symm⟩ (forall₂_alike_refl _)⟩

end Edits

theorem alike_tailExtended {tail tail' : List (List Char)} (h : TailExtended tail tail') :
    AlikeOutlines (outline tail) (outline tail') := by
  cases h with
  | more hb =>
    rw [← List.append_nil tail', outline_blank_append hb]
    refine ⟨?_, ?_, .nil⟩
    · exact (trimEnd_eq_nil_iff.mpr (isBlankText_joinWith (by simpa [outline] using hb))).symm
    · exact (marks_eq_nil_iff.mpr (by simpa [outline] using hb)).symm
  | @last line line' after hline hb =>
    have htrim : trim line' = trim line := trim_eq_of_trimEnd_eq hline
    have hafter : outline after = (after, []) := by
      simpa [outline] using outline_blank_append hb []
    by_cases hopens : Header.opensSection line = true
    · have hopens' : Header.opensSection line' = true := by
        rw [opensSection_congr htrim, hopens]
      rw [outline_cons_of_opens hopens, outline_cons_of_opens hopens', hafter]
      refine ⟨rfl, rfl, .cons ⟨htrim.symm, ?_⟩ .nil⟩
      rw [trim_eq_nil_iff.mpr (isBlankText_joinWith hb)]
      rfl
    · have hplain : Header.opensSection line = false := by simpa using hopens
      have hplain' : Header.opensSection line' = false := by
        rw [opensSection_congr htrim, hplain]
      rw [outline_cons_of_plain hplain, outline_cons_of_plain hplain', hafter]
      refine ⟨?_, marks_cons_congr htrim.symm (marks_eq_nil_iff.mpr hb).symm, .nil⟩
      have htext : trimEnd (joinWith ['\n'] (line' :: after)) = trimEnd line' := by
        rw [trimEnd_joinWith_cons, if_pos (isBlankText_joinWith hb)]
      exact hline.symm.trans htext.symm

/-- No edit changes the marks of the front, and blocks become blocks like them. -/
theorem outlines_congr {text text' : List Char} (h : Relaid text text') :
    marks (outline (lines text)).1 = marks (outline (lines text')).1 ∧
      List.Forall₂ Block.Alike (outline (lines text)).2 (outline (lines text')).2 := by
  cases h with
  | returns h =>
    rw [lines_withReturns h]
    exact ⟨rfl, forall₂_alike_refl _⟩
  | @blankLines before blanks after hbefore hended hblank place =>
    have hb : ∀ line ∈ lines blanks, isBlankText line = true := fun _ =>
      isBlankText_of_mem_lines hblank
    rw [List.append_assoc, lines_append hbefore, lines_append hbefore, lines_append hended]
    cases place with
    | inFront hplain =>
      rw [outline_append_of_plain hplain, outline_append_of_plain hplain, outline_blank_append hb,
        marks_append, marks_append, marks_append, marks_eq_nil_iff.mpr hb]
      exact ⟨rfl, forall₂_alike_refl _⟩
    | @afterHeader front line hline hopens =>
      rw [hline, List.append_assoc, List.append_assoc]
      have halike := (alike_afterHeader hb hopens (lines after)).append front
      exact ⟨halike.marks, halike.blocks⟩
    | @beforeHeader rest line hline hopens =>
      rw [hline]
      have halike := (alike_beforeHeader hb hopens rest).append (lines before)
      exact ⟨halike.marks, halike.blocks⟩
  | atEnd hblank =>
    obtain ⟨front, tail, tail', htext, htext', htail⟩ := lines_append_blank hblank text
    rw [htext, htext']
    have halike := (alike_tailExtended htail).append front
    exact ⟨halike.marks, halike.blocks⟩

namespace MigrationFile

theorem read_of_relaid {content content' : String}
    (h : Relaid content.toList content'.toList) (file : Path) (start : Nat) :
    read file content start = read file content' start := by
  obtain ⟨hmarks, hblocks⟩ := outlines_congr h
  rw [read_eq, read_eq, hmarks]
  exact readOf_congr hblocks _ start

/-- However often the layout of a file is changed, the same is read of it: the migrations or the
error, and the counter. So whatever entry of the log a migration has, an applied one is not changed
by it. -/
theorem read_relaid {content content' : String}
    (h : Relation.ReflTransGen Relaid content.toList content'.toList) (file : Path) (start : Nat) :
    read file content' start = read file content start ∧
    ∀ migrations migrations' reached reached',
      read file content start = (.ok migrations, reached) →
      read file content' start = (.ok migrations', reached') →
      ∀ (i : Nat) (m m' : Migration), migrations[i]? = some m → migrations'[i]? = some m' →
        m'.name = m.name ∧ m'.hash = m.hash ∧
        ∀ entry, RunStatus.of m entry = .applied → RunStatus.of m' entry = .applied := by
  have hsame : read file content' start = read file content start := by
    generalize htext' : content'.toList = text' at h
    induction h generalizing content' with
    | refl => rw [String.toList_inj.mp htext']
    | @tail text between _ hstep ih =>
      have hprev : read file (String.ofList text) start = read file content start :=
        ih String.toList_ofList
      rw [← hprev]
      refine (read_of_relaid ?_ file start).symm
      rwa [String.toList_ofList, htext']
  refine ⟨hsame, fun migrations migrations' reached reached' hok hok' i m m' hm hm' => ?_⟩
  rw [hsame, hok] at hok'
  cases hok'
  obtain rfl : m = m' := Option.some.inj (hm.symm.trans hm')
  exact ⟨rfl, rfl, fun _ happlied => happlied⟩

/-- A file with one migration, and the same with carriage returns, a blank line after the header of
the migration and another at the end. -/
theorem read_relaid_returns :
    read ⟨"books.sql"⟩ "--ordo-migration-file\r\n--migration a:b\r\n \t\nc;\n\n" 0 =
      read ⟨"books.sql"⟩ "--ordo-migration-file\n--migration a:b\nc;" 0 := by
  let front := "--ordo-migration-file\r\n--migration a:b\r\n".toList
  let body := "c;".toList
  have hlines : lines front =
      ["--ordo-migration-file".toList] ++ ["--migration a:b".toList] := by decide
  have hreturns : Relaid "--ordo-migration-file\n--migration a:b\nc;".toList
      (front ++ body) := .returns (by decide)
  have hblank : Relaid (front ++ body) (front ++ " \t\n".toList ++ body) :=
    .blankLines (.inr (by decide)) (.inr (by decide)) (by decide) (.afterHeader hlines (by decide))
  have hend : Relaid (front ++ " \t\n".toList ++ body)
      "--ordo-migration-file\r\n--migration a:b\r\n \t\nc;\n\n".toList := by
    have hblanks : isBlankText "\n\n".toList = true := by decide
    exact .atEnd hblanks
  have hedits := ((Relation.ReflTransGen.single hreturns).tail hblank).tail hend
  exact (read_relaid hedits ⟨"books.sql"⟩ 0).1

end MigrationFile
end SchemaMigration
