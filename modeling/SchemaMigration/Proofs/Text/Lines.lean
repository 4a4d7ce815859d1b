import SchemaMigration.Proofs.Text.Trim

/-!
# SchemaMigration.Proofs.Text.Lines

How the lines of a text change with the text.

* `lines_append` : the lines of two texts one after the other.
* `isBlankText_of_mem_lines` : a blank text has blank lines only.
* `withReturns`, `lines_withReturns` : carriage returns before the line feeds do not show.
* `TailExtended`, `lines_append_blank` : blanks at the end of a text come after its last line.
-/

namespace SchemaMigration
namespace Text

variable {text blanks : List Char}

/-! ## Cutting -/

theorem splitOn_cons_of_ne {sep c : Char} (h : c ≠ sep) (text : List Char) :
    ∃ piece pieces, splitOn sep text = piece :: pieces ∧
      splitOn sep (c :: text) = (c :: piece) :: pieces := by
  cases hs : splitOn sep text with
  | nil => exact absurd hs (splitOn_ne_nil sep text)
  | cons piece pieces => exact ⟨piece, pieces, rfl, by simp [splitOn, h, hs]⟩

theorem splitOn_append (sep : Char) (a b : List Char) :
    splitOn sep (a ++ sep :: b) = splitOn sep a ++ splitOn sep b := by
  induction a with
  | nil => simp [splitOn]
  | cons c a ih =>
    by_cases hc : c = sep
    · simp [splitOn, hc, ih]
    · obtain ⟨piece, pieces, ha, hca⟩ := splitOn_cons_of_ne hc a
      simp [splitOn, hc, ih, ha]

theorem splitOn_of_not_mem {sep : Char} (h : sep ∉ text) : splitOn sep text = [text] := by
  induction text with
  | nil => rfl
  | cons c rest ih =>
    rw [List.mem_cons, not_or] at h
    simp [splitOn, Ne.symm h.1, ih h.2]

/-- Pieces that are joined are cut apart again. -/
theorem splitOn_joinWith {sep : Char} {pieces : List (List Char)} (hne : pieces ≠ [])
    (h : ∀ piece ∈ pieces, sep ∉ piece) : splitOn sep (joinWith [sep] pieces) = pieces := by
  induction pieces with
  | nil => exact absurd rfl hne
  | cons piece rest ih =>
    obtain ⟨hpiece, hrest⟩ := List.forall_mem_cons.mp h
    cases rest with
    | nil => exact splitOn_of_not_mem hpiece
    | cons next more =>
      rw [joinWith_cons (List.cons_ne_nil next more), List.append_assoc, List.singleton_append,
        splitOn_append, splitOn_of_not_mem hpiece, ih (List.cons_ne_nil next more) hrest]
      rfl

theorem not_mem_of_mem_splitOn {sep : Char} {piece : List Char} (h : piece ∈ splitOn sep text) :
    sep ∉ piece := by
  induction text generalizing piece with
  | nil =>
    obtain rfl := List.mem_singleton.mp h
    exact List.not_mem_nil
  | cons c rest ih =>
    by_cases hc : c = sep
    · rw [splitOn, if_pos hc] at h
      rcases List.mem_cons.mp h with rfl | h
      · exact List.not_mem_nil
      · exact ih h
    · obtain ⟨first, pieces, hrest, hcons⟩ := splitOn_cons_of_ne hc rest
      rw [hrest] at ih
      rw [hcons] at h
      rcases List.mem_cons.mp h with rfl | h
      · rw [List.mem_cons, not_or]
        exact ⟨Ne.symm hc, ih List.mem_cons_self⟩
      · exact ih (List.mem_cons_of_mem first h)

theorem mem_of_mem_splitOn {sep c : Char} {piece : List Char} (hp : piece ∈ splitOn sep text)
    (hc : c ∈ piece) : c ∈ text := by
  induction text generalizing piece with
  | nil =>
    obtain rfl := List.mem_singleton.mp hp
    cases hc
  | cons d rest ih =>
    by_cases hd : d = sep
    · rw [splitOn, if_pos hd] at hp
      rcases List.mem_cons.mp hp with rfl | hp
      · cases hc
      · exact List.mem_cons_of_mem d (ih hp hc)
    · obtain ⟨first, pieces, hrest, hcons⟩ := splitOn_cons_of_ne hd rest
      rw [hcons] at hp
      rcases List.mem_cons.mp hp with rfl | hp
      · rcases List.mem_cons.mp hc with rfl | hc
        · exact List.mem_cons_self
        · exact List.mem_cons_of_mem d (ih (hrest ▸ List.mem_cons_self) hc)
      · exact List.mem_cons_of_mem d (ih (hrest ▸ List.mem_cons_of_mem first hp) hc)

/-! ## Carriage returns -/

theorem dropReturn_append (line : List Char) : dropReturn (line ++ ['\r']) = line := by
  simp [dropReturn]

/-- At most a carriage return at the end is dropped. -/
theorem eq_dropReturn_append (line : List Char) :
    ∃ blanks, isBlankText blanks = true ∧ line = dropReturn line ++ blanks := by
  rw [dropReturn]
  split
  · rename_i hlast
    obtain ⟨front, hfront⟩ := List.getLast?_eq_some_iff.mp hlast
    refine ⟨['\r'], by decide, ?_⟩
    rw [hfront, List.dropLast_concat]
  · exact ⟨[], rfl, (List.append_nil line).symm⟩

theorem dropReturn_of_not_mem {line : List Char} (h : '\r' ∉ line) : dropReturn line = line := by
  rw [dropReturn]
  split
  · rename_i hlast
    exact absurd (List.mem_of_getLast? hlast) h
  · rfl

/-! ## Lines -/

theorem lines_eq_of_not_mem (h : '\n' ∉ text) :
    lines text = if text.isEmpty then [] else [text] := by
  rw [lines, splitOn_of_not_mem h]
  rfl

/-- A line feed ends the lines before it. -/
theorem lines_append_feed (a b : List Char) :
    lines (a ++ '\n' :: b) = (splitOn '\n' a).map dropReturn ++ lines b := by
  have hb := splitOn_ne_nil '\n' b
  have hlast : (splitOn '\n' a ++ splitOn '\n' b).getLast? = (splitOn '\n' b).getLast? := by
    rw [List.getLast?_append, List.getLast?_eq_some_getLast hb, Option.some_or]
  rw [lines, lines, splitOn_append, hlast, List.dropLast_append_of_ne_nil hb, List.map_append,
    List.append_assoc]

/-- An empty text or one that ends in a line feed. -/
def Ended (text : List Char) : Prop := text = [] ∨ text.getLast? = some '\n'

theorem lines_append {a : List Char} (h : Ended a) (b : List Char) :
    lines (a ++ b) = lines a ++ lines b := by
  rcases h with rfl | h
  · rfl
  · obtain ⟨front, rfl⟩ := List.getLast?_eq_some_iff.mp h
    rw [List.append_assoc, List.singleton_append, lines_append_feed, lines_append_feed]
    simp [lines, splitOn]

/-- Every text is what its last line feed ends, and one line without a line feed. -/
theorem exists_ended_append (text : List Char) :
    ∃ front last, text = front ++ last ∧ Ended front ∧ '\n' ∉ last := by
  induction text with
  | nil => exact ⟨[], [], rfl, .inl rfl, List.not_mem_nil⟩
  | cons c rest ih =>
    obtain ⟨front, last, rfl, hfront, hlast⟩ := ih
    rcases hfront with rfl | hfront
    · by_cases hc : c = '\n'
      · exact ⟨[c], last, rfl, .inr (by simp [hc]), hlast⟩
      · exact ⟨[], c :: last, rfl, .inl rfl, by simp [Ne.symm hc, hlast]⟩
    · refine ⟨c :: front, last, rfl, .inr ?_, hlast⟩
      obtain ⟨before, rfl⟩ := List.getLast?_eq_some_iff.mp hfront
      rw [← List.cons_append, List.getLast?_concat]

theorem mem_of_mem_lines {line : List Char} {c : Char} (hl : line ∈ lines text) (hc : c ∈ line) :
    c ∈ text := by
  rw [lines, List.mem_append] at hl
  rcases hl with hl | hl
  · obtain ⟨piece, hp, rfl⟩ := List.mem_map.mp hl
    obtain ⟨blanks, -, hpiece⟩ := eq_dropReturn_append piece
    refine mem_of_mem_splitOn (List.dropLast_subset _ hp) ?_
    rw [hpiece]
    exact List.mem_append_left blanks hc
  · split at hl
    · cases hl
    · rw [List.mem_singleton.mp hl] at hc
      refine mem_of_mem_splitOn (List.getLast_mem (splitOn_ne_nil '\n' text)) ?_
      rwa [List.getLast?_eq_some_getLast (splitOn_ne_nil '\n' text), Option.getD_some] at hc

theorem isBlankText_of_mem_lines (h : isBlankText text = true) {line : List Char}
    (hl : line ∈ lines text) : isBlankText line = true :=
  isBlankText_iff.mpr fun _ hc => isBlankText_iff.mp h _ (mem_of_mem_lines hl hc)

/-! ## Line feeds with carriage returns -/

/-- Every line feed with a carriage return before it. -/
def withReturns (text : List Char) : List Char :=
  text.flatMap fun c => if c = '\n' then ['\r', '\n'] else [c]

theorem withReturns_append (a b : List Char) :
    withReturns (a ++ b) = withReturns a ++ withReturns b := List.flatMap_append

theorem withReturns_of_not_mem (h : '\n' ∉ text) : withReturns text = text := by
  induction text with
  | nil => rfl
  | cons c rest ih =>
    rw [List.mem_cons, not_or] at h
    simp only [withReturns, List.flatMap_cons, if_neg (Ne.symm h.1)]
    exact congrArg (c :: ·) (ih h.2)

/-- A text without carriage returns has the lines that it has with a carriage return before each
line feed. -/
theorem lines_withReturns (h : '\r' ∉ text) : lines (withReturns text) = lines text := by
  -- from the last line to the first, since what a line feed ends stands in front of it
  induction hn : text.length using Nat.strong_induction_on generalizing text with
  | _ n ih =>
    obtain hfeed | hfeed := em ('\n' ∈ text)
    · obtain ⟨a, b, rfl, ha⟩ := List.eq_append_cons_of_mem hfeed
      have hreturn : '\r' ∉ a := fun hmem => h (List.mem_append_left _ hmem)
      have hb : '\r' ∉ b := fun hmem => h (by simp [hmem])
      have hsame := ih b.length (by rw [← hn]; simp; omega) hb rfl
      have hwith : withReturns (a ++ '\n' :: b) = (a ++ ['\r']) ++ '\n' :: withReturns b := by
        rw [withReturns_append, withReturns_of_not_mem ha]
        simp [withReturns]
      have hline : '\n' ∉ a ++ ['\r'] := by simpa using ha
      rw [hwith, lines_append_feed, lines_append_feed, splitOn_of_not_mem hline,
        splitOn_of_not_mem ha, hsame, List.map_singleton, List.map_singleton, dropReturn_append,
        dropReturn_of_not_mem hreturn]
    · rw [withReturns_of_not_mem hfeed]

/-! ## Blanks at the end -/

/-- The last line may have other blanks at its end, and blank lines follow. -/
inductive TailExtended : List (List Char) → List (List Char) → Prop where
  | more {after : List (List Char)} (h : ∀ line ∈ after, isBlankText line = true) :
    TailExtended [] after
  | last {line line' : List Char} {after : List (List Char)} (hline : trimEnd line' = trimEnd line)
    (h : ∀ line ∈ after, isBlankText line = true) : TailExtended [line] (line' :: after)

theorem tailExtended_lines {line : List Char} (hline : '\n' ∉ line)
    (h : isBlankText blanks = true) : TailExtended (lines line) (lines (line ++ blanks)) := by
  by_cases hnil : line = []
  · subst hnil
    exact .more fun _ => isBlankText_of_mem_lines h
  rw [lines_eq_of_not_mem hline, if_neg (by simpa using hnil)]
  obtain hfeed | hfeed := em ('\n' ∈ blanks)
  · obtain ⟨a, b, rfl, ha⟩ := List.eq_append_cons_of_mem hfeed
    rw [isBlankText_append, isBlankText_cons, Bool.and_eq_true, Bool.and_eq_true] at h
    have hboth : '\n' ∉ line ++ a := by simp [hline, ha]
    rw [← List.append_assoc, lines_append_feed, splitOn_of_not_mem hboth, List.map_singleton]
    refine .last ?_ fun _ => isBlankText_of_mem_lines h.2.2
    obtain ⟨dropped, hd, heq⟩ := eq_dropReturn_append (line ++ a)
    rw [← trimEnd_append_blank hd, ← heq, trimEnd_append_blank h.1]
  · have hboth : '\n' ∉ line ++ blanks := by simp [hline, hfeed]
    rw [lines_eq_of_not_mem hboth, if_neg (by simp [hnil])]
    exact .last (trimEnd_append_blank h line) nofun

/-- Blanks at the end of a text come after its last line. -/
theorem lines_append_blank (h : isBlankText blanks = true) (text : List Char) :
    ∃ front tail tail', lines text = front ++ tail ∧ lines (text ++ blanks) = front ++ tail' ∧
      TailExtended tail tail' := by
  obtain ⟨front, last, rfl, hfront, hlast⟩ := exists_ended_append text
  refine ⟨lines front, lines last, lines (last ++ blanks), lines_append hfront last, ?_,
    tailExtended_lines hlast h⟩
  rw [List.append_assoc, lines_append hfront]

end Text
end SchemaMigration
