import Mathlib.Data.List.TakeWhile
import SchemaMigration.Text.Blank
import SchemaMigration.Text.Split

/-!
# SchemaMigration.Proofs.Text.Trim

Blanks at the ends of texts.

* `trim_append_blank`, `trim_blank_append` : blanks at the ends do not count.
* `trim_eq_nil_iff` : nothing is left of a blank text, and only of it.
* `trim_of_no_blank` : a text without blanks stays.
* `trimEnd_joinWith_cons` : what a joined text without blanks at its end has of its first piece.
-/

namespace SchemaMigration
namespace Text

variable {text blanks : List Char}

@[simp] theorem isBlankText_nil : isBlankText [] = true := rfl

@[simp] theorem isBlankText_cons (c : Char) (text : List Char) :
    isBlankText (c :: text) = (isBlank c && isBlankText text) := rfl

@[simp] theorem isBlankText_append (a b : List Char) :
    isBlankText (a ++ b) = (isBlankText a && isBlankText b) := List.all_append

@[simp] theorem isBlankText_reverse (text : List Char) :
    isBlankText text.reverse = isBlankText text := List.all_reverse

theorem isBlankText_iff : isBlankText text = true ↔ ∀ c ∈ text, isBlank c = true :=
  List.all_eq_true

theorem dropWhile_blank_append (h : isBlankText blanks = true) (text : List Char) :
    (blanks ++ text).dropWhile isBlank = text.dropWhile isBlank := by
  induction blanks with
  | nil => rfl
  | cons c rest ih =>
    rw [isBlankText_cons, Bool.and_eq_true] at h
    rw [List.cons_append, List.dropWhile_cons_of_pos h.1]
    exact ih h.2

theorem dropWhile_eq_nil : text.dropWhile isBlank = [] ↔ isBlankText text = true := by
  rw [List.dropWhile_eq_nil_iff, isBlankText_iff]

/-! ## At the start -/

theorem trimStart_blank_append (h : isBlankText blanks = true) (text : List Char) :
    trimStart (blanks ++ text) = trimStart text := dropWhile_blank_append h text

theorem trimStart_eq_nil_iff : trimStart text = [] ↔ isBlankText text = true := dropWhile_eq_nil

theorem trimStart_append_of_not_blank (h : isBlankText text = false) (rest : List Char) :
    trimStart (text ++ rest) = trimStart text ++ rest := by
  induction text with
  | nil => cases h
  | cons c text ih =>
    by_cases hc : isBlank c
    · rw [isBlankText_cons, hc, Bool.true_and] at h
      simpa [trimStart, hc] using ih h
    · simp [trimStart, hc]

/-! ## At the end -/

theorem trimEnd_append_blank (h : isBlankText blanks = true) (text : List Char) :
    trimEnd (text ++ blanks) = trimEnd text := by
  rw [trimEnd, trimEnd, List.reverse_append, dropWhile_blank_append (by simpa using h)]

theorem trimEnd_eq_nil_iff : trimEnd text = [] ↔ isBlankText text = true := by
  rw [trimEnd, List.reverse_eq_nil_iff, dropWhile_eq_nil, isBlankText_reverse]

theorem trimEnd_append_of_not_blank (h : isBlankText text = false) (front : List Char) :
    trimEnd (front ++ text) = front ++ trimEnd text := by
  have hstart : trimStart (text.reverse ++ front.reverse) =
      trimStart text.reverse ++ front.reverse :=
    trimStart_append_of_not_blank (by simpa using h) front.reverse
  simp only [trimStart] at hstart
  rw [trimEnd, trimEnd, List.reverse_append, hstart, List.reverse_append, List.reverse_reverse]

/-- What the blanks at the end are cut from, and the blanks. -/
theorem exists_eq_trimEnd_append (text : List Char) :
    ∃ blanks, isBlankText blanks = true ∧ text = trimEnd text ++ blanks := by
  refine ⟨(text.reverse.takeWhile isBlank).reverse, ?_, ?_⟩
  · rw [isBlankText_reverse, isBlankText_iff]
    exact fun c => List.mem_takeWhile_imp
  · rw [trimEnd, ← List.reverse_append, List.takeWhile_append_dropWhile, List.reverse_reverse]

/-! ## At both ends -/

theorem trim_blank_append (h : isBlankText blanks = true) (text : List Char) :
    trim (blanks ++ text) = trim text := by
  rw [trim, trim, trimStart_blank_append h]

theorem trim_append_blank (h : isBlankText blanks = true) (text : List Char) :
    trim (text ++ blanks) = trim text := by
  by_cases hb : isBlankText text = true
  · have hstart : trimStart text = [] := trimStart_eq_nil_iff.mpr hb
    have hboth : trimStart (text ++ blanks) = [] :=
      trimStart_eq_nil_iff.mpr (by rw [isBlankText_append, hb, h, Bool.and_true])
    rw [trim, trim, hboth, hstart]
  · rw [trim, trim, trimStart_append_of_not_blank (by simpa using hb), trimEnd_append_blank h]

/-- Texts that differ in blanks at their ends only are the same when these are cut off. -/
theorem trim_eq_of_trimEnd_eq {other : List Char} (h : trimEnd text = trimEnd other) :
    trim text = trim other := by
  obtain ⟨blanks, hb, htext⟩ := exists_eq_trimEnd_append text
  obtain ⟨blanks', hb', hother⟩ := exists_eq_trimEnd_append other
  rw [htext, hother, trim_append_blank hb, trim_append_blank hb', h]

theorem trim_eq_nil_iff : trim text = [] ↔ isBlankText text = true := by
  rw [trim, trimEnd_eq_nil_iff]
  refine ⟨fun h => ?_, fun h => ?_⟩
  · by_contra hb
    have hne : text.dropWhile isBlank ≠ [] := mt dropWhile_eq_nil.mp hb
    have hfirst := List.head_dropWhile_not isBlank hne
    rw [isBlankText_iff.mp h _ (List.head_mem hne)] at hfirst
    cases hfirst
  · rw [trimStart_eq_nil_iff.mpr h, isBlankText_nil]

theorem isBlankText_congr {other : List Char} (h : trim text = trim other) :
    isBlankText text = isBlankText other := by
  rw [Bool.eq_iff_iff, ← trim_eq_nil_iff, ← trim_eq_nil_iff, h]

theorem trim_of_no_blank (h : ∀ c ∈ text, isBlank c = false) : trim text = text := by
  have hsame : ∀ {items : List Char}, (∀ c ∈ items, isBlank c = false) →
      items.dropWhile isBlank = items := by
    intro items hitems
    cases items with
    | nil => rfl
    | cons c rest => exact List.dropWhile_cons_of_neg (by simp [hitems c List.mem_cons_self])
  rw [trim, trimStart, hsame h, trimEnd, hsame (by simpa using h), List.reverse_reverse]

/-! ## Joined texts -/

theorem joinWith_cons {sep piece : List Char} {pieces : List (List Char)} (h : pieces ≠ []) :
    joinWith sep (piece :: pieces) = piece ++ sep ++ joinWith sep pieces := by
  cases pieces with
  | nil => exact absurd rfl h
  | cons next rest => rfl

theorem isBlankText_joinWith {pieces : List (List Char)}
    (h : ∀ piece ∈ pieces, isBlankText piece = true) :
    isBlankText (joinWith ['\n'] pieces) = true := by
  induction pieces with
  | nil => rfl
  | cons piece rest ih =>
    have hpiece := h piece List.mem_cons_self
    have hrest := ih fun p hp => h p (List.mem_cons_of_mem piece hp)
    cases rest with
    | nil => exact hpiece
    | cons next more =>
      have hfeed : isBlank '\n' = true := by decide
      simp [joinWith_cons, hpiece, hfeed, hrest]

/-- A piece in front stands before whatever else the joined text has, and alone decides where that
is blank. -/
theorem trimEnd_joinWith_cons (piece : List Char) (pieces : List (List Char)) :
    trimEnd (joinWith ['\n'] (piece :: pieces)) =
      if isBlankText (joinWith ['\n'] pieces) then trimEnd piece
      else piece ++ '\n' :: trimEnd (joinWith ['\n'] pieces) := by
  cases pieces with
  | nil => rfl
  | cons next rest =>
    rw [joinWith_cons (List.cons_ne_nil next rest), List.append_assoc]
    split
    · rename_i hb
      refine trimEnd_append_blank ?_ piece
      rw [isBlankText_append, hb]
      decide
    · rename_i hb
      have hne : isBlankText (['\n'] ++ joinWith ['\n'] (next :: rest)) = false := by
        rw [isBlankText_append]
        simp [hb]
      rw [trimEnd_append_of_not_blank hne, trimEnd_append_of_not_blank (by simpa using hb)]
      rfl

/-- Blank pieces in front only put blanks in front. -/
theorem trim_joinWith_blank_append {front : List (List Char)}
    (h : ∀ piece ∈ front, isBlankText piece = true) (pieces : List (List Char)) :
    trim (joinWith ['\n'] (front ++ pieces)) = trim (joinWith ['\n'] pieces) := by
  induction front with
  | nil => rfl
  | cons piece rest ih =>
    have hpiece := h piece List.mem_cons_self
    have hrest := ih fun p hp => h p (List.mem_cons_of_mem piece hp)
    rw [List.cons_append]
    by_cases hnil : rest ++ pieces = []
    · obtain ⟨rfl, rfl⟩ := List.append_eq_nil_iff.mp hnil
      rw [List.append_nil, joinWith, joinWith, trim_eq_nil_iff.mpr hpiece]
      rfl
    · have hfeed : isBlankText (piece ++ ['\n']) = true := by
        rw [isBlankText_append, hpiece]
        decide
      rw [joinWith_cons hnil, trim_blank_append hfeed, hrest]

end Text
end SchemaMigration
