import SchemaMigration.InputError
import SchemaMigration.Proofs.Text.Cut

/-!
# SchemaMigration.Proofs.Ordering.Walk

The text of a walk tells its names.

* `Text.splitOnText`, `Text.pieces`: cut at every occurrence of a text.
* `Text.splitOnText_intercalate`: cutting undoes joining, as long as the separator's first
  character stands in no piece.
* `pieces_walkText`: names hold no blank, so the arrows of a walk's text are its separators.
-/

namespace SchemaMigration
namespace Text

/-- Cut at every occurrence of the text `sep`, from left to right. An empty `sep` cuts nothing. -/
def splitOnText (sep text : List Char) : List (List Char) :=
  if sep = [] then [text]
  else
    match _h : cutFirstText? sep text with
    | none => [text]
    | some (before, after) => before :: splitOnText sep after
termination_by text.length
decreasing_by
  have hlen := congrArg List.length (eq_append_of_cutFirstText? _h)
  have hsep : 0 < sep.length := List.length_pos_iff.mpr ‹sep ≠ []›
  simp only [List.length_append] at hlen
  omega

/-- `splitOnText` on strings. -/
def pieces (sep text : String) : List String :=
  (splitOnText sep.toList text.toList).map String.ofList

/-- Cutting a joined text gives the pieces back. -/
theorem splitOnText_intercalate {first : Char} {more : List Char} {pieces : List (List Char)}
    (hne : pieces ≠ []) (h : ∀ piece ∈ pieces, first ∉ piece) :
    splitOnText (first :: more) ((first :: more).intercalate pieces) = pieces := by
  induction pieces with
  | nil => exact absurd rfl hne
  | cons piece rest ih =>
    rw [List.forall_mem_cons] at h
    cases rest with
    | nil =>
      rw [List.intercalate_singleton, splitOnText, if_neg (List.cons_ne_nil first more)]
      split
      · rfl
      · rename_i hcut
        rw [cutFirstText?_of_not_mem h.1] at hcut
        cases hcut
    | cons next others =>
      rw [List.intercalate_cons_cons, List.append_assoc, splitOnText,
        if_neg (List.cons_ne_nil first more)]
      split
      · rename_i hcut
        rw [cutFirstText?_append_of_first h.1] at hcut
        cases hcut
      · rename_i before after hcut
        rw [cutFirstText?_append_of_first h.1] at hcut
        cases hcut
        rw [ih (List.cons_ne_nil next others) h.2]

end Text

theorem Name.not_blank_mem (name : Name) : ' ' ∉ name.text.toList := by
  intro hmem
  have hname := name.isName
  rw [isNameText, Bool.and_eq_true, List.all_eq_true] at hname
  exact absurd (hname.2 ' ' hmem) (by decide)

/-- The names of a walk, as they stand between the arrows of its text. -/
theorem pieces_walkText {walk : List Name} (hne : walk ≠ []) :
    Text.pieces " -> " (InputError.walkText walk) = walk.map (·.text) := by
  have hpieces : ∀ piece ∈ (walk.map (·.text)).map String.toList, ' ' ∉ piece := by
    intro piece hp
    obtain ⟨text, ht, rfl⟩ := List.mem_map.mp hp
    obtain ⟨name, -, rfl⟩ := List.mem_map.mp ht
    exact name.not_blank_mem
  rw [InputError.walkText, joinTexts, Text.pieces, String.toList_intercalate]
  have hsep : " -> ".toList = ' ' :: ['-', '>', ' '] := rfl
  rw [hsep, Text.splitOnText_intercalate (by simpa using hne) hpieces, List.map_map]
  simp

end SchemaMigration
