import Mathlib.Data.List.Infix
import SchemaMigration.Text.Split

/-!
# SchemaMigration.Proofs.Text.Cut

Where a text is cut at a separator: what stands before and after it, and that it is the first or the
last one.

* `startsWith_iff` : beginning with a text is having it as a prefix.
* `cutFirst?_eq_some_iff`, `cutLast?_eq_some_iff` : the first and the last of a character.
* `cutFirstText?_append` : the first of a text, which no earlier one begins in front of.
* `cutFirstText?_eq_some_iff` : the same for a text whose first character does not come again in it,
  so that no two occurrences overlap.
-/

namespace SchemaMigration
namespace Text

variable {text : List Char}

/-! ## Beginnings -/

theorem dropStart?_eq_none_iff {start : List Char} :
    dropStart? start text = none ↔ ¬ start <+: text := by
  refine ⟨fun h ⟨rest, hrest⟩ => ?_, fun h => ?_⟩
  · rw [← hrest, dropStart?_append] at h
    cases h
  · by_contra hsome
    obtain ⟨rest, hrest⟩ := Option.ne_none_iff_exists'.mp hsome
    exact h ⟨rest, (dropStart?_eq_some hrest).symm⟩

theorem startsWith_iff {start : List Char} : startsWith start text = true ↔ start <+: text := by
  rw [startsWith, Option.isSome_iff_ne_none, ne_eq, dropStart?_eq_none_iff, not_not]

/-! ## Characters -/

section Character

variable {sep : Char} {before after : List Char}

theorem cutFirst?_append (h : sep ∉ before) (after : List Char) :
    cutFirst? sep (before ++ sep :: after) = some (before, after) := by
  induction before with
  | nil => rw [List.nil_append, cutFirst?, if_pos rfl]
  | cons c before ih =>
    rw [List.mem_cons, not_or] at h
    rw [List.cons_append, cutFirst?, if_neg (Ne.symm h.1), ih h.2]

theorem cutFirst?_eq_some_iff :
    cutFirst? sep text = some (before, after) ↔ text = before ++ sep :: after ∧ sep ∉ before := by
  refine ⟨fun h => ?_, fun ⟨htext, hmem⟩ => htext ▸ cutFirst?_append hmem after⟩
  induction text generalizing before with
  | nil => cases h
  | cons c text ih =>
    rw [cutFirst?] at h
    split at h
    · rename_i hc
      cases h
      exact ⟨by rw [hc, List.nil_append], List.not_mem_nil⟩
    · rename_i hc
      split at h
      · cases h
      · rename_i front back hcut
        cases h
        obtain ⟨htext, hmem⟩ := ih hcut
        exact ⟨by rw [htext, List.cons_append], by simp [Ne.symm hc, hmem]⟩

theorem cutLast?_of_not_mem (h : sep ∉ text) : cutLast? sep text = none := by
  induction text with
  | nil => rfl
  | cons c text ih =>
    rw [List.mem_cons, not_or] at h
    rw [cutLast?, ih h.2]
    exact if_neg (Ne.symm h.1)

theorem cutLast?_append (h : sep ∉ after) (before : List Char) :
    cutLast? sep (before ++ sep :: after) = some (before, after) := by
  induction before with
  | nil =>
    rw [List.nil_append, cutLast?, cutLast?_of_not_mem h]
    exact if_pos rfl
  | cons c before ih => rw [List.cons_append, cutLast?, ih]

/-- A text that holds the separator is cut, and what follows the cut does not hold it. -/
theorem exists_cutLast (h : sep ∈ text) :
    ∃ before after, text = before ++ sep :: after ∧ sep ∉ after := by
  induction text with
  | nil => cases h
  | cons c text ih =>
    by_cases hmem : sep ∈ text
    · obtain ⟨before, after, htext, hafter⟩ := ih hmem
      exact ⟨c :: before, after, by rw [htext, List.cons_append], hafter⟩
    · have hc : sep = c := (List.mem_cons.mp h).resolve_right hmem
      exact ⟨[], text, by rw [hc, List.nil_append], hmem⟩

theorem cutLast?_eq_some_iff :
    cutLast? sep text = some (before, after) ↔ text = before ++ sep :: after ∧ sep ∉ after := by
  refine ⟨fun h => ?_, fun ⟨htext, hmem⟩ => htext ▸ cutLast?_append hmem before⟩
  by_cases hmem : sep ∈ text
  · obtain ⟨front, back, htext, hback⟩ := exists_cutLast hmem
    rw [htext, cutLast?_append hback] at h
    cases h
    exact ⟨htext, hback⟩
  · rw [cutLast?_of_not_mem hmem] at h
    cases h

end Character

/-! ## Texts -/

theorem eq_append_of_cutFirstText? {sep before after : List Char}
    (h : cutFirstText? sep text = some (before, after)) : text = before ++ sep ++ after := by
  induction text generalizing before with
  | nil =>
    rw [cutFirstText?] at h
    split at h
    · rename_i rest hd
      cases h
      exact dropStart?_eq_some hd
    · cases h
  | cons c text ih =>
    rw [cutFirstText?] at h
    split at h
    · rename_i rest hd
      cases h
      exact dropStart?_eq_some hd
    · split at h
      · cases h
      · rename_i inner hcut
        cases h
        rw [ih hcut]
        rfl

/-- A text is cut at a separator that no other one begins in front of. -/
theorem cutFirstText?_append {sep before after : List Char}
    (h : ∀ c tail, c :: tail <:+ before → ¬ sep <+: c :: (tail ++ (sep ++ after))) :
    cutFirstText? sep (before ++ (sep ++ after)) = some (before, after) := by
  induction before with
  | nil =>
    have hdrop := dropStart?_append sep after
    rw [List.nil_append]
    cases htext : sep ++ after with
    | nil => rw [cutFirstText?, ← htext, hdrop]
    | cons c text => rw [cutFirstText?, ← htext, hdrop]
  | cons c before ih =>
    have hrest := ih fun d tail htail => h d tail (htail.trans (List.suffix_cons c before))
    rw [List.cons_append, cutFirstText?,
      dropStart?_eq_none_iff.mpr (h c before List.suffix_rfl), hrest]

section Separator

variable {first second : Char} {more before after : List Char}

theorem cutFirstText?_of_not_mem (h : first ∉ text) :
    cutFirstText? (first :: more) text = none := by
  cases hcut : cutFirstText? (first :: more) text with
  | none => rfl
  | some parts => exact absurd (by simp [eq_append_of_cutFirstText? hcut]) h

/-- An occurrence begins with the separator's first character. -/
theorem cutFirstText?_append_of_first (h : first ∉ before) (after : List Char) :
    cutFirstText? (first :: more) (before ++ (first :: more ++ after)) = some (before, after) := by
  refine cutFirstText?_append fun c tail htail hstart => h ?_
  rw [(List.cons_prefix_cons.mp hstart).1]
  exact htail.subset List.mem_cons_self

/-- What follows the first character of an occurrence is the second one, which the separator does
not begin with. -/
theorem cutFirstText?_append_of_second (hne : first ≠ second) (h : second ∉ before)
    (after : List Char) :
    cutFirstText? (first :: second :: more) (before ++ (first :: second :: more ++ after)) =
      some (before, after) := by
  refine cutFirstText?_append fun c tail htail hstart => ?_
  have hnext := (List.cons_prefix_cons.mp hstart).2
  cases tail with
  | nil => exact hne (List.cons_prefix_cons.mp hnext).1.symm
  | cons d tail =>
    rw [List.cons_append, List.cons_prefix_cons] at hnext
    exact h (htail.subset (by simp [hnext.1]))

/-- What is cut off in front does not hold the separator. -/
theorem not_infix_of_cutFirstText? (h : cutFirstText? (first :: more) text = some (before, after)) :
    ¬ (first :: more) <:+: before := by
  induction text generalizing before with
  | nil => cases h
  | cons c text ih =>
    rw [cutFirstText?] at h
    split at h
    · cases h
      simp
    · rename_i hnone
      split at h
      · cases h
      · rename_i inner back hcut
        cases h
        rw [List.infix_cons_iff, not_or]
        refine ⟨fun hstart => dropStart?_eq_none_iff.mp hnone ?_, ih hcut⟩
        rw [eq_append_of_cutFirstText? hcut, List.append_assoc, ← List.cons_append]
        exact hstart.trans (List.prefix_append _ _)

/-- No occurrence begins before the separator and ends inside it: that one would hold the
separator's first character a second time. -/
theorem not_prefix_append (hfirst : first ∉ more) {c : Char}
    (h : ¬ (first :: more) <+: c :: before) (after : List Char) :
    ¬ (first :: more) <+: c :: (before ++ (first :: more ++ after)) := by
  intro hstart
  have hfront : c :: before <+: c :: (before ++ (first :: more ++ after)) :=
    List.prefix_append (c :: before) (first :: more ++ after)
  rcases Nat.le_total (first :: more).length (c :: before).length with hle | hle
  · exact h (List.prefix_of_prefix_length_le hstart hfront hle)
  · obtain ⟨tail, htail⟩ := List.prefix_of_prefix_length_le hfront hstart hle
    obtain ⟨rest, hrest⟩ := hstart
    rw [← htail, List.cons_append, List.cons_append, List.cons.injEq, List.append_assoc,
      List.append_cancel_left_eq] at hrest
    cases tail with
    | nil => exact h (by rw [← htail, List.append_nil])
    -- what follows the front begins both with `d` and with the separator
    | cons d tail =>
      obtain ⟨hd, -⟩ := List.cons.inj hrest.2
      obtain ⟨hc, hmore⟩ := List.cons.inj htail
      exact hfirst (by simp [← hmore, hd, ← hc])

theorem cutFirstText?_eq_some_iff (hfirst : first ∉ more) :
    cutFirstText? (first :: more) text = some (before, after) ↔
      text = before ++ (first :: more ++ after) ∧ ¬ (first :: more) <:+: before := by
  constructor
  · intro h
    refine ⟨?_, not_infix_of_cutFirstText? h⟩
    rw [eq_append_of_cutFirstText? h, List.append_assoc]
  · rintro ⟨rfl, hbefore⟩
    refine cutFirstText?_append fun c tail htail => not_prefix_append hfirst ?_ after
    exact fun hstart => hbefore (hstart.isInfix.trans htail.isInfix)

end Separator
end Text
end SchemaMigration
