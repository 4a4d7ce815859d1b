import SchemaMigration.Proofs.Text.Trim

/-!
# SchemaMigration.Proofs.Text.Words

Words in a text.

* `Spaced` : words that stand in a text one after the other, each with blanks before it.
* `Spaced.words_eq`, `spaced_words` : such words are the words of the text, and a text that begins
  with a blank has its words in it so.
-/

namespace SchemaMigration
namespace Text

/-- A run of characters that are not blank. -/
structure IsWord (word : List Char) : Prop where
  ne_nil : word ≠ []
  plain : ∀ c ∈ word, isBlank c = false

instance (word : List Char) : Decidable (IsWord word) :=
  decidable_of_iff (word ≠ [] ∧ word.all (!isBlank ·) = true)
    ⟨fun h => ⟨h.1, by simpa using h.2⟩, fun h => ⟨h.ne_nil, by simpa using h.plain⟩⟩

/-- Words with blanks before each of them, and perhaps after the last. -/
inductive Spaced : List (List Char) → List Char → Prop where
  | nil {blanks : List Char} (h : isBlankText blanks = true) : Spaced [] blanks
  | cons {gap word rest : List Char} {words : List (List Char)} (hne : gap ≠ [])
      (hgap : isBlankText gap = true) (hword : IsWord word) (h : Spaced words rest) :
      Spaced (word :: words) (gap ++ word ++ rest)

/-- Nothing, or a text that begins with a blank: where a word before it has ended. -/
def AtBreak (text : List Char) : Prop := ∀ c ∈ text.head?, isBlank c = true

variable {text rest word : List Char}

theorem atBreak_append_of_blank {blanks : List Char} (h : isBlankText blanks = true)
    (hne : blanks ≠ []) (text : List Char) : AtBreak (blanks ++ text) := by
  cases blanks with
  | nil => exact absurd rfl hne
  | cons c blanks =>
    intro d hd
    obtain rfl : c = d := by simpa using hd
    exact isBlankText_iff.mp h c List.mem_cons_self

theorem atBreak_dropWhile (text : List Char) : AtBreak (text.dropWhile (!isBlank ·)) := by
  intro c hc
  have hhead := List.head?_dropWhile_not (!isBlank ·) text
  rw [Option.mem_def.mp hc] at hhead
  simpa using hhead

/-! ## The words of a text -/

theorem words_blank_append {blanks : List Char} (h : isBlankText blanks = true)
    (text : List Char) : words (blanks ++ text) = words text := by
  induction blanks with
  | nil => rfl
  | cons c blanks ih =>
    rw [isBlankText_cons, Bool.and_eq_true] at h
    rw [List.cons_append, words, if_pos h.1]
    exact ih h.2

theorem takeWhile_word_append (hword : ∀ c ∈ word, isBlank c = false) (hrest : AtBreak rest) :
    (word ++ rest).takeWhile (!isBlank ·) = word := by
  rw [List.takeWhile_append_of_pos (by simpa using hword)]
  cases rest with
  | nil => rw [List.takeWhile_nil, List.append_nil]
  | cons c rest =>
    have hc : isBlank c = true := hrest c rfl
    rw [List.takeWhile_cons_of_neg (by simp [hc]), List.append_nil]

theorem dropWhile_word_append (hword : ∀ c ∈ word, isBlank c = false) (hrest : AtBreak rest) :
    (word ++ rest).dropWhile (!isBlank ·) = rest := by
  rw [List.dropWhile_append_of_pos (by simpa using hword)]
  cases rest with
  | nil => rfl
  | cons c rest =>
    have hc : isBlank c = true := hrest c rfl
    exact List.dropWhile_cons_of_neg (by simp [hc])

theorem words_append (hword : IsWord word) (hrest : AtBreak rest) :
    words (word ++ rest) = word :: words rest := by
  obtain ⟨c, more, rfl⟩ := List.exists_cons_of_ne_nil hword.ne_nil
  have hc : isBlank c = false := hword.plain c List.mem_cons_self
  have hmore : ∀ d ∈ more, isBlank d = false := fun d hd =>
    hword.plain d (List.mem_cons_of_mem c hd)
  rw [List.cons_append, words, if_neg (by simp [hc]), takeWhile_word_append hmore hrest,
    dropWhile_word_append hmore hrest]

theorem Spaced.atBreak {tokens : List (List Char)} (h : Spaced tokens text) : AtBreak text := by
  cases h with
  | nil hblank =>
    cases text with
    | nil => nofun
    | cons c rest => simpa using atBreak_append_of_blank hblank (List.cons_ne_nil c rest) []
  | cons hne hgap _ _ =>
    rw [List.append_assoc]
    exact atBreak_append_of_blank hgap hne _

theorem Spaced.words_eq {tokens : List (List Char)} (h : Spaced tokens text) :
    words text = tokens := by
  induction h with
  | @nil blanks hblank => rw [← List.append_nil blanks, words_blank_append hblank, words]
  | cons _ hgap hword hrest ih =>
    rw [List.append_assoc, words_blank_append hgap, words_append hword hrest.atBreak, ih]

/-- A further blank in front. -/
theorem Spaced.blank {tokens : List (List Char)} (h : Spaced tokens text) {c : Char}
    (hc : isBlank c = true) : Spaced tokens (c :: text) := by
  cases h with
  | nil hblank => exact .nil (by rw [isBlankText_cons, hc, hblank, Bool.and_self])
  | @cons gap word rest words hne hgap hword hrest =>
    rw [List.append_assoc, ← List.cons_append, ← List.append_assoc]
    exact .cons (List.cons_ne_nil c gap) (by rw [isBlankText_cons, hc, hgap, Bool.and_self]) hword
      hrest

/-- A text that begins with no blank begins with a word. -/
theorem exists_word_append (h : ¬ AtBreak text) :
    ∃ word rest, text = word ++ rest ∧ IsWord word ∧ AtBreak rest := by
  refine ⟨text.takeWhile (!isBlank ·), text.dropWhile (!isBlank ·),
    List.takeWhile_append_dropWhile.symm, ⟨fun hnil => h fun c hc => ?_, fun c hc => ?_⟩,
    atBreak_dropWhile text⟩
  · obtain ⟨rest, rfl⟩ := List.head?_eq_some_iff.mp hc
    by_contra hblank
    rw [List.takeWhile_cons_of_pos (by simpa using hblank)] at hnil
    cases hnil
  · simpa using List.mem_takeWhile_imp hc

theorem spaced_words (h : AtBreak text) : Spaced (words text) text := by
  -- one blank at a time, and a word along with the last blank before it
  induction hn : text.length using Nat.strong_induction_on generalizing text with
  | _ n ih =>
    cases text with
    | nil =>
      rw [words]
      exact .nil isBlankText_nil
    | cons c text =>
      have hc : isBlank c = true := h c rfl
      rw [List.length_cons] at hn
      rw [words, if_pos hc]
      by_cases hbreak : AtBreak text
      · exact (ih text.length (by omega) hbreak rfl).blank hc
      · obtain ⟨word, rest, rfl, hword, hrest⟩ := exists_word_append hbreak
        rw [List.length_append] at hn
        have hspaced := ih rest.length (by omega) hrest rfl
        rw [words_append hword hrest]
        exact .cons (List.cons_ne_nil c []) (by rw [isBlankText_cons, hc]; rfl) hword hspaced

theorem Spaced.isWord {tokens : List (List Char)} (h : Spaced tokens text) :
    ∀ token ∈ tokens, IsWord token := by
  induction h with
  | nil => nofun
  | cons _ _ hword _ ih => exact List.forall_mem_cons.mpr ⟨hword, ih⟩

end Text
end SchemaMigration
