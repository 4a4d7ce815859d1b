import SchemaMigration.Sql.Identifier

/-!
# SchemaMigration.Proofs.Sql.Token

A reference to a table reads back as what it was made of, alone and inside a statement.

* `readQuoted?_eq_some_iff` : what stands before the closing quote is a name with its quotes
  doubled, and nothing else is.
* `Token`, `tokens?` : a text cut into quoted identifiers and single characters.
* `flatMap_chars_of_tokens?` : cutting loses nothing.
* `tokens?_append` : a text is cut piece by piece, wherever no two quotes meet.

`table_reads_back` : the text of a reference tells the schema and the name, no other text is read
as that reference, and what stands around it in a statement is read as if it were not there.
-/

namespace SchemaMigration
namespace Sql

theorem readQuoted?_eq_some_iff {text name rest : List Char} :
    readQuoted? text = some (name, rest) ↔
      text = doubleQuotes name ++ '"' :: rest ∧ rest.head? ≠ some '"' := by
  refine ⟨fun h => ?_, fun ⟨htext, hrest⟩ => htext ▸ readQuoted?_doubled name hrest⟩
  -- the cases are those of the reader: the end, a doubled quote, a lone quote, any other character
  fun_induction readQuoted? text generalizing name with
  | case1 => cases h
  | case2 => cases h
  | case3 text inner after hread ih =>
    cases h
    obtain ⟨htext, hrest⟩ := ih hread
    exact ⟨by simp [doubleQuotes, htext], hrest⟩
  | case4 text hlone =>
    cases h
    refine ⟨rfl, fun hhead => ?_⟩
    obtain ⟨rest', hrest'⟩ := List.head?_eq_some_iff.mp hhead
    exact hlone rest' rfl hrest'
  | case5 => cases h
  | case6 c text hlone hc inner after hread ih =>
    cases h
    obtain ⟨htext, hrest⟩ := ih hread
    exact ⟨by simp [doubleQuotes, hc, htext], hrest⟩

theorem length_lt_of_readQuoted? {text name rest : List Char}
    (h : readQuoted? text = some (name, rest)) : rest.length < text.length := by
  rw [(readQuoted?_eq_some_iff.mp h).1]
  simp only [List.length_append, List.length_cons]
  omega

/-- A quoted identifier, or any character outside. -/
inductive Token where
  | quoted (name : String)
  | mark (c : Char)
deriving DecidableEq, Repr

/-- The tokens of a text; none where a quoted identifier has no end. -/
def tokens? (text : List Char) : Option (List Token) :=
  match text with
  | [] => some []
  | c :: rest =>
    if c = '"' then
      match _h : readQuoted? rest with
      | none => none
      | some (name, after) => (tokens? after).map (.quoted (String.ofList name) :: ·)
    else (tokens? rest).map (.mark c :: ·)
termination_by text.length
decreasing_by
  · have := length_lt_of_readQuoted? _h
    simp only [List.length_cons]
    omega
  · simp

def Token.chars : Token → List Char
  | .quoted name => quotedChars name.toList
  | .mark c => [c]

variable {lead rest : List Char} {before : List Token}

theorem tokens?_mark {c : Char} (hc : c ≠ '"') (rest : List Char) :
    tokens? (c :: rest) = (tokens? rest).map (.mark c :: ·) := by
  rw [tokens?, if_neg hc]

theorem tokens?_of_readQuoted? {text name after : List Char}
    (h : readQuoted? text = some (name, after)) :
    tokens? ('"' :: text) = (tokens? after).map (.quoted (String.ofList name) :: ·) := by
  rw [tokens?, if_pos rfl]
  split
  · rename_i hnone
    rw [h] at hnone
    cases hnone
  · rename_i hsome
    rw [h] at hsome
    cases hsome
    rfl

theorem tokens?_quoted (name : String) (h : rest.head? ≠ some '"') :
    tokens? (quotedChars name.toList ++ rest) = (tokens? rest).map (.quoted name :: ·) := by
  have hread : readQuoted? (doubleQuotes name.toList ++ '"' :: rest) = some (name.toList, rest) :=
    readQuoted?_doubled name.toList h
  have htokens := tokens?_of_readQuoted? hread
  rw [String.ofList_toList] at htokens
  simpa [quotedChars] using htokens

/-- Without a double quote every character is a token. -/
theorem tokens?_of_not_mem {text : List Char} (h : '"' ∉ text) :
    tokens? text = some (text.map .mark) := by
  induction text with
  | nil => rw [tokens?]; rfl
  | cons c text ih =>
    rw [List.mem_cons, not_or] at h
    rw [tokens?_mark (Ne.symm h.1), ih h.2]
    rfl

theorem flatMap_chars_of_tokens? {text : List Char} {tokens : List Token}
    (h : tokens? text = some tokens) : text = tokens.flatMap Token.chars := by
  fun_induction tokens? text generalizing tokens with
  | case1 => cases h; rfl
  | case2 => cases h
  | case3 text name after hread ih =>
    obtain ⟨more, hmore, rfl⟩ := Option.map_eq_some_iff.mp h
    rw [(readQuoted?_eq_some_iff.mp hread).1]
    simp [Token.chars, quotedChars, ← ih hmore]
  | case4 c text hc ih =>
    obtain ⟨more, hmore, rfl⟩ := Option.map_eq_some_iff.mp h
    simp [Token.chars, ← ih hmore]

/-- A text is cut at the end of every part that can be cut alone, unless a quote at the part's end
and one behind it would be taken for a doubled one. -/
theorem tokens?_append (hlead : tokens? lead = some before)
    (hmeet : lead.getLast? = some '"' → rest.head? ≠ some '"') :
    tokens? (lead ++ rest) = (tokens? rest).map (before ++ ·) := by
  fun_induction tokens? lead generalizing before with
  | case1 => cases hlead; simp
  | case2 => cases hlead
  | case3 text name after hread ih =>
    obtain ⟨more, hmore, rfl⟩ := Option.map_eq_some_iff.mp hlead
    obtain ⟨htext, hafter⟩ := readQuoted?_eq_some_iff.mp hread
    have hhead : (after ++ rest).head? ≠ some '"' := by
      cases after with
      | nil => exact hmeet (by rw [htext, ← List.cons_append, List.getLast?_concat])
      | cons c after => simpa using hafter
    have hlast : after.getLast? = some '"' → rest.head? ≠ some '"' := by
      intro hquote
      refine hmeet ?_
      rw [htext, ← hquote, List.getLast?_cons, List.getLast?_append, List.getLast?_cons, hquote]
      rfl
    have hread' : readQuoted? (text ++ rest) = some (name, after ++ rest) := by
      rw [htext, List.append_assoc, List.cons_append]
      exact readQuoted?_doubled name hhead
    rw [List.cons_append, tokens?_of_readQuoted? hread', ih hmore hlast]
    simp [Function.comp_def]
  | case4 c text hc ih =>
    obtain ⟨more, hmore, rfl⟩ := Option.map_eq_some_iff.mp hlead
    have hlast : text.getLast? = some '"' → rest.head? ≠ some '"' := by
      intro hquote
      refine hmeet ?_
      rw [List.getLast?_cons, hquote]
      rfl
    rw [List.cons_append, tokens?_mark hc, ih hmore hlast]
    simp [Function.comp_def]

namespace TableRef

/-- What a reference is to be read as. -/
def tokens (table : TableRef) : List Token := [.quoted table.schema, .mark '.', .quoted table.name]

theorem tokens_injective {table other : TableRef} (h : table.tokens = other.tokens) :
    table = other := by
  obtain ⟨schema, name⟩ := table
  simp only [tokens, List.cons.injEq, Token.quoted.injEq] at h
  obtain ⟨rfl, -, rfl, -⟩ := h
  rfl

theorem flatMap_chars_tokens (table : TableRef) :
    table.tokens.flatMap Token.chars = table.chars := by
  simp [tokens, Token.chars, chars]

theorem tokens?_chars (table : TableRef) (h : rest.head? ≠ some '"') :
    tokens? (table.chars ++ rest) = (tokens? rest).map (table.tokens ++ ·) := by
  rw [chars, List.append_assoc, List.cons_append, tokens?_quoted table.schema (by simp),
    tokens?_mark (by decide), tokens?_quoted table.name h]
  simp [tokens, Function.comp_def]

theorem tokens?_text (table : TableRef) : tokens? table.text.toList = some table.tokens := by
  have hnone : ([] : List Char).head? ≠ some '"' := nofun
  have hchars := table.tokens?_chars hnone
  rw [List.append_nil, tokens?_of_not_mem List.not_mem_nil] at hchars
  rw [text, String.toList_ofList, hchars]
  simp

theorem tokens?_eq_tokens_iff {text : String} {table : TableRef} :
    tokens? text.toList = some table.tokens ↔ text = table.text := by
  refine ⟨fun h => ?_, fun h => h ▸ table.tokens?_text⟩
  have hchars : text.toList = table.chars := by
    rw [flatMap_chars_of_tokens? h, flatMap_chars_tokens]
  rw [TableRef.text, ← hchars, String.ofList_toList]

end TableRef

/-- Neither the schema nor the name gets out of its quotes, whatever they hold: the reference is
read as the two of them with a point between, no other text is, and in a statement it leaves what
stands before it and behind it alone. -/
theorem table_reads_back :
    (∀ table other : TableRef, table.text = other.text ↔ table = other) ∧
      (∀ (text : String) (table : TableRef),
        tokens? text.toList = some table.tokens ↔ text = table.text) ∧
      ∀ (lead rest : String) (before : List Token), tokens? lead.toList = some before →
        lead.toList.getLast? ≠ some '"' → rest.toList.head? ≠ some '"' → ∀ table : TableRef,
          tokens? (lead ++ table.text ++ rest).toList =
            (tokens? rest.toList).map (before ++ table.tokens ++ ·) := by
  refine ⟨fun table other => ⟨fun h => ?_, fun h => h ▸ rfl⟩,
    fun text table => TableRef.tokens?_eq_tokens_iff,
    fun lead rest before hlead hlast hhead table => ?_⟩
  · have htokens : some table.tokens = some other.tokens := by
      rw [← table.tokens?_text, h, other.tokens?_text]
    exact TableRef.tokens_injective (Option.some.inj htokens)
  · have hmeet : lead.toList.getLast? = some '"' → (table.chars ++ rest.toList).head? ≠ some '"' :=
      fun h => absurd h hlast
    rw [String.toList_append, String.toList_append, TableRef.text, String.toList_ofList,
      List.append_assoc, tokens?_append hlead hmeet, table.tokens?_chars hhead]
    simp [Function.comp_def]

/-- A schema that holds the text between two identifiers, and a name that would end the
statement. -/
theorem table_reads_back_hostile :
    let table : TableRef := ⟨"a\".\"b", "\"; DROP TABLE t; --"⟩
    let lead := "SELECT locked FROM "
    let rest := " LIMIT 1"
    tokens? lead.toList = some (lead.toList.map .mark) ∧ lead.toList.getLast? ≠ some '"' ∧
      rest.toList.head? ≠ some '"' ∧
      tokens? (lead ++ table.text ++ rest).toList =
        some (lead.toList.map .mark ++ table.tokens ++ rest.toList.map .mark) ∧
      tokens? "\"a\"\".\"\"b\".\"\"\"; DROP TABLE t; --\"".toList = some table.tokens := by
  intro table lead rest
  have hlead : tokens? lead.toList = some (lead.toList.map .mark) := tokens?_of_not_mem (by decide)
  have hrest : tokens? rest.toList = some (rest.toList.map .mark) := tokens?_of_not_mem (by decide)
  have hlast : lead.toList.getLast? ≠ some '"' := by decide
  have hhead : rest.toList.head? ≠ some '"' := by decide
  have hinside := table_reads_back.2.2 lead rest _ hlead hlast hhead table
  rw [hrest] at hinside
  exact ⟨hlead, hlast, hhead, hinside, (table_reads_back.2.1 _ table).mpr (by decide)⟩

end Sql
end SchemaMigration
