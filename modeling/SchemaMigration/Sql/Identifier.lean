/-!
# SchemaMigration.Sql.Identifier

Quoted identifiers and references to tables.

* `quoteIdentifier` : a name between double quotes, with each double quote inside written twice.
* `readIdentifier?` : the quoted identifier at the beginning of a text.
* `TableRef`, `TableRef.text`, `readTable?` : a table by schema and name, written and read.

Main statements: reading what was written gives the name back and leaves what follows, for
identifiers (`readIdentifier?_quoted`) and for tables (`readTable?_text`).
-/

namespace SchemaMigration
namespace Sql

def doubleQuotes : List Char → List Char
  | [] => []
  | c :: rest => if c = '"' then '"' :: '"' :: doubleQuotes rest else c :: doubleQuotes rest

/-- The characters of a quoted identifier. -/
def quotedChars (name : List Char) : List Char := '"' :: (doubleQuotes name ++ ['"'])

def quoteIdentifier (name : String) : String := String.ofList (quotedChars name.toList)

/-- The name up to the next double quote that stands alone, and what follows that quote. -/
def readQuoted? : List Char → Option (List Char × List Char)
  | [] => none
  | '"' :: '"' :: rest =>
    match readQuoted? rest with
    | none => none
    | some (name, after) => some ('"' :: name, after)
  | c :: rest =>
    if c = '"' then some ([], rest)
    else
      match readQuoted? rest with
      | none => none
      | some (name, after) => some (c :: name, after)

/-- The identifier between double quotes at the beginning of a text, and what follows. -/
def readIdentifier? : List Char → Option (String × List Char)
  | '"' :: rest =>
    match readQuoted? rest with
    | none => none
    | some (name, after) => some (String.ofList name, after)
  | _ => none

theorem readQuoted?_doubled (name : List Char) {rest : List Char} (h : rest.head? ≠ some '"') :
    readQuoted? (doubleQuotes name ++ '"' :: rest) = some (name, rest) := by
  induction name with
  | nil =>
    cases rest with
    | nil => simp [doubleQuotes, readQuoted?]
    | cons c rest =>
      have hc : c ≠ '"' := by simpa using h
      simp only [doubleQuotes, List.nil_append]
      rw [readQuoted?.eq_3] <;> simp [hc]
  | cons c name ih =>
    by_cases hc : c = '"'
    · subst hc; simp [doubleQuotes, readQuoted?, ih]
    · simp only [doubleQuotes, hc, if_false, List.cons_append]
      rw [readQuoted?.eq_3] <;> simp [hc, ih]

theorem readIdentifier?_quoted (name : String) {rest : List Char} (h : rest.head? ≠ some '"') :
    readIdentifier? (quotedChars name.toList ++ rest) = some (name, rest) := by
  simp [quotedChars, readIdentifier?, readQuoted?_doubled _ h]

structure TableRef where
  schema : String
  name : String
deriving DecidableEq, Repr

namespace TableRef

/-- The characters of a reference: both identifiers quoted, with a point between them. -/
def chars (table : TableRef) : List Char :=
  quotedChars table.schema.toList ++ '.' :: quotedChars table.name.toList

def text (table : TableRef) : String := String.ofList table.chars

end TableRef

/-- The table reference at the beginning of a text, and what follows. -/
def readTable? (text : List Char) : Option (TableRef × List Char) :=
  match readIdentifier? text with
  | some (schema, '.' :: rest) =>
    match readIdentifier? rest with
    | some (name, after) => some (⟨schema, name⟩, after)
    | none => none
  | _ => none

theorem readTable?_text (table : TableRef) {rest : List Char} (h : rest.head? ≠ some '"') :
    readTable? (table.chars ++ rest) = some (table, rest) := by
  have inner := readIdentifier?_quoted table.name h
  have outer : readIdentifier?
      (quotedChars table.schema.toList ++ '.' :: (quotedChars table.name.toList ++ rest)) =
        some (table.schema, '.' :: (quotedChars table.name.toList ++ rest)) :=
    readIdentifier?_quoted table.schema (by simp)
  simp only [readTable?, TableRef.chars, List.append_assoc, List.cons_append]
  rw [outer]
  simp only [inner]

end Sql
end SchemaMigration
