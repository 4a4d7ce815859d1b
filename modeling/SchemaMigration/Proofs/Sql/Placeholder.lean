import SchemaMigration.Sql.Dialect

/-!
# SchemaMigration.Proofs.Sql.Placeholder

A quoted identifier binds no parameters, whatever its characters are.

* `EndsOutside` : the counting of parameters stands outside quotes at the end of a text.
* `Scan.foldl_quotedChars`, `Scan.foldl_table` : what an identifier and a reference to a table do
  to a scan. A double quote inside an identifier is written twice: the first one ends the quotes
  and the second one begins them again.
* `countPlaceholders_builtin` : the parameters of the known statements, for every schema.
* `Dialect.check_eq_ok_iff` : what the check of a dialect asks for.

`identifiers_bind_nothing` : the known dialects pass the check for every schema, and a text takes
as many parameters whichever identifier is quoted in it.
-/

namespace SchemaMigration
namespace Sql

namespace Scan

/-- A number that is being read does not count as being inside quotes. -/
def isOutside (scan : Scan) : Bool :=
  match scan.place with
  | .quoted _ => false
  | _ => true

theorem step_doubleQuote {scan : Scan} (h : scan.isOutside = true) :
    scan.step '"' = { scan.settle with place := .quoted '"' } := by
  obtain ⟨place, anonymous, numbers⟩ := scan
  cases place with
  | plain => rfl
  | quoted mark => simp [isOutside] at h
  | numbered digits =>
    have hdigit : '"'.isDigit = false := by decide
    simp only [step, hdigit, stepPlain]
    rfl

theorem place_settle {scan : Scan} (h : scan.isOutside = true) : scan.settle.place = .plain := by
  obtain ⟨place, anonymous, numbers⟩ := scan
  cases place with
  | plain => rfl
  | quoted mark => simp [isOutside] at h
  | numbered digits =>
    unfold settle
    dsimp only
    split <;> rfl

/-- Inside double quotes, what is written twice comes to nothing, like everything else. -/
theorem foldl_doubleQuotes {scan : Scan} (h : scan.place = .quoted '"') (name : List Char) :
    (doubleQuotes name).foldl step scan = scan := by
  induction name with
  | nil => rfl
  | cons c rest ih =>
    by_cases hc : c = '"'
    · have hopen : (scan.step '"').step '"' = scan := by
        simp [step, h, stepPlain]
        rw [← h]
      simp [doubleQuotes, hc, hopen, ih]
    · have hstay : scan.step c = scan := by simp [step, h, hc]
      simp [doubleQuotes, hc, hstay, ih]

theorem foldl_quotedChars {scan : Scan} (h : scan.isOutside = true) (name : List Char) :
    (quotedChars name).foldl step scan = scan.settle := by
  have hplain := place_settle h
  rw [quotedChars, List.foldl_cons, List.foldl_append, step_doubleQuote h, foldl_doubleQuotes rfl]
  show { scan.settle with place := .plain } = scan.settle
  rw [← hplain]

end Scan

/-- Whether a double quote that comes next would begin an identifier. -/
def EndsOutside (text : String) : Prop := (text.toList.foldl Scan.step {}).isOutside = true

instance (text : String) : Decidable (EndsOutside text) :=
  inferInstanceAs (Decidable (_ = true))

theorem countPlaceholders_quoted {lead : String} (h : EndsOutside lead) (name rest : String) :
    countPlaceholders (lead ++ quoteIdentifier name ++ rest) =
      (rest.toList.foldl Scan.step (lead.toList.foldl Scan.step {}).settle).count := by
  rw [countPlaceholders, String.toList_append, String.toList_append, quoteIdentifier,
    String.toList_ofList, List.foldl_append, List.foldl_append, Scan.foldl_quotedChars h]

/-! ## The statements on the control tables -/

/-- So does the name of a table: two identifiers with a point between them. -/
theorem Scan.foldl_table {scan : Scan} (h : scan.isOutside = true) (table : TableRef) :
    table.text.toList.foldl step scan = scan.settle := by
  have hplain := place_settle h
  have hpoint : scan.settle.step '.' = scan.settle := by simp [step, hplain, stepPlain]
  have hagain : scan.settle.settle = scan.settle := by simp [settle.eq_1 scan.settle, hplain]
  have houtside : scan.settle.isOutside = true := by simp [isOutside, hplain]
  rw [TableRef.text, String.toList_ofList, TableRef.chars, List.foldl_append, List.foldl_cons,
    foldl_quotedChars h, hpoint, foldl_quotedChars houtside, hagain]

theorem countPlaceholders_builtin (kind : DatabaseKind) (schema : String)
    {purpose : ControlStatement} {expected : Nat} (h : purpose.parameterCount? = some expected) :
    countPlaceholders ((Dialect.builtin kind).statement purpose schema) = expected := by
  cases kind <;> cases purpose <;> cases h
  all_goals
    unfold countPlaceholders Dialect.builtin
    -- the text is too long for the equations of its definition
    delta Wording.statement
    simp only [String.toList_append, List.foldl_append]
  case duckdb.tableExists | postgres.tableExists => decide +kernel
  -- everywhere else the schema is named in the one reference to a table
  all_goals rw [Scan.foldl_table] <;> decide +kernel

namespace Dialect

variable {dialect : Dialect} {schema : String}

theorem mismatch?_eq_none_iff {purposes : List ControlStatement} :
    dialect.mismatch? schema purposes = none ↔
      ∀ purpose ∈ purposes, ∀ expected, purpose.parameterCount? = some expected →
        countPlaceholders (dialect.statement purpose schema) = expected := by
  induction purposes with
  | nil => simp [mismatch?]
  | cons purpose rest ih =>
    rw [List.forall_mem_cons, ← ih, mismatch?]
    cases hcount : purpose.parameterCount? with
    | none => simp
    | some expected =>
      by_cases hsame : countPlaceholders (dialect.statement purpose schema) = expected
      · simp [hsame]
      · simp [hsame]

theorem check_eq_ok_iff :
    dialect.check schema = .ok () ↔
      ∀ purpose expected, purpose.parameterCount? = some expected →
        countPlaceholders (dialect.statement purpose schema) = expected := by
  have hall : ∀ purpose, purpose ∈ ControlStatement.all := by
    intro purpose
    cases purpose <;> decide
  have hiff : dialect.mismatch? schema ControlStatement.all = none ↔ _ := mismatch?_eq_none_iff
  rw [check]
  cases hmismatch : dialect.mismatch? schema ControlStatement.all with
  | none =>
    rw [hmismatch] at hiff
    simpa using fun purpose => hiff.mp rfl purpose (hall purpose)
  | some mismatch =>
    rw [hmismatch] at hiff
    refine ⟨nofun, fun h => ?_⟩
    exact absurd (hiff.mpr fun purpose _ => h purpose) (by simp)

end Dialect

/-- No schema makes the check of the known dialects fail, and what an identifier holds is never
taken for a parameter. -/
theorem identifiers_bind_nothing :
    (∀ kind schema, (Dialect.builtin kind).check schema = .ok ()) ∧
      ∀ lead : String, EndsOutside lead → ∀ name other rest : String,
        countPlaceholders (lead ++ quoteIdentifier name ++ rest) =
          countPlaceholders (lead ++ quoteIdentifier other ++ rest) := by
  constructor
  · intro kind schema
    refine Dialect.check_eq_ok_iff.mpr fun purpose expected h => ?_
    exact countPlaceholders_builtin kind schema h
  · intro lead h name other rest
    rw [countPlaceholders_quoted h, countPlaceholders_quoted h]

theorem identifiers_bind_nothing_quotes :
    EndsOutside "SELECT $1 FROM " ∧
      countPlaceholders ("SELECT $1 FROM " ++ quoteIdentifier "a\"?\" '$2" ++ " WHERE b = $12") =
        countPlaceholders ("SELECT $1 FROM " ++ quoteIdentifier "" ++ " WHERE b = $12") ∧
      countPlaceholders ("SELECT $1 FROM " ++ quoteIdentifier "" ++ " WHERE b = $12") = 2 :=
  have houtside : EndsOutside "SELECT $1 FROM " := by decide +kernel
  ⟨houtside, identifiers_bind_nothing.2 "SELECT $1 FROM " houtside "a\"?\" '$2" ""
    " WHERE b = $12", by decide +kernel⟩

end Sql
end SchemaMigration
