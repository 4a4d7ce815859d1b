import Mathlib
import SchemaMigration.Database.Statement
import SchemaMigration.Proofs.Text.Cut
import SchemaMigration.Sql.Dialect
import SchemaMigration.Text.Blank

/-!
# SchemaMigration.Proofs.Sql.Command

The statements on the log, read from their text.

* `Command` : what a text says: the columns that it names, and for each of them the value, which is
  a parameter or the time.
* `Command.read?` : the command that a text is.
* `Column`, `readCreate?` : the columns that a table is created with.
* `read?_selectLog`, `read?_insertLog`, `read?_updateLog`, `read?_updateRunOrder`,
  `readCreate?_createControlTables` : what the embedded database's statements say, for every schema.
-/

namespace SchemaMigration
namespace Sql

open Text Database.Statement

/-- A value in a command. -/
inductive Term where
  /-- A question mark, which takes the next parameter. -/
  | parameter
  /-- The time of the database. -/
  | now
deriving DecidableEq, Repr

inductive Command where
  | insert (table : TableRef) (columns : List String) (values : List Term)
  /-- Assign to columns in the rows whose `key` has a value. -/
  | update (table : TableRef) (assignments : List (String × Term)) (key : String) (value : Term)
  | select (columns : List String) (table : TableRef) (sortedBy : String)
deriving DecidableEq, Repr

/-- The pieces of a list with commas, without blanks around them. -/
def listItems (text : List Char) : List (List Char) := (splitOn ',' text).map trim

def Term.read? (text : List Char) : Option Term :=
  if text = ['?'] then some .parameter else if text = "now()".toList then some .now else none

/-- `column = value`. -/
def readAssignment? (text : List Char) : Option (String × Term) :=
  match cutFirst? '=' text with
  | none => none
  | some (column, value) => (Term.read? (trim value)).map (String.ofList (trim column), ·)

namespace Command

def table : Command → TableRef
  | insert table _ _ | update table _ _ _ | select _ table _ => table

/-- `(columns) VALUES (values)`, with a blank in front. -/
def readValues? (text : List Char) : Option (List String × List Term) :=
  match (dropStart? " (".toList text).bind (cutFirstText? ") VALUES (".toList) with
  | none => none
  | some (columns, rest) =>
    match cutLast? ')' rest with
    | some (values, []) =>
      ((listItems values).mapM Term.read?).map ((listItems columns).map String.ofList, ·)
    | _ => none

/-- `SET assignments WHERE key = value`, with a blank in front. -/
def readAssignments? (text : List Char) : Option (List (String × Term) × String × Term) :=
  match (dropStart? " SET ".toList text).bind (cutFirstText? " WHERE ".toList) with
  | none => none
  | some (assignments, condition) =>
    match (listItems assignments).mapM readAssignment?, readAssignment? condition with
    | some assignments, some condition => some (assignments, condition)
    | _, _ => none

/-- `INSERT INTO table (columns) VALUES (values)`. -/
def readInsert? (text : List Char) : Option Command :=
  match tableBehind? "INSERT INTO " text with
  | none => none
  | some (table, rest) =>
    (readValues? rest).map fun (columns, values) => insert table columns values

/-- `UPDATE table SET assignments WHERE key = value`. -/
def readUpdate? (text : List Char) : Option Command :=
  match tableBehind? "UPDATE " text with
  | none => none
  | some (table, rest) =>
    (readAssignments? rest).map fun (assignments, key, value) =>
      update table assignments key value

/-- `SELECT columns FROM table ORDER BY column`. -/
def readSelect? (text : List Char) : Option Command :=
  match (dropStart? "SELECT ".toList text).bind (cutFirstText? " FROM ".toList) with
  | none => none
  | some (columns, source) =>
    match readTable? source with
    | none => none
    | some (table, rest) =>
      (dropStart? " ORDER BY ".toList rest).map fun column =>
        select ((listItems columns).map String.ofList) table (String.ofList column)

/-- The command that a text is. -/
def read? (text : String) : Option Command :=
  (readInsert? text.toList).or ((readUpdate? text.toList).or (readSelect? text.toList))

end Command

/-! ## The columns of a table -/

inductive ColumnType where
  | varchar
  | bigint
  | timestamptz
deriving DecidableEq, Repr

structure Column where
  name : String
  type : ColumnType
  isKey : Bool := false
  isRequired : Bool := false
deriving DecidableEq, Repr

def ColumnType.read? (text : List Char) : Option ColumnType :=
  if text = "VARCHAR".toList then some .varchar
  else if text = "BIGINT".toList then some .bigint
  else if text = "TIMESTAMPTZ".toList then some .timestamptz
  else none

/-- `name type`, with a constraint or without one. -/
def Column.read? (text : List Char) : Option Column :=
  match splitOn ' ' text with
  | name :: type :: constraint =>
    match ColumnType.read? type with
    | none => none
    | some type =>
      if constraint = [] then some { name := String.ofList name, type }
      else if joinWith [' '] constraint = "PRIMARY KEY".toList then
        some { name := String.ofList name, type, isKey := true }
      else if joinWith [' '] constraint = "NOT NULL".toList then
        some { name := String.ofList name, type, isRequired := true }
      else none
  | _ => none

/-- The first table that a script creates in a schema, which it creates before. -/
def readCreate? (text : String) : Option (TableRef × List Column) :=
  match (dropStart? "CREATE SCHEMA IF NOT EXISTS ".toList text.toList).bind readIdentifier? with
  | none => none
  | some (_, rest) =>
    match (dropStart? ";\nCREATE TABLE IF NOT EXISTS ".toList rest).bind readTable? with
    | none => none
    | some (table, rest) =>
      match (dropStart? " (".toList rest).bind (cutFirstText? "\n);".toList) with
      | none => none
      | some (columns, _) => ((listItems columns).mapM Column.read?).map (table, ·)

/-! ## The statements of the embedded database -/

/-- The columns of the log as they are declared. -/
def logDeclaration : List Column := [
  { name := "name", type := .varchar, isKey := true },
  { name := "filename", type := .varchar, isRequired := true },
  { name := "author", type := .varchar, isRequired := true },
  { name := "run_modifier", type := .varchar, isRequired := true },
  { name := "run_order", type := .bigint, isRequired := true },
  { name := "hash", type := .varchar, isRequired := true },
  { name := "created_at", type := .timestamptz, isRequired := true },
  { name := "last_executed_at", type := .timestamptz, isRequired := true },
  { name := "user_params", type := .varchar }]

theorem toList_behind (lead rest : String) (table : TableRef) :
    (lead ++ table.text ++ rest).toList = lead.toList ++ (table.chars ++ rest.toList) := by
  rw [String.toList_append, String.toList_append, TableRef.text, String.toList_ofList,
    List.append_assoc]

theorem tableBehind?_append (lead : String) (table : TableRef) {rest : List Char}
    (h : rest.head? ≠ some '"') :
    tableBehind? lead (lead.toList ++ (table.chars ++ rest)) = some (table, rest) := by
  rw [tableBehind?, dropStart?_append]
  exact readTable?_text table h

/-- An insertion is what follows its table. -/
theorem read?_of_insert {text clauses : String} {table : TableRef} {columns : List String}
    {values : List Term} (htext : text = "INSERT INTO " ++ table.text ++ clauses)
    (hhead : clauses.toList.head? = some ' ')
    (hclauses : Command.readValues? clauses.toList = some (columns, values)) :
    Command.read? text = some (.insert table columns values) := by
  rw [Command.read?, htext, toList_behind, Command.readInsert?,
    tableBehind?_append _ _ (hhead ▸ by decide)]
  simp only [hclauses]
  rfl

theorem readInsert?_update (rest : List Char) :
    Command.readInsert? ("UPDATE ".toList ++ rest) = none := rfl

/-- So is an update. -/
theorem read?_of_update {text clauses : String} {table : TableRef}
    {assignments : List (String × Term)} {key : String} {value : Term}
    (htext : text = "UPDATE " ++ table.text ++ clauses)
    (hhead : clauses.toList.head? = some ' ')
    (hclauses : Command.readAssignments? clauses.toList = some (assignments, key, value)) :
    Command.read? text = some (.update table assignments key value) := by
  rw [Command.read?, htext, toList_behind, readInsert?_update, Command.readUpdate?,
    tableBehind?_append _ _ (hhead ▸ by decide)]
  simp only [hclauses]
  rfl

/-! ### What the statements say -/

/-- What follows the table where an entry is inserted. -/
def insertClauses : String :=
  " (name, filename, author, run_modifier, run_order, hash, created_at, last_executed_at, " ++
    "user_params) VALUES (?, ?, ?, ?, ?, ?, now(), now(), ?)"

/-- What follows the table where an entry is updated. -/
def updateClauses : String :=
  " SET filename = ?, author = ?, run_modifier = ?, run_order = ?, hash = ?, user_params = ?, " ++
    "last_executed_at = now() WHERE name = ?"

def runOrderClauses : String := " SET run_order = ? WHERE name = ?"

/-- The columns between the words of the query. -/
def columnsText : String :=
  "name, filename, author, run_modifier, run_order, hash, created_at, last_executed_at, " ++
    "user_params"

/-- The lines between the brackets where the log is created. -/
def declarationLines : List String := [
  "    name VARCHAR PRIMARY KEY,", "    filename VARCHAR NOT NULL,", "    author VARCHAR NOT NULL,",
  "    run_modifier VARCHAR NOT NULL,", "    run_order BIGINT NOT NULL,",
  "    hash VARCHAR NOT NULL,", "    created_at TIMESTAMPTZ NOT NULL,",
  "    last_executed_at TIMESTAMPTZ NOT NULL,", "    user_params VARCHAR"]

def declarationsText : String := "\n" ++ "\n".intercalate declarationLines

theorem toList_declarationsText : declarationsText.toList =
    '\n' :: ['\n'].intercalate (declarationLines.map String.toList) := by
  rw [declarationsText, String.toList_append, String.toList_intercalate]
  rfl

section Embedded

variable (schema : String)

theorem statement_insertLog :
    (Dialect.builtin .duckdb).statement .insertLog schema =
      "INSERT INTO " ++ (ControlTable.log.inSchema schema).text ++ insertClauses := by
  have hclauses : " (name, filename, author, run_modifier, run_order, hash, " ++
      ("created_at, last_executed_at, user_params) VALUES (" ++
        (", ".intercalate ["?", "?", "?", "?", "?", "?", "now()", "now()", "?" ++ ""] ++ ")")) =
      insertClauses := by cbv
  simp only [← hclauses, ← String.append_assoc]
  rfl

theorem statement_updateLog :
    (Dialect.builtin .duckdb).statement .updateLog schema =
      "UPDATE " ++ (ControlTable.log.inSchema schema).text ++ updateClauses := by
  have hclauses : " SET filename = " ++ ("?" ++ (", author = " ++ ("?" ++
      (", run_modifier = " ++ ("?" ++ (", run_order = " ++ ("?" ++ (", hash = " ++ ("?" ++
        (", user_params = " ++ ("?" ++ ("" ++ ", last_executed_at = now() WHERE name = ")
          ++ "?"))))))))))) = updateClauses := by cbv
  simp only [← hclauses, ← String.append_assoc]
  rfl

theorem statement_updateRunOrder :
    (Dialect.builtin .duckdb).statement .updateRunOrder schema =
      "UPDATE " ++ (ControlTable.log.inSchema schema).text ++ runOrderClauses := by
  have hclauses : " SET run_order = " ++ ("?" ++ (" WHERE name = " ++ "?")) = runOrderClauses := by
    cbv
  simp only [← hclauses, ← String.append_assoc]
  rfl

theorem statement_selectLog :
    (Dialect.builtin .duckdb).statement .selectLog schema =
      "SELECT " ++ columnsText ++ " FROM " ++ (ControlTable.log.inSchema schema).text ++
        " ORDER BY run_order" := by
  have hcolumns : Wording.duckdb.columns = columnsText := by cbv
  rw [← hcolumns]
  rfl

set_option maxRecDepth 4000 in
/-- The statement that inserts an entry gives the columns their parameters in the order of the
columns, and both times from the clock. -/
theorem read?_insertLog :
    Command.read? ((Dialect.builtin .duckdb).statement .insertLog schema) =
      some (.insert (ControlTable.log.inSchema schema) logColumns
        [.parameter, .parameter, .parameter, .parameter, .parameter, .parameter, .now, .now,
          .parameter]) :=
  read?_of_insert (statement_insertLog schema) (by cbv) (by cbv)

set_option maxRecDepth 4000 in
/-- The statement that updates an entry sets all columns but the name and the time of creation. -/
theorem read?_updateLog :
    Command.read? ((Dialect.builtin .duckdb).statement .updateLog schema) =
      some (.update (ControlTable.log.inSchema schema)
        [("filename", .parameter), ("author", .parameter), ("run_modifier", .parameter),
          ("run_order", .parameter), ("hash", .parameter), ("user_params", .parameter),
          ("last_executed_at", .now)] "name" .parameter) :=
  read?_of_update (statement_updateLog schema) (by cbv) (by cbv)

theorem read?_updateRunOrder :
    Command.read? ((Dialect.builtin .duckdb).statement .updateRunOrder schema) =
      some (.update (ControlTable.log.inSchema schema) [("run_order", .parameter)] "name"
        .parameter) :=
  read?_of_update (statement_updateRunOrder schema) (by cbv) (by cbv)

set_option maxRecDepth 4000 in
theorem read?_selectLog :
    Command.read? ((Dialect.builtin .duckdb).statement .selectLog schema) =
      some (.select logColumns (ControlTable.log.inSchema schema) "run_order") := by
  have hcolumns : (listItems columnsText.toList).map String.ofList = logColumns := by cbv
  have htext : ((Dialect.builtin .duckdb).statement .selectLog schema).toList =
      "SELECT ".toList ++ (columnsText.toList ++ (" FROM ".toList ++
        ((ControlTable.log.inSchema schema).chars ++ " ORDER BY run_order".toList))) := by
    simp only [statement_selectLog, String.toList_append, TableRef.text, String.toList_ofList,
      List.append_assoc]
  have hcut : ∀ rest, cutFirstText? " FROM ".toList (columnsText.toList ++ (" FROM ".toList ++
      rest)) = some (columnsText.toList, rest) :=
    cutFirstText?_append_of_second (by decide) (by decide +kernel)
  rw [Command.read?, htext, Command.readSelect?, dropStart?_append, Option.bind_some, hcut]
  simp only [readTable?_text _ (by decide : " ORDER BY run_order".toList.head? ≠ some '"'),
    hcolumns]
  rfl

/-- The creation of the tables begins with the schema and the log. -/
theorem statement_createControlTables :
    ∃ rest, (Dialect.builtin .duckdb).statement .createControlTables schema =
      "CREATE SCHEMA IF NOT EXISTS " ++ quoteIdentifier schema ++
        (";\nCREATE TABLE IF NOT EXISTS " ++ (ControlTable.log.inSchema schema).text ++
          (" (" ++ declarationsText ++ ("\n);" ++ rest))) := by
  let log := (ControlTable.log.inSchema schema).text
  let lock := (ControlTable.lock.inSchema schema).text
  let lockLines := ["CREATE TABLE IF NOT EXISTS " ++ lock ++ " (",
    "    locked BOOLEAN NOT NULL DEFAULT false", ");",
    "INSERT INTO " ++ lock ++ " (locked) SELECT false WHERE NOT EXISTS (SELECT 1 FROM " ++ lock ++
      ");"]
  have hlines : (Dialect.builtin .duckdb).statement .createControlTables schema =
      "\n".intercalate (("CREATE SCHEMA IF NOT EXISTS " ++ quoteIdentifier schema ++ ";") ::
        ("CREATE TABLE IF NOT EXISTS " ++ log ++ " (") ::
          (declarationLines ++ (");" :: lockLines))) := rfl
  have hcreate : ";\nCREATE TABLE IF NOT EXISTS " =
      ";" ++ ("\n" ++ "CREATE TABLE IF NOT EXISTS ") := by cbv
  have hclose : "\n);" = "\n" ++ ");" := by cbv
  refine ⟨"\n" ++ "\n".intercalate lockLines, ?_⟩
  rw [hlines, String.intercalate_cons_of_ne_nil (List.cons_ne_nil _ _),
    String.intercalate_cons_of_ne_nil (by simp [declarationLines]),
    String.intercalate_append_of_ne_nil (by simp [declarationLines]) (by simp),
    String.intercalate_cons_of_ne_nil (by simp [lockLines]), declarationsText, hcreate, hclose]
  simp only [String.append_assoc]
  rfl

theorem bracket_not_mem_declarationsText : ')' ∉ declarationsText.toList := by
  rw [toList_declarationsText]
  decide +kernel

theorem mapM_read?_declarationsText :
    (listItems declarationsText.toList).mapM Column.read? = some logDeclaration := by
  rw [toList_declarationsText]
  decide +kernel

/-- A creation whose text is known up to its declarations, of which none has a bracket. -/
theorem readCreate?_of_toList {text schema : String} {table : TableRef}
    {declarations rest : List Char} (hbracket : ')' ∉ declarations)
    (htext : text.toList = "CREATE SCHEMA IF NOT EXISTS ".toList ++ (quotedChars schema.toList ++
      (";\nCREATE TABLE IF NOT EXISTS ".toList ++ (table.chars ++ (" (".toList ++
        (declarations ++ ("\n);".toList ++ rest))))))) :
    readCreate? text = ((listItems declarations).mapM Column.read?).map (table, ·) := by
  have hcut : cutFirstText? "\n);".toList (declarations ++ ("\n);".toList ++ rest)) =
      some (declarations, rest) := cutFirstText?_append_of_second (by decide) hbracket rest
  rw [readCreate?, htext, dropStart?_append, Option.bind_some,
    readIdentifier?_quoted schema (by simp)]
  simp only [dropStart?_append, Option.bind_some]
  rw [readTable?_text _ (by simp)]
  simp only [dropStart?_append, Option.bind_some, hcut]

theorem readCreate?_createControlTables :
    readCreate? ((Dialect.builtin .duckdb).statement .createControlTables schema) =
      some (ControlTable.log.inSchema schema, logDeclaration) := by
  obtain ⟨rest, hstatement⟩ := statement_createControlTables schema
  have htext : ((Dialect.builtin .duckdb).statement .createControlTables schema).toList =
      "CREATE SCHEMA IF NOT EXISTS ".toList ++ (quotedChars schema.toList ++
        (";\nCREATE TABLE IF NOT EXISTS ".toList ++ ((ControlTable.log.inSchema schema).chars ++
          (" (".toList ++ (declarationsText.toList ++ ("\n);".toList ++ rest.toList)))))) := by
    simp only [hstatement, String.toList_append, TableRef.text, quoteIdentifier,
      String.toList_ofList, List.append_assoc]
  rw [readCreate?_of_toList bracket_not_mem_declarationsText htext, mapM_read?_declarationsText,
    Option.map_some]

end Embedded

end Sql
end SchemaMigration
