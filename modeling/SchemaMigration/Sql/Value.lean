import SchemaMigration.Time.Reading

/-!
# SchemaMigration.Sql.Value

What is bound to a statement and what a query's result holds, whatever the database.

* `Value` : a bound parameter or a cell of a result.
* `Row` : a row of a result, read by position.
* `DecodeError` : a cell that does not hold what is expected of it.
* `Row.str`, `Row.optStr`, `Row.int`, `Row.bool`, `Row.timestamp` : the readers.
-/

namespace SchemaMigration
namespace Sql

inductive Value where
  | null
  | bool (flag : Bool)
  | int (number : Int)
  | text (content : String)
  | timestamp (instant : Instant)
deriving DecidableEq, Repr, Inhabited

/-- The value with its type, as complaints show it. -/
def Value.described : Value → String
  | .null => "NULL"
  | .bool flag => if flag then "BOOLEAN true" else "BOOLEAN false"
  | .int number => "BIGINT " ++ toString number
  | .text content => "TEXT '" ++ content ++ "'"
  | .timestamp instant => "TIMESTAMP " ++ instant.text

inductive Expected where
  | any
  | text
  | textOrNull
  | int
  | bool
  | timestamp
deriving DecidableEq, Repr

def Expected.described : Expected → String
  | any => "a value"
  | text => "TEXT"
  | textOrNull => "TEXT or NULL"
  | int => "BIGINT"
  | bool => "BOOLEAN"
  | timestamp => "TIMESTAMP"

/-- What stands where something else was expected. -/
inductive Found where
  | value (value : Value)
  /-- The row ends before the column. -/
  | shortRow (size : Nat)
deriving DecidableEq, Repr

def Found.described : Found → String
  | .value v => v.described
  | .shortRow size => "row with " ++ toString size ++ " columns"

structure DecodeError where
  column : Nat
  expected : Expected
  found : Found
deriving DecidableEq, Repr

structure Row where
  cells : List Value
deriving DecidableEq, Repr, Inhabited

namespace Row

def size (row : Row) : Nat := row.cells.length

def isEmpty (row : Row) : Bool := row.cells.isEmpty

def get (row : Row) (column : Nat) : Except DecodeError Value :=
  match row.cells[column]? with
  | some value => .ok value
  | none => .error ⟨column, .any, .shortRow row.size⟩

/-- The cell in a column, read by a partial function. -/
def read {α : Type} (row : Row) (column : Nat) (expected : Expected) (f : Value → Option α) :
    Except DecodeError α :=
  match row.get column with
  | .error e => .error e
  | .ok value =>
    match f value with
    | some a => .ok a
    | none => .error ⟨column, expected, .value value⟩

def str (row : Row) (column : Nat) : Except DecodeError String :=
  row.read column .text fun
    | .text content => some content
    | _ => none

def optStr (row : Row) (column : Nat) : Except DecodeError (Option String) :=
  row.read column .textOrNull fun
    | .null => some none
    | .text content => some (some content)
    | _ => none

def int (row : Row) (column : Nat) : Except DecodeError Int :=
  row.read column .int fun
    | .int number => some number
    | _ => none

def bool (row : Row) (column : Nat) : Except DecodeError Bool :=
  row.read column .bool fun
    | .bool flag => some flag
    | _ => none

/-- A timestamp or nothing; a text counts when it reads as an instant. -/
def timestamp (row : Row) (column : Nat) : Except DecodeError (Option Instant) :=
  row.read column .timestamp fun
    | .null => some none
    | .timestamp instant => some (some instant)
    | .text content => (Instant.ofText? content).map some
    | _ => none

end Row
end Sql
end SchemaMigration
