/-!
# SchemaMigration.Sql.Placeholder

The places in a statement where parameters are bound: a question mark each, or a dollar sign with
a number. Quoted text binds nothing.

* `Scan`, `Scan.step` : what has been counted after some characters, one character at a time.
* `countPlaceholders` : the number of parameters that a statement takes.
-/

namespace SchemaMigration
namespace Sql

inductive Place where
  | plain
  /-- Inside the quotes that `mark` opened. -/
  | quoted (mark : Char)
  /-- After a dollar sign and some digits. -/
  | numbered (digits : List Char)
deriving DecidableEq, Repr

structure Scan where
  place : Place := .plain
  anonymous : Nat := 0
  /-- The numbers after dollar signs, each once. -/
  numbers : List Nat := []
deriving DecidableEq, Repr

namespace Scan

/-- The number that digits spell, if there is a digit and the number has at most 32 bits. -/
def parameterNumber? (digits : List Char) : Option Nat :=
  let n := digits.foldl (fun n c => 10 * n + (c.toNat - 48)) 0
  if digits.isEmpty || 4294967296 ≤ n then none else some n

/-- End a number, if one is being read. -/
def settle (scan : Scan) : Scan :=
  match scan.place with
  | .numbered digits =>
    match parameterNumber? digits with
    | none => { scan with place := .plain }
    | some n => { scan with place := .plain, numbers := scan.numbers.insert n }
  | _ => scan

def stepPlain (scan : Scan) (c : Char) : Scan :=
  if c = '\'' ∨ c = '"' then { scan with place := .quoted c }
  else if c = '?' then { scan with anonymous := scan.anonymous + 1 }
  else if c = '$' then { scan with place := .numbered [] }
  else scan

def step (scan : Scan) (c : Char) : Scan :=
  match scan.place with
  | .quoted mark => if c = mark then { scan with place := .plain } else scan
  | .numbered digits =>
    if c.isDigit then { scan with place := .numbered (digits ++ [c]) }
    else scan.settle.stepPlain c
  | .plain => scan.stepPlain c

def count (scan : Scan) : Nat := scan.settle.anonymous + scan.settle.numbers.length

end Scan

/-- The number of parameters that a statement takes: its question marks and its distinct numbers
after dollar signs. -/
def countPlaceholders (text : String) : Nat := (text.toList.foldl Scan.step {}).count

end Sql
end SchemaMigration
