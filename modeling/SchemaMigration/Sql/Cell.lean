import SchemaMigration.Sql.Value
import SchemaMigration.Text.Quoted

/-!
# SchemaMigration.Sql.Cell

The values of the database itself, with all its types, and how they correspond to the few values
that the program binds and reads.

* `Cell` : a value inside the database.
* `Cell.ofValue` : a bound parameter as the database takes it.
* `Cell.same` : equality of cells.
* `Cell.value` : a cell of a result as the program reads it. Integers keep their number: one that
  64 bits cannot hold becomes its decimal digits. A type without a counterpart becomes text.
-/

namespace SchemaMigration
namespace Sql

inductive TimeUnit where
  | second
  | millisecond
  | microsecond
  | nanosecond
deriving DecidableEq, Repr

def TimeUnit.name : TimeUnit → String
  | second => "Second"
  | millisecond => "Millisecond"
  | microsecond => "Microsecond"
  | nanosecond => "Nanosecond"

/-- The integer types: signed of 8 to 128 bits, and unsigned of 8 to 128 bits. -/
inductive IntegerType where
  | tiny
  | small
  | int
  | big
  | huge
  | unsignedTiny
  | unsignedSmall
  | unsignedInt
  | unsignedBig
  | unsignedHuge
deriving DecidableEq, Repr

namespace IntegerType

def name : IntegerType → String
  | tiny => "TinyInt"
  | small => "SmallInt"
  | int => "Int"
  | big => "BigInt"
  | huge => "HugeInt"
  | unsignedTiny => "UTinyInt"
  | unsignedSmall => "USmallInt"
  | unsignedInt => "UInt"
  | unsignedBig => "UBigInt"
  | unsignedHuge => "UHugeInt"

def bits : IntegerType → Nat
  | tiny | unsignedTiny => 8
  | small | unsignedSmall => 16
  | int | unsignedInt => 32
  | big | unsignedBig => 64
  | huge | unsignedHuge => 128

def isSigned : IntegerType → Bool
  | tiny | small | int | big | huge => true
  | _ => false

def holds (type : IntegerType) (n : Int) : Bool :=
  if type.isSigned then
    let half : Int := Nat.pow 2 (type.bits - 1)
    n < half && -half ≤ n
  else 0 ≤ n && n < Nat.pow 2 type.bits

end IntegerType

inductive Cell where
  | null
  | boolean (flag : Bool)
  | integer (type : IntegerType) (number : Int)
  | text (content : String)
  /-- A count of units since the start of 1970. -/
  | timestamp (unit : TimeUnit) (count : Int)
  /-- A count of days since the start of 1970. -/
  | date (days : Int)
  /-- A count of units since midnight. -/
  | time (unit : TimeUnit) (count : Int)
  | enumeration (label : String)
  | blob (bytes : List UInt8)
  | list (items : List Cell)
deriving Repr, Inhabited

namespace Cell

abbrev big (number : Int) : Cell := .integer .big number

/-- A parameter as the database takes it; a timestamp is cut down to whole microseconds. -/
def ofValue : Value → Cell
  | .null => .null
  | .bool flag => .boolean flag
  | .int number => .big number
  | .text content => .text content
  | .timestamp instant => .timestamp .microsecond instant.micros

mutual

/-- The cell with the name of its type, for types that have no other text. -/
def described : Cell → String
  | .null => "Null"
  | .boolean flag => if flag then "Boolean(true)" else "Boolean(false)"
  | .integer type number => type.name ++ "(" ++ toString number ++ ")"
  | .text content => "Text(" ++ Text.quoted content ++ ")"
  | .timestamp unit count => "Timestamp(" ++ unit.name ++ ", " ++ toString count ++ ")"
  | .date days => "Date32(" ++ toString days ++ ")"
  | .time unit count => "Time64(" ++ unit.name ++ ", " ++ toString count ++ ")"
  | .enumeration label => "Enum(" ++ Text.quoted label ++ ")"
  | .blob bytes => "Blob([" ++ ", ".intercalate (bytes.map fun b => toString b.toNat) ++ "])"
  | .list items => "List([" ++ describedItems items ++ "])"

def describedItems : List Cell → String
  | [] => ""
  | [item] => described item
  | item :: next :: rest => described item ++ ", " ++ describedItems (next :: rest)

end

mutual

/-- Whether two cells are the same value of the same type. -/
def same : Cell → Cell → Bool
  | .null, .null => true
  | .boolean a, .boolean b => a == b
  | .integer s a, .integer t b => s == t && a == b
  | .text a, .text b => a == b
  | .timestamp s a, .timestamp t b => s == t && a == b
  | .date a, .date b => a == b
  | .time s a, .time t b => s == t && a == b
  | .enumeration a, .enumeration b => a == b
  | .blob a, .blob b => a == b
  | .list a, .list b => sameItems a b
  | _, _ => false

def sameItems : List Cell → List Cell → Bool
  | [], [] => true
  | a :: as, b :: bs => same a b && sameItems as bs
  | _, _ => false

end

theorem same_text (content : String) (cell : Cell) :
    same cell (.text content) = true ↔ cell = .text content := by
  cases cell <;> simp [same]

/-- The nearest number that 64 bits hold. -/
def clamp64 (n : Int) : Int := max (-9223372036854775808) (min n 9223372036854775807)

/-- The microseconds in a count of units. A product beyond 64 bits stays at their end, which is
no instant; a part of a microsecond is dropped toward zero. -/
def microseconds : TimeUnit → Int → Int
  | .second, count => clamp64 (count * 1000000)
  | .millisecond, count => clamp64 (count * 1000)
  | .microsecond, count => count
  | .nanosecond, count => count.tdiv 1000

/-- The value of an integer cell. The widest unsigned type has no counterpart. -/
def integerValue (type : IntegerType) (number : Int) : Value :=
  if type = .unsignedHuge then .text (Cell.integer type number).described
  else if IntegerType.big.holds number then .int number
  else .text (toString number)

/-- A cell of a result as the program reads it; a moment outside the calendar is nothing. -/
def value : Cell → Value
  | .null => .null
  | .boolean flag => .bool flag
  | .integer type number => integerValue type number
  | .text content => .text content
  | .timestamp unit count =>
    match Instant.ofMicros? (microseconds unit count) with
    | some instant => .timestamp instant
    | none => .null
  | other => .text other.described

end Cell
end Sql
end SchemaMigration
