import SchemaMigration.Text.Quoted

/-!
# SchemaMigration.Json.Basic

JSON documents and their two printed forms. The program writes JSON and never reads it, so there
is no reader here.

* `Json` : a document; the members of an object stand in the order in which they are printed.
* `Json.compact` : one line without blanks.
* `Json.pretty` : one element a line, indented by two spaces a level; an empty array or object
  stays closed.
-/

namespace SchemaMigration

inductive Json where
  | str (text : String)
  | int (value : Int)
  | arr (items : List Json)
  | obj (members : List (String × Json))
deriving Repr, Inhabited

namespace Json

/-- Two hexadecimal digits of a code point below 256. -/
def hexPair (n : Nat) : List Char := [Nat.digitChar (n / 16), Nat.digitChar (n % 16)]

/-- One character inside a JSON string. The double quote, the backslash and the controls below
U+0020 are escaped, five of the controls by a letter; everything else stands as it is. -/
def escapeChar (c : Char) : List Char :=
  if c = '"' then ['\\', '"']
  else if c = '\\' then ['\\', '\\']
  else if c = '\n' then ['\\', 'n']
  else if c = '\r' then ['\\', 'r']
  else if c = '\t' then ['\\', 't']
  else if c.toNat = 8 then ['\\', 'b']
  else if c.toNat = 12 then ['\\', 'f']
  else if c.toNat < 32 then ['\\', 'u', '0', '0'] ++ hexPair c.toNat
  else [c]

def stringText (text : String) : String :=
  String.ofList ('"' :: text.toList.flatMap escapeChar ++ ['"'])

mutual

def compact : Json → String
  | .str text => stringText text
  | .int value => toString value
  | .arr items => "[" ++ compactItems items ++ "]"
  | .obj members => "\x7b" ++ compactMembers members ++ "\x7d"

def compactItems : List Json → String
  | [] => ""
  | [item] => compact item
  | item :: next :: rest => compact item ++ "," ++ compactItems (next :: rest)

def compactMembers : List (String × Json) → String
  | [] => ""
  | [(key, value)] => stringText key ++ ":" ++ compact value
  | (key, value) :: next :: rest =>
    stringText key ++ ":" ++ compact value ++ "," ++ compactMembers (next :: rest)

end

/-- A line break followed by the indentation of `level`. -/
def newline (level : Nat) : String := String.ofList ('\n' :: List.replicate (2 * level) ' ')

mutual

/-- The document over several lines, inside `level` enclosing arrays and objects. -/
def prettyAt (level : Nat) : Json → String
  | .str text => stringText text
  | .int value => toString value
  | .arr [] => "[]"
  | .arr (item :: rest) =>
    "[" ++ newline (level + 1) ++ prettyItems (level + 1) (item :: rest) ++ newline level ++ "]"
  | .obj [] => "\x7b\x7d"
  | .obj (member :: rest) =>
    "\x7b" ++ newline (level + 1) ++ prettyMembers (level + 1) (member :: rest) ++
      newline level ++ "\x7d"

def prettyItems (level : Nat) : List Json → String
  | [] => ""
  | [item] => prettyAt level item
  | item :: next :: rest =>
    prettyAt level item ++ "," ++ newline level ++ prettyItems level (next :: rest)

def prettyMembers (level : Nat) : List (String × Json) → String
  | [] => ""
  | [(key, value)] => stringText key ++ ": " ++ prettyAt level value
  | (key, value) :: next :: rest =>
    stringText key ++ ": " ++ prettyAt level value ++ "," ++ newline level ++
      prettyMembers level (next :: rest)

end

def pretty (document : Json) : String := prettyAt 0 document

end Json
end SchemaMigration
