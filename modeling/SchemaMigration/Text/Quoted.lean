import SchemaMigration.Text.CharTable

/-!
# SchemaMigration.Text.Quoted

The quoted form of a text, as messages show a text that may hold anything: between double
quotes, with every character that would not show as itself written as an escape.

`quoted` turns a text into that form, `escaped` one character.
-/

namespace SchemaMigration
namespace Text

/-- The digits of `n` in base sixteen, small letters, without leading zeros. -/
def hexDigits (n : Nat) : List Char := Nat.toDigits 16 n

/-- One character of a quoted text. Tab, carriage return, line feed, NUL, the double quote and
the backslash have short escapes; a character that attaches to its neighbour or does not print
is written by its code point. -/
def escaped (c : Char) : List Char :=
  if c = '\t' then ['\\', 't']
  else if c = '\r' then ['\\', 'r']
  else if c = '\n' then ['\\', 'n']
  else if c = Char.ofNat 0 then ['\\', '0']
  else if c = '"' then ['\\', '"']
  else if c = '\\' then ['\\', '\\']
  else if inRanges combining c.toNat || inRanges unprintable c.toNat then
    ['\\', 'u', '{'] ++ hexDigits c.toNat ++ ['}']
  else [c]

/-- The text between double quotes, each character escaped. -/
def quoted (text : String) : String :=
  String.ofList ('"' :: text.toList.flatMap escaped ++ ['"'])

end Text
end SchemaMigration
