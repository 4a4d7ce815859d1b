/-!
# SchemaMigration.Yaml.Cursor

A place in a YAML text, with its line and column, and the text that follows.

* `isBreak`, `isBlank` : the characters that end a line, and those that separate inside one.
* `Cursor` : the place; `Cursor.skip`, `Cursor.skipWhile`, `Cursor.takeBreak?` move it.
* `Gap` : the blanks and line breaks between two parts of a scalar, and what they amount to.
-/

namespace SchemaMigration
namespace Yaml

/-- Line feed, carriage return, next line, line separator and paragraph separator. -/
def isBreak (c : Char) : Bool :=
  c == '\n' || c == '\r' || c.toNat == 0x85 || c.toNat == 0x2028 || c.toNat == 0x2029

/-- Space and tab. -/
def isBlank (c : Char) : Bool := c == ' ' || c == '\t'

/-- A character that a text may hold at all: no control besides tab and line breaks. -/
def isAllowed (c : Char) : Bool :=
  let n := c.toNat
  n == 9 || n == 10 || n == 13 || (0x20 ≤ n && n ≤ 0x7E) || n == 0x85 ||
    (0xA0 ≤ n && n ≤ 0xD7FF) || (0xE000 ≤ n && n ≤ 0xFFFD) || (0x10000 ≤ n && n ≤ 0x10FFFF)

/-- A letter, a digit, an underscore or a hyphen. -/
def isWordChar (c : Char) : Bool := c.isAlphanum || c == '_' || c == '-'

/-- A place in a text. Lines and columns count from 0. -/
structure Cursor where
  rest : List Char
  index : Nat := 0
  line : Nat := 0
  column : Nat := 0
deriving Repr

namespace Cursor

def ahead? (cursor : Cursor) (n : Nat) : Option Char := cursor.rest[n]?

/-- Whether a word ends `n` places ahead: at a blank, a line break or the end. -/
def endsAt (cursor : Cursor) (n : Nat) : Bool :=
  match cursor.ahead? n with
  | none => true
  | some c => isBlank c || isBreak c

def atLineEnd (cursor : Cursor) : Bool :=
  match cursor.rest with
  | [] => true
  | c :: _ => isBreak c

def skip (cursor : Cursor) (n : Nat) : Cursor :=
  { cursor with
    rest := cursor.rest.drop n, index := cursor.index + n, column := cursor.column + n }

/-- The characters up to the first one without `p`, and the place of that one. -/
def span (cursor : Cursor) (p : Char → Bool) : List Char × Cursor :=
  let found := cursor.rest.takeWhile p
  (found, cursor.skip found.length)

def skipWhile (cursor : Cursor) (p : Char → Bool) : Cursor := (cursor.span p).2

def nextLine (cursor : Cursor) (width : Nat) : Cursor :=
  { rest := cursor.rest.drop width, index := cursor.index + width, line := cursor.line + 1 }

/-- The line break that stands here, and the place after it. All breaks count as a line feed, but
the two separators stay what they are; carriage return and line feed are one break. -/
def takeBreak? (cursor : Cursor) : Option (List Char × Cursor) :=
  match cursor.rest with
  | '\r' :: '\n' :: _ => some (['\n'], cursor.nextLine 2)
  | c :: _ =>
    if !isBreak c then none
    else if c.toNat = 0x2028 ∨ c.toNat = 0x2029 then some ([c], cursor.nextLine 1)
    else some (['\n'], cursor.nextLine 1)
  | [] => none

/-- Whether the three characters here are `mark`, at the beginning of a line and as a word. -/
def atMark (cursor : Cursor) (mark : Char) : Bool :=
  cursor.column == 0 && cursor.rest.take 3 == [mark, mark, mark] && cursor.endsAt 3

/-- Whether a document begins or ends here. -/
def atDocumentMark (cursor : Cursor) : Bool := cursor.atMark '-' || cursor.atMark '.'

end Cursor

/-- The blanks and line breaks since the last character of a scalar. -/
structure Gap where
  /-- Blanks before any line break. -/
  blanks : List Char := []
  /-- Whether a line has ended. -/
  broken : Bool := false
  firstBreak : List Char := []
  laterBreaks : List Char := []
deriving Repr

namespace Gap

def isEmpty (gap : Gap) : Bool := gap.blanks.isEmpty && !gap.broken

/-- Blanks count only before the first line break. -/
def addBlank (gap : Gap) (c : Char) : Gap :=
  if gap.broken then gap else { gap with blanks := gap.blanks ++ [c] }

def addBreak (gap : Gap) (lineBreak : List Char) : Gap :=
  if gap.broken then { gap with laterBreaks := gap.laterBreaks ++ lineBreak }
  else { broken := true, firstBreak := lineBreak }

/-- What a gap amounts to: a single line feed becomes a space, and one of several is dropped. -/
def text (gap : Gap) : List Char :=
  if !gap.broken then gap.blanks
  else if gap.firstBreak = ['\n'] then
    if gap.laterBreaks.isEmpty then [' '] else gap.laterBreaks
  else gap.firstBreak ++ gap.laterBreaks

end Gap
end Yaml
end SchemaMigration
