/-!
# SchemaMigration.Text.Table

Tables of text: a line of titles, a line of hyphens and a line for each row.

* `Column` : a column with its title and width.
* `lines` : the lines of a table.

Padding counts characters. `widthOf` counts bytes, so that a column with longer characters is
wider than it looks.
-/

namespace SchemaMigration
namespace Text
namespace Table

inductive Alignment where
  | left
  | right
deriving DecidableEq, Repr

structure Column where
  title : String
  width : Nat
  alignment : Alignment := .left
deriving Repr

/-- The bytes of the longest text, and `least` at least. -/
def widthOf (least : Nat) (texts : List String) : Nat :=
  texts.foldl (fun width text => max width text.utf8ByteSize) least

/-- A text with blanks up to a width; a longer text stays as it is. -/
def pad (alignment : Alignment) (width : Nat) (text : String) : String :=
  let blanks := String.ofList (List.replicate (width - text.length) ' ')
  match alignment with
  | .left => text ++ blanks
  | .right => blanks ++ text

/-- The cells of a line, with two blanks between neighbours. What stands in the last column is
not padded. -/
def line : List Column → List String → String
  | _, [] => ""
  | _, [cell] => cell
  | [], cell :: next :: rest => cell ++ "  " ++ line [] (next :: rest)
  | column :: columns, cell :: next :: rest =>
    pad column.alignment column.width cell ++ "  " ++ line columns (next :: rest)

def rule (columns : List Column) : String :=
  "  ".intercalate (columns.map fun column => String.ofList (List.replicate column.width '-'))

def lines (columns : List Column) (rows : List (List String)) : List String :=
  line columns (columns.map (·.title)) :: rule columns :: rows.map (line columns)

end Table
end Text
end SchemaMigration
