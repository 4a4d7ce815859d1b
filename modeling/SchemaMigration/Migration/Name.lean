import SchemaMigration.Text.Blank
import SchemaMigration.Text.Quoted

/-!
# SchemaMigration.Migration.Name

Names of migrations. A name identifies a migration in changelogs and in the history, so it must
survive as one token of a header and as one item of a list of names: it is not empty and holds no
blank, colon or comma.

* `Name` : a text with that property.
* `Name.ofText?`, `Name.read` : the name that a text is, or why it is none.
-/

namespace SchemaMigration

def isNameChar (c : Char) : Bool := !(Text.isBlank c || c == ':' || c == ',')

def isNameText (text : String) : Bool := !text.toList.isEmpty && text.toList.all isNameChar

structure Name where
  text : String
  isName : isNameText text = true
deriving DecidableEq

namespace Name

instance : Repr Name := ⟨fun name _ => repr name.text⟩

theorem text_injective {a b : Name} (h : a.text = b.text) : a = b := by
  cases a; cases b; cases h; rfl

def ofText? (text : String) : Option Name :=
  if h : isNameText text = true then some ⟨text, h⟩ else none

/-- The name that a text is, or the complaint that quotes the text. -/
def read (text : String) : Except String Name :=
  match ofText? text with
  | some name => .ok name
  | none => .error ("invalid migration name: " ++ Text.quoted text)

/-- Names are ordered by their characters' code points. -/
def le (a b : Name) : Bool := decide (a.text ≤ b.text)

/-- The names that texts are, in ascending order; other texts are left out. -/
def sorted (texts : List String) : List Name := (texts.filterMap ofText?).mergeSort le

end Name
end SchemaMigration
