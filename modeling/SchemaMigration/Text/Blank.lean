/-!
# SchemaMigration.Text.Blank

Blank characters and the text operations that look at nothing else: trimming and cutting into
words. The blank characters are the 25 code points of the `White_Space` property, so a no-break
space or an ideographic space separates words like a plain space does, and a zero-width space
does not.

* `isBlank` : the character class.
* `trimStart`, `trimEnd`, `trim` : drop blank characters at the ends.
* `words` : the maximal runs of characters that are not blank.
-/

namespace SchemaMigration
namespace Text

/-- Membership in the `White_Space` property. -/
def isBlank (c : Char) : Bool :=
  let n := c.toNat
  (9 ≤ n && n ≤ 13) || n == 0x20 || n == 0x85 || n == 0xA0 || n == 0x1680 ||
    (0x2000 ≤ n && n ≤ 0x200A) || n == 0x2028 || n == 0x2029 || n == 0x202F ||
    n == 0x205F || n == 0x3000

/-- Drop the blank characters before the first other one. -/
def trimStart (text : List Char) : List Char := text.dropWhile isBlank

/-- Drop the blank characters after the last other one. -/
def trimEnd (text : List Char) : List Char := (text.reverse.dropWhile isBlank).reverse

def trim (text : List Char) : List Char := trimEnd (trimStart text)

def isBlankText (text : List Char) : Bool := text.all isBlank

theorem length_dropWhile_le {α : Type} (p : α → Bool) (items : List α) :
    (items.dropWhile p).length ≤ items.length := by
  induction items with
  | nil => simp
  | cons item rest ih =>
    by_cases h : p item
    · simp only [List.dropWhile_cons, h, if_true, List.length_cons]; omega
    · simp [h]

/-- The maximal runs of characters that are not blank, in order. -/
def words (text : List Char) : List (List Char) :=
  match text with
  | [] => []
  | c :: rest =>
    if isBlank c then words rest
    else (c :: rest.takeWhile (!isBlank ·)) :: words (rest.dropWhile (!isBlank ·))
termination_by text.length
decreasing_by
  · simp
  · have := length_dropWhile_le (!isBlank ·) rest
    simp only [List.length_cons]; omega

end Text

def trimmed (text : String) : String := String.ofList (Text.trim text.toList)

end SchemaMigration
