/-!
# SchemaMigration.Text.Split

Cutting texts at separators.

* `splitOn` : cut at every occurrence of a character.
* `lines` : the lines of a text, whether they end in a line feed or in carriage return plus
  line feed.
* `cutFirst?`, `cutFirstText?`, `cutLast?` : the two sides of one separator.
* `dropStart?` : what follows a given beginning.
* `occursIn` : whether one text stands somewhere inside another.
-/

namespace SchemaMigration
namespace Text

/-- Cut at every `sep`: n separators give n + 1 pieces, some perhaps empty. -/
def splitOn (sep : Char) : List Char → List (List Char)
  | [] => [[]]
  | c :: rest =>
    if c = sep then [] :: splitOn sep rest
    else
      match splitOn sep rest with
      | [] => [[c]]
      | piece :: pieces => (c :: piece) :: pieces

theorem splitOn_ne_nil (sep : Char) (text : List Char) : splitOn sep text ≠ [] := by
  cases text with
  | nil => simp [splitOn]
  | cons c rest =>
    simp only [splitOn]
    split
    · simp
    · split <;> simp

/-- Put pieces together with `sep` between neighbours. -/
def joinWith (sep : List Char) : List (List Char) → List Char
  | [] => []
  | [piece] => piece
  | piece :: next :: pieces => piece ++ sep ++ joinWith sep (next :: pieces)

/-- Splitting loses nothing. -/
theorem joinWith_splitOn (sep : Char) (text : List Char) :
    joinWith [sep] (splitOn sep text) = text := by
  induction text with
  | nil => rfl
  | cons c rest ih =>
    simp only [splitOn]
    split
    · rename_i h
      subst h
      cases hs : splitOn c rest with
      | nil => exact absurd hs (splitOn_ne_nil c rest)
      | cons piece pieces => rw [hs] at ih; simp [joinWith, ih]
    · cases hs : splitOn sep rest with
      | nil => exact absurd hs (splitOn_ne_nil sep rest)
      | cons piece pieces =>
        rw [hs] at ih
        cases pieces with
        | nil => simp only [joinWith] at ih ⊢; rw [ih]
        | cons next more => simp only [joinWith, List.cons_append] at ih ⊢; rw [ih]

/-- Drop one carriage return at the end. -/
def dropReturn (line : List Char) : List Char :=
  match line.getLast? with
  | some '\r' => line.dropLast
  | _ => line

/-- The lines of a text. A line feed ends a line and takes one carriage return before it along;
nothing follows a final line feed, and a carriage return at the very end stays. -/
def lines (text : List Char) : List (List Char) :=
  let pieces := splitOn '\n' text
  let final := pieces.getLast?.getD []
  pieces.dropLast.map dropReturn ++ if final.isEmpty then [] else [final]

/-- The two sides of the first `sep`. -/
def cutFirst? (sep : Char) : List Char → Option (List Char × List Char)
  | [] => none
  | c :: rest =>
    if c = sep then some ([], rest)
    else
      match cutFirst? sep rest with
      | none => none
      | some (before, after) => some (c :: before, after)

/-- The two sides of the last `sep`. -/
def cutLast? (sep : Char) : List Char → Option (List Char × List Char)
  | [] => none
  | c :: rest =>
    match cutLast? sep rest with
    | some (before, after) => some (c :: before, after)
    | none => if c = sep then some ([], rest) else none

/-- What follows `start` in a text that begins with it. -/
def dropStart? : (start text : List Char) → Option (List Char)
  | [], text => some text
  | _ :: _, [] => none
  | s :: start, c :: text => if s = c then dropStart? start text else none

theorem dropStart?_append (start rest : List Char) :
    dropStart? start (start ++ rest) = some rest := by
  induction start with
  | nil => rfl
  | cons c start ih => simp [dropStart?, ih]

theorem dropStart?_eq_some {start text rest : List Char}
    (h : dropStart? start text = some rest) : text = start ++ rest := by
  induction start generalizing text with
  | nil => simpa [dropStart?] using h
  | cons s start ih =>
    cases text with
    | nil => simp [dropStart?] at h
    | cons c text =>
      simp only [dropStart?] at h
      split at h
      · rename_i hc; rw [hc, List.cons_append, ih h]
      · cases h

def startsWith (start text : List Char) : Bool := (dropStart? start text).isSome

/-- The two sides of the first occurrence of the text `sep`. -/
def cutFirstText? (sep : List Char) : List Char → Option (List Char × List Char)
  | [] => match dropStart? sep [] with
    | some rest => some ([], rest)
    | none => none
  | c :: text =>
    match dropStart? sep (c :: text) with
    | some rest => some ([], rest)
    | none =>
      match cutFirstText? sep text with
      | none => none
      | some (before, after) => some (c :: before, after)

def occursIn (part text : List Char) : Bool := (cutFirstText? part text).isSome

/-- ASCII capitals become small letters; every other character stays. -/
def lowerAscii (text : List Char) : List Char := text.map Char.toLower

end Text
end SchemaMigration
