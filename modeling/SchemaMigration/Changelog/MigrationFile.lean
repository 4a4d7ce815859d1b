import SchemaMigration.Changelog.Header

/-!
# SchemaMigration.Changelog.MigrationFile

Migration files: a header line for the file, then sections, each a migration's header line with
the body that follows it.

* `MigrationFile.sections` : the sections of a file's lines.
* `MigrationFile.number` : the migrations that sections build, numbered one after the other.
* `MigrationFile.read` : both, with the counter after the file.
-/

namespace SchemaMigration
namespace MigrationFile

open Text

/-- A draft and the lines up to the next section. -/
structure Section where
  draft : Draft
  lines : List (List Char)

/-- Whether a line is the given file header; blanks around it and capitals do not matter. -/
def isFileHeader (header : String) (line : List Char) : Bool :=
  lowerAscii (trim line) = header.toList

/-- The sections of the lines after the file header. Before the first section only blank lines
may stand. -/
def sections (file : Path) (lines : List (List Char)) : Except InputError (List Section) :=
  match lines with
  | [] => .ok []
  | line :: rest =>
    if Header.opensSection line then
      match Header.read file (String.ofList (trim line)) with
      | .error e => .error e
      | .ok draft =>
        match sections file (rest.dropWhile (!Header.opensSection ·)) with
        | .error e => .error e
        | .ok later => .ok (⟨draft, rest.takeWhile (!Header.opensSection ·)⟩ :: later)
    else if isBlankText line then sections file rest
    else .error (.invalidChangelog file (.contentBeforeHeader (String.ofList (trim line))))
termination_by lines.length
decreasing_by
  · have := length_dropWhile_le (!Header.opensSection ·) rest
    simp only [List.length_cons]; omega
  · simp

/-- The draft of a section with its place and its body, the lines between without blanks at
either end. -/
def Section.draftAt (s : Section) (file : Path) (order : Nat) : Draft :=
  { s.draft with
    path := file
    naturalOrder := order
    body := String.ofList (trim (joinWith ['\n'] s.lines)) }

/-- Build the sections' migrations, counting from `next`. The counter that comes back has been
advanced once for each section built, also when a later one fails. -/
def number (file : Path) : (next : Nat) → List Section → Except InputError (List Migration) × Nat
  | next, [] => (.ok [], next)
  | next, s :: rest =>
    match (s.draftAt file next).build with
    | .error e => (.error e, next)
    | .ok migration =>
      match number file (next + 1) rest with
      | (.error e, reached) => (.error e, reached)
      | (.ok migrations, reached) => (.ok (migration :: migrations), reached)

/-- The migrations of a file, numbered from `next`, and the counter after it. The first line that
is not blank has to be the file header. -/
def read (file : Path) (content : String) (next : Nat) :
    Except InputError (List Migration) × Nat :=
  match (lines content.toList).dropWhile isBlankText with
  | [] => (.error (.invalidChangelog file .noFileHeader), next)
  | first :: rest =>
    if isFileHeader migrationFileHeader first then
      match sections file rest with
      | .error e => (.error e, next)
      | .ok found => number file next found
    else (.error (.invalidChangelog file .noFileHeader), next)

end MigrationFile
end SchemaMigration
