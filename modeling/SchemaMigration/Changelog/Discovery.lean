import SchemaMigration.Changelog.MigrationFile

/-!
# SchemaMigration.Changelog.Discovery

Changelogs are the files with the extension `ordo` at any depth below the changelog directories.
A changelog whose first line is the changelog header lists migration files, one a line, relative
to its own directory; blank lines and lines that begin with `--` list nothing.

* `Changelog.discover` : the changelogs below some directories, sorted, each once.
* `Changelog.migrationPaths` : the files that a changelog lists.
* `Changelog.load` : the migrations of all changelogs, numbered from 0 in the order of discovery.
-/

namespace SchemaMigration
namespace Changelog

open Text

/-- The first line of a changelog. -/
def header : String := "--ordo-changelog"

def extension : String := "ordo"

/-- A file below `directory`, by the names that lead down to it. -/
def pathBelow (directory : Path) (names : Location) : Path :=
  names.foldl Path.join directory

/-- Whether the last name has the extension of changelogs. -/
def isChangelogName (names : Location) : Bool :=
  match names.getLast? with
  | none => false
  | some name => Path.extension? name == some extension

/-- The changelogs at any depth below one directory. -/
def below (tree : Tree) (directory : Path) : List Path :=
  match tree.resolve? directory with
  | none => []
  | some location => ((tree.filesBelow location).filter isChangelogName).map (pathBelow directory)

/-- The changelogs below directories, one directory after the other. -/
def collect (tree : Tree) : List Path → Except InputError (List Path)
  | [] => .ok []
  | directory :: rest =>
    if tree.isDirectory directory then
      match collect tree rest with
      | .error e => .error e
      | .ok found => .ok (below tree directory ++ found)
    else .error (.changelogDirectoryNotFound directory)

/-- Keep the first of neighbours with the same parts. -/
def dropRepeats : List Path → List Path
  | [] => []
  | path :: rest =>
    match dropRepeats rest with
    | [] => [path]
    | next :: more =>
      if path.components = next.components then path :: more else path :: next :: more

/-- The changelogs below directories in the order of their paths, each once. -/
def discover (tree : Tree) (directories : List Path) : Except InputError (List Path) :=
  match collect tree directories with
  | .error e => .error e
  | .ok found => .ok (dropRepeats (found.mergeSort Path.le))

def readFile (tree : Tree) (path : Path) : Except InputError String :=
  match tree.read path with
  | .error failure => .error (.unreadable path failure)
  | .ok text => .ok text

/-- The lines of a changelog that name files. -/
def listedNames (content : String) : List String :=
  ((lines content.toList).map trim).filterMap fun line =>
    if line.isEmpty || startsWith ['-', '-'] line then none else some (String.ofList line)

/-- The files that a changelog lists, as paths from its directory. Each has to be a file. -/
def migrationPaths (tree : Tree) (changelog : Path) (content : String) :
    Except InputError (List Path) :=
  let directory := changelog.parent?.getD ⟨"."⟩
  (listedNames content).foldr
    (fun name rest =>
      if tree.isFile (directory.join name) then
        match rest with
        | .error e => .error e
        | .ok paths => .ok (directory.join name :: paths)
      else .error (.migrationFileNotFound name changelog))
    (.ok [])

def hasHeader (content : String) : Bool :=
  match lines content.toList with
  | [] => false
  | first :: _ => MigrationFile.isFileHeader header first

/-- The migrations of files, numbered on from `next`, and the counter after them. -/
def readFiles (tree : Tree) : (next : Nat) → List Path → Except InputError (List Migration × Nat)
  | next, [] => .ok ([], next)
  | next, path :: rest =>
    match readFile tree path with
    | .error e => .error e
    | .ok content =>
      match MigrationFile.read path content next with
      | (.error e, _) => .error e
      | (.ok migrations, reached) =>
        match readFiles tree reached rest with
        | .error e => .error e
        | .ok (later, final) => .ok (migrations ++ later, final)

/-- The migrations of changelogs, numbered on from `next`. A file without the header is no
changelog and is passed over. -/
def readAll (tree : Tree) : (next : Nat) → List Path → Except InputError (List Migration)
  | _, [] => .ok []
  | next, changelog :: rest =>
    match readFile tree changelog with
    | .error e => .error e
    | .ok content =>
      if hasHeader content then
        match migrationPaths tree changelog content with
        | .error e => .error e
        | .ok paths =>
          match readFiles tree next paths with
          | .error e => .error e
          | .ok (migrations, reached) =>
            match readAll tree reached rest with
            | .error e => .error e
            | .ok later => .ok (migrations ++ later)
      else readAll tree next rest

/-- The migrations of all changelogs below directories. -/
def load (tree : Tree) (directories : List Path) : Except InputError (List Migration) :=
  match discover tree directories with
  | .error e => .error e
  | .ok changelogs => readAll tree 0 changelogs

end Changelog
end SchemaMigration
