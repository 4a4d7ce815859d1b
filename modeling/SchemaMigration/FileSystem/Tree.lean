import SchemaMigration.FileSystem.Path

/-!
# SchemaMigration.FileSystem.Tree

The files that a run can see, as a value: what stands at each place below the working directory.

* `Content` : what a file holds, text or bytes that are no text.
* `Tree` : the entries by location, a location being the names on the way down.
* `Tree.resolve?` : the location that a path names, segment by segment as an operating system
  walks it, so that `file/` and `file/.` name nothing.
* `Tree.isFile`, `Tree.isDirectory`, `Tree.read` : questions about a path.
* `Tree.filesBelow` : the files at any depth below a location.
-/

namespace SchemaMigration

inductive Content where
  | text (text : String)
  | notText
deriving DecidableEq, Repr

def Content.ofBytes (bytes : ByteArray) : Content :=
  match String.fromUTF8? bytes with
  | some decoded => .text decoded
  | none => .notText

/-- The names on the way down from the working directory. -/
abbrev Location := List String

inductive Entry where
  | file (content : Content)
  | directory
deriving Repr

inductive ReadFailure where
  | notFound
  | isDirectory
  | notText
deriving DecidableEq, Repr

def ReadFailure.message : ReadFailure → String
  | .notFound => "No such file or directory (os error 2)"
  | .isDirectory => "Is a directory (os error 21)"
  | .notText => "stream did not contain valid UTF-8"

/-- What stands where. Each location occurs once; the working directory itself does not occur. -/
structure Tree where
  entries : List (Location × Entry)
deriving Inhabited

namespace Tree

def empty : Tree := ⟨[]⟩

def entryAt? (tree : Tree) (location : Location) : Option Entry :=
  if location.isEmpty then some .directory else tree.entries.lookup location

def isDirectoryAt (tree : Tree) (location : Location) : Bool :=
  match tree.entryAt? location with
  | some .directory => true
  | _ => false

/-- Follow segments from `here`. Each step needs a directory to start from; the working
directory's own parent is outside the tree. -/
def walk (tree : Tree) : (here : Location) → List (List Char) → Option Location
  | here, [] => some here
  | here, segment :: rest =>
    if !tree.isDirectoryAt here then none
    else if Path.isIdle segment then tree.walk here rest
    else if segment = ['.', '.'] then
      if here.isEmpty then none else tree.walk here.dropLast rest
    else tree.walk (here ++ [String.ofList segment]) rest

/-- The location that a path names, whether or not something stands there. The empty path names
nothing, and an absolute one lies outside the tree. -/
def resolve? (tree : Tree) (path : Path) : Option Location :=
  if path.isAbsolute || path.text.isEmpty then none else tree.walk [] path.segments

def entry? (tree : Tree) (path : Path) : Option Entry :=
  match tree.resolve? path with
  | none => none
  | some location => tree.entryAt? location

def exists? (tree : Tree) (path : Path) : Bool := (tree.entry? path).isSome

def isFile (tree : Tree) (path : Path) : Bool :=
  match tree.entry? path with
  | some (.file _) => true
  | _ => false

def isDirectory (tree : Tree) (path : Path) : Bool :=
  match tree.entry? path with
  | some .directory => true
  | _ => false

def read (tree : Tree) (path : Path) : Except ReadFailure String :=
  match tree.entry? path with
  | none => .error .notFound
  | some .directory => .error .isDirectory
  | some (.file .notText) => .error .notText
  | some (.file (.text text)) => .ok text

/-- The files at any depth below a location, by the names that lead down to them. -/
def filesBelow (tree : Tree) (location : Location) : List Location :=
  tree.entries.filterMap fun (place, entry) =>
    match entry with
    | .directory => none
    | .file _ =>
      if location.isPrefixOf place && location.length < place.length then
        some (place.drop location.length)
      else none

/-- Put an entry at a location, in place of what stood there. -/
def put (tree : Tree) (location : Location) (entry : Entry) : Tree :=
  ⟨tree.entries.filter (·.1 != location) ++ [(location, entry)]⟩

/-- Make the directories on the way down to `location`, itself included. -/
def makeDirectories (tree : Tree) (location : Location) : Tree :=
  (List.range location.length).foldl
    (fun tree n =>
      let place := location.take (n + 1)
      match tree.entryAt? place with
      | some _ => tree
      | none => tree.put place .directory)
    tree

/-- Write a file, making the directories that it needs. -/
def write (tree : Tree) (location : Location) (content : Content) : Tree :=
  (tree.makeDirectories location.dropLast).put location (.file content)

def remove (tree : Tree) (location : Location) : Tree :=
  ⟨tree.entries.filter (·.1 != location)⟩

end Tree

/-- The names in a path, for paths that lead straight down. -/
def Path.location (path : Path) : Location :=
  path.components.filterMap fun
    | .name text => some text
    | _ => none

end SchemaMigration
