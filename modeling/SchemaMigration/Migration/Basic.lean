import SchemaMigration.Digest.Sha256
import SchemaMigration.InputError
import SchemaMigration.Json.Basic

/-!
# SchemaMigration.Migration.Basic

Migrations and how they are made.

* `UserParameters` : the free parameters of a header, by key.
* `Draft` : a migration as its header and body give it, not yet checked.
* `Migration` : a migration that passed the checks of `Draft.build`.
* `Migration.statements`, `Migration.hash` : what is sent to a database, and the mark by which a
  changed body is noticed.
-/

namespace SchemaMigration

/-- Texts by key, in ascending order of the keys, each key once. -/
structure UserParameters where
  entries : List (String × String) := []
deriving DecidableEq, Repr, Inhabited

namespace UserParameters

/-- Put a pair in its place; a pair with the same key makes way. -/
def insertSorted (key value : String) : List (String × String) → List (String × String)
  | [] => [(key, value)]
  | (k, v) :: rest =>
    if key = k then (key, value) :: rest
    else if key < k then (key, value) :: (k, v) :: rest
    else (k, v) :: insertSorted key value rest

def insert (parameters : UserParameters) (key value : String) : UserParameters :=
  ⟨insertSorted key value parameters.entries⟩

def get? (parameters : UserParameters) (key : String) : Option String :=
  parameters.entries.lookup key

def json (parameters : UserParameters) : String :=
  (Json.obj (parameters.entries.map fun (key, value) => (key, .str value))).compact

end UserParameters

/-- What a header and a body say about a migration. -/
structure Draft where
  author : String
  title : String
  path : Path := ⟨""⟩
  naturalOrder : Nat := 0
  body : String := ""
  parameters : Parameters := {}
  userParameters : UserParameters := {}
deriving DecidableEq, Repr, Inhabited

structure Migration where
  name : Name
  author : String
  path : Path
  /-- Its place in the order of discovery, which decides wherever nothing else does. -/
  naturalOrder : Nat
  body : String
  parameters : Parameters
  userParameters : UserParameters
deriving DecidableEq, Repr

/-- A body without blanks at its end and with a semicolon there. -/
def normalizedBody (body : String) : String :=
  let text := Text.trimEnd body.toList
  String.ofList (if text.getLast? = some ';' then text else text ++ [';'])

/-- Whether nothing but blanks stands before the semicolons at the end. -/
def isEmptyBody (body : String) : Bool :=
  Text.isBlankText (body.toList.reverse.dropWhile (· == ';'))

/-- The parameter and value that a header's `name:text` gives; blanks around the text do not
count. -/
def Parameter.Value.read (name text : String) : Except InputError Parameter.Value :=
  match Parameter.ofName? name with
  | none => .error (.unknownParameter name)
  | some parameter =>
    match parameter.readTrimmed? (trimmed text) with
    | none => .error (.invalidParameterValue parameter (trimmed text))
    | some value => .ok value

namespace Draft

def withParameter (draft : Draft) (value : Parameter.Value) : Draft :=
  { draft with parameters := draft.parameters.set value }

def withUserParameter (draft : Draft) (key value : String) : Draft :=
  { draft with userParameters := draft.userParameters.insert key value }

/-- Check a draft: its title is a name, its author is not blank, its body holds something, and it
orders itself in one direction only. The first check that fails is the error. -/
def build (draft : Draft) : Except InputError Migration :=
  match Name.ofText? (trimmed draft.title) with
  | none => .error (.invalidMigration draft.title .badTitle)
  | some name =>
    if (trimmed draft.author).isEmpty then .error (.invalidMigration draft.title .emptyAuthor)
    else if isEmptyBody (normalizedBody draft.body) then
      .error (.invalidMigration draft.title .emptyBody)
    else if !draft.parameters.runAfter.isEmpty && !draft.parameters.runBefore.isEmpty then
      .error (.conflictingConstraints name)
    else .ok {
      name
      author := trimmed draft.author
      path := draft.path
      naturalOrder := draft.naturalOrder
      body := normalizedBody draft.body
      parameters := draft.parameters
      userParameters := draft.userParameters }

end Draft

namespace Migration

/-- The file's name, as the history keeps it; the whole path where it has no such part. -/
def filename (migration : Migration) : String :=
  migration.path.fileName?.getD migration.path.text

/-- The digest of the body. -/
def hash (migration : Migration) : String := Digest.sha256Hex migration.body

/-- The pieces of the body between semicolons, without the blank ones. -/
def statements (migration : Migration) : List String :=
  ((Text.splitOn ';' migration.body.toList).map Text.trim).filterMap fun piece =>
    if piece.isEmpty then none else some (String.ofList piece)

end Migration
end SchemaMigration
