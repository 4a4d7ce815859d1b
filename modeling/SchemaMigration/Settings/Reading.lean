import SchemaMigration.FileSystem.Tree
import SchemaMigration.Settings.Basic
import SchemaMigration.Yaml.Plain

/-!
# SchemaMigration.Settings.Reading

Settings from a project's configuration file.

* `Settings.ofDocument?` : the settings that a document says, or nothing where it has another
  shape: a field that does not exist or occurs twice, or a value of the wrong kind.
* `Settings.load` : the settings in a file.
* `Settings.loadFrom` : the settings of the project in a directory.
-/

namespace SchemaMigration

open Yaml (Document Node)

/-- What `read` makes of a field, or `otherwise` where the field does not occur. -/
def fieldOr {α : Type} (fields : List (String × Node)) (name : String) (otherwise : α)
    (read : Node → Option α) : Option α :=
  match fields.lookup name with
  | some node => read node
  | none => some otherwise

/-- The kind of database that a scalar names, by its text or by a tag of its own; the scalar says
nothing besides such a tag. -/
def DatabaseKind.ofNode? (document : Document) (node : Node) : Option DatabaseKind :=
  match document.follow? node with
  | some (.scalar tag isPlain text) =>
    match tag.map String.toList with
    | some ('!' :: name) =>
      if isPlain && (text.isEmpty || Yaml.isNull text) then ofName? (String.ofList name) else none
    | _ => ofName? text
  | _ => none

def DatabaseSettings.ofNode? (document : Document) (node : Node) : Option DatabaseSettings := do
  let fields ← document.record? ["type", "path", "schema"] node
  let usual : DatabaseSettings := {}
  let kind ← fieldOr fields "type" usual.kind (DatabaseKind.ofNode? document)
  let path ← fieldOr fields "path" usual.path document.text?
  let schema ← fieldOr fields "schema" usual.schema document.text?
  return { kind, path, schema }

def LockSettings.ofNode? (document : Document) (node : Node) : Option LockSettings := do
  let fields ← document.record? ["retry_interval_ms", "max_attempts"] node
  let usual : LockSettings := {}
  let retryInterval ←
    fieldOr fields "retry_interval_ms" usual.retryInterval (document.number? 18446744073709551615)
  let maxAttempts ←
    fieldOr fields "max_attempts" usual.maxAttempts (document.number? 4294967295)
  return { retryInterval, maxAttempts }

def Target.ofNode? (document : Document) (node : Node) : Option Target := do
  let fields ← document.record? ["database", "environment"] node
  let database ←
    fieldOr fields "database" none (document.optional? (DatabaseSettings.ofNode? document))
  let environment ← fieldOr fields "environment" none (document.optional? document.text?)
  return { database, environment }

/-- Put a target among others in ascending order of names, in place of one of the same name. -/
def insertTarget (name : String) (target : Target) :
    List (String × Target) → List (String × Target)
  | [] => [(name, target)]
  | (other, kept) :: rest =>
    if name < other then (name, target) :: (other, kept) :: rest
    else if name = other then (name, target) :: rest
    else (other, kept) :: insertTarget name target rest

/-- The targets in ascending order of their names; of two with one name the later one counts. -/
def targetsOfNode? (document : Document) (node : Node) : Option (List (String × Target)) := do
  let fields ← document.fields? node
  let targets ← fields.mapM fun (name, node) => (Target.ofNode? document node).map (name, ·)
  return targets.foldl (fun sorted (name, target) => insertTarget name target sorted) []

namespace Settings

/-- The file names of a configuration, the preferred one first. -/
def fileNames : String × String := ("ordo.yml", "ordo.yaml")

def fieldNames : List String :=
  ["name", "changelog_paths", "environment", "database", "lock", "targets"]

/-- The settings that a document says. Only the name has to be there. -/
def ofDocument? (document : Document) : Option Settings := do
  let fields ← document.record? fieldNames document.root
  let name ← (fields.lookup "name").bind document.text?
  let usual : Settings := { name }
  let texts (node : Node) : Option (List String) :=
    (document.items? node).bind (·.mapM document.text?)
  let changelogPaths ← fieldOr fields "changelog_paths" usual.changelogPaths texts
  let environment ← fieldOr fields "environment" none (document.optional? document.text?)
  let database ← fieldOr fields "database" usual.database (DatabaseSettings.ofNode? document)
  let lock ← fieldOr fields "lock" usual.lock (LockSettings.ofNode? document)
  let targets ← fieldOr fields "targets" usual.targets (targetsOfNode? document)
  return { name, changelogPaths, environment, database, lock, targets }

def ofText? (text : String) : Option Settings :=
  match Document.ofText? text with
  | some document => ofDocument? document
  | none => none

def load (tree : Tree) (path : Path) : Except InputError Settings :=
  if tree.exists? path then
    match tree.read path with
    | .error failure => .error (.unreadable path failure)
    | .ok text =>
      match ofText? text with
      | none => .error .configUnparsable
      | some settings => settings.check
  else .error (.configNotFound path)

def loadFrom (tree : Tree) (directory : Path) : Except InputError Settings :=
  let preferred := directory.join fileNames.1
  let other := directory.join fileNames.2
  if tree.exists? preferred then load tree preferred
  else if tree.exists? other then load tree other
  else .error (.configNotFound preferred)

end Settings
end SchemaMigration
