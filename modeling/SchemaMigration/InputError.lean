import SchemaMigration.FileSystem.Tree
import SchemaMigration.Migration.Parameter

/-!
# SchemaMigration.InputError

What can be wrong with a user's files: the configuration, the changelogs, the migrations and the
order that they ask for. Each constructor is a cause; `InputError.message` is its wording, which
begins with the error's number.
-/

namespace SchemaMigration

/-- What is wrong with a configuration that can be read. `target` is the target whose database
is meant; none for the base database. -/
inductive ConfigProblem where
  | emptyName
  | noChangelogPath
  | noLockAttempt
  | blankSchema (target : Option String)
  | notConnectionUrl (target : Option String)
  | unknownTarget (name : String) (available : List String)
deriving DecidableEq, Repr

inductive LayoutProblem where
  | noFileHeader
  | contentBeforeHeader (line : String)
  | malformedHeader (line : String)
  | notKeyValue (token : String)
deriving DecidableEq, Repr

inductive MigrationProblem where
  | badTitle
  | emptyAuthor
  | emptyBody
deriving DecidableEq, Repr

/-- The two ways to say which of two migrations runs first. -/
inductive Constraint where
  | runAfter
  | runBefore
deriving DecidableEq, Repr

inductive InputError where
  | configNotFound (path : Path)
  | configUnparsable
  | configInvalid (problem : ConfigProblem)
  | changelogDirectoryNotFound (path : Path)
  | invalidChangelog (path : Path) (problem : LayoutProblem)
  | migrationFileNotFound (path : String) (changelog : Path)
  | unknownParameter (name : String)
  | invalidParameterValue (parameter : Parameter) (value : String)
  | invalidMigration (title : String) (problem : MigrationProblem)
  | circularDependency (walk : List Name)
  | unknownReference (migration : Name) (constraint : Constraint) (target : Name)
  | duplicateMigration (name : Name)
  | conflictingConstraints (name : Name)
  | unreadable (path : Path) (failure : ReadFailure)
deriving DecidableEq, Repr

def joinTexts (separator : String) (texts : List String) : String := separator.intercalate texts

namespace ConfigProblem

def databaseKey : (target : Option String) → String
  | none => "database"
  | some name => "targets." ++ name ++ ".database"

def message : ConfigProblem → String
  | emptyName => "Project name cannot be empty"
  | noChangelogPath => "At least one changelog_paths entry must be specified"
  | noLockAttempt => "lock.max_attempts must be at least 1"
  | blankSchema target => databaseKey target ++ ".schema cannot be empty"
  | notConnectionUrl target =>
    databaseKey target ++ ".path must be a postgres:// connection URL for type postgres"
  | unknownTarget name available =>
    "Target '" ++ name ++ "' not found. Available targets: " ++ joinTexts ", " available

end ConfigProblem

def migrationFileHeader : String := "--ordo-migration-file"

def LayoutProblem.message : LayoutProblem → String
  | .noFileHeader => "migration file must start with " ++ migrationFileHeader
  | .contentBeforeHeader line => "content before the first migration header: '" ++ line ++ "'"
  | .malformedHeader line => "malformed migration header '" ++ line ++ "'"
  | .notKeyValue token => "header parameter '" ++ token ++ "' is not key:value"

def MigrationProblem.message : MigrationProblem → String
  | .badTitle => "title must be a non-empty name without spaces, ':' or ','"
  | .emptyAuthor => "author is empty"
  | .emptyBody => "body is empty"

def Constraint.name : Constraint → String
  | .runAfter => Parameter.runAfter.name
  | .runBefore => Parameter.runBefore.name

namespace InputError

/-- A closed walk in execution order, as messages show it. -/
def walkText (walk : List Name) : String := joinTexts " -> " (walk.map (·.text))

def message : InputError → String
  | configNotFound path => "[E001] Config file not found: " ++ path.text
  | configUnparsable => "[E002] Failed to parse config"
  | configInvalid problem => "[E003] Invalid config: " ++ problem.message
  | changelogDirectoryNotFound path => "[E004] Changelog directory not found: " ++ path.text
  | invalidChangelog path problem =>
    "[E010] Invalid changelog format in " ++ path.text ++ ": " ++ problem.message
  | migrationFileNotFound path changelog =>
    "[E011] Migration file '" ++ path ++ "' listed in changelog " ++ changelog.text ++
      " not found"
  | unknownParameter name => "[E012] Unknown migration parameter '" ++ name ++ "'"
  | invalidParameterValue parameter value =>
    "[E013] Invalid value '" ++ value ++ "' for parameter '" ++ parameter.name ++
      "': expected " ++ parameter.expected
  | invalidMigration title problem =>
    "[E014] Invalid migration '" ++ title ++ "': " ++ problem.message
  | circularDependency walk => "[E020] Circular dependency detected: " ++ walkText walk
  | unknownReference migration constraint target =>
    "[E021] Migration '" ++ migration.text ++ "' declares " ++ constraint.name ++ ": '" ++
      target.text ++ "', but no such migration exists"
  | duplicateMigration name => "[E022] Duplicate migration name: " ++ name.text
  | conflictingConstraints name =>
    "[E023] Migration '" ++ name.text ++ "' declares both runAfter and runBefore; " ++
      "use only one ordering constraint per migration"
  | unreadable path failure =>
    "[E031] Failed to read '" ++ path.text ++ "': " ++ failure.message

end InputError
end SchemaMigration
