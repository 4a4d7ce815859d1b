import SchemaMigration.InputError
import SchemaMigration.Sql.Dialect

/-!
# SchemaMigration.Settings.Basic

The settings of a project: where its changelogs are, which database it works on, and how that
differs from target to target.

* `DatabaseSettings`, `LockSettings`, `Target`, `Settings` : what a configuration says.
* `Settings.check` : what every configuration has to satisfy.
* `Settings.resolve` : the settings that hold for a target, as `Resolved`.
-/

namespace SchemaMigration

structure DatabaseSettings where
  kind : DatabaseKind := .duckdb
  /-- A file, or `:memory:`; an address for a database server. -/
  path : String := ":memory:"
  /-- The schema with the control tables. -/
  schema : String := "main"
deriving DecidableEq, Repr, Inhabited

/-- How long to try to get the lock. -/
structure LockSettings where
  /-- The pause between two attempts, in milliseconds. -/
  retryInterval : Nat := 1000
  maxAttempts : Nat := 15
deriving DecidableEq, Repr, Inhabited

structure Target where
  database : Option DatabaseSettings := none
  environment : Option String := none
deriving DecidableEq, Repr, Inhabited

structure Settings where
  name : String
  changelogPaths : List String := ["changelog"]
  environment : Option String := none
  database : DatabaseSettings := {}
  lock : LockSettings := {}
  /-- The targets in ascending order of their names, each name once. -/
  targets : List (String × Target) := []
deriving DecidableEq, Repr, Inhabited

structure Resolved where
  database : DatabaseSettings
  environment : Option String
  lock : LockSettings
deriving DecidableEq, Repr

namespace DatabaseSettings

def isServerAddress (path : String) : Bool :=
  Text.startsWith "postgres://".toList path.toList ||
    Text.startsWith "postgresql://".toList path.toList

/-- What is wrong with the database of a target, or with the base database. -/
def problem? (database : DatabaseSettings) (target : Option String) : Option ConfigProblem :=
  if (trimmed database.schema).isEmpty then some (.blankSchema target)
  else if database.kind = .postgres ∧ isServerAddress database.path = false then
    some (.notConnectionUrl target)
  else none

end DatabaseSettings

namespace Settings

/-- The databases of the configuration, each with the target that it belongs to. -/
def databases (settings : Settings) : List (Option String × DatabaseSettings) :=
  (none, settings.database) :: settings.targets.filterMap fun (name, target) =>
    target.database.map (some name, ·)

def problem? (settings : Settings) : Option ConfigProblem :=
  if settings.name.isEmpty then some .emptyName
  else if settings.changelogPaths.isEmpty then some .noChangelogPath
  else if settings.lock.maxAttempts = 0 then some .noLockAttempt
  else settings.databases.findSome? fun (target, database) => database.problem? target

/-- The settings themselves, if nothing is wrong with them. -/
def check (settings : Settings) : Except InputError Settings :=
  match settings.problem? with
  | some problem => .error (.configInvalid problem)
  | none => .ok settings

/-- The changelog directories seen from the project's directory. -/
def changelogDirectories (settings : Settings) (root : Path) : List Path :=
  settings.changelogPaths.map root.join

def targetNames (settings : Settings) : List String := settings.targets.map (·.1)

/-- The settings for a target, or the base settings where none is chosen. -/
def resolve (settings : Settings) (choice : Option String) : Except InputError Resolved :=
  match choice with
  | none => .ok ⟨settings.database, settings.environment, settings.lock⟩
  | some name =>
    match settings.targets.lookup name with
    | none => .error (.configInvalid (.unknownTarget name settings.targetNames))
    | some target => .ok {
        database := target.database.getD settings.database
        environment := target.environment.or settings.environment
        lock := settings.lock }

/-- The target that is chosen: the one on the command line, or else the one that the process
environment names. -/
def chosenTarget (argument ambient : Option String) : Option String := argument.or ambient

end Settings
end SchemaMigration
