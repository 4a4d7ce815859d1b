import SchemaMigration.Changelog.Discovery
import SchemaMigration.CommandLine.Invocation
import SchemaMigration.Cycle.Error
import SchemaMigration.Database.Disk
import SchemaMigration.Ordering.MigrationGraph
import SchemaMigration.Settings.Reading

/-!
# SchemaMigration.CommandLine.Project

The project that a command works on.

* `Failure` : what went wrong during which step; `Failure.message` names the step, the cause and
  what is behind the cause.
* `Project` : the settings, as the options change them; `Project.load` reads them.
* `Project.graph` : the project's migrations in their order.
-/

namespace SchemaMigration
namespace CommandLine

/-- What a command was at when it failed. -/
inductive Step where
  | loadingConfigurationFile
  | loadingProjectConfiguration
  | resolvingTarget
  | loadingChangelogs
  | orderingMigrations
  | connecting
  /-- Checking the statements for the control tables. -/
  | preparing
  | applying
  | planning
  | releasingLock
deriving DecidableEq, Repr

def Step.announcement? : Step → Option String
  | .loadingConfigurationFile => some "Failed to load configuration file"
  | .loadingProjectConfiguration => some "Failed to load project configuration"
  | .resolvingTarget => some "Failed to resolve target"
  | .loadingChangelogs => some "Failed to load changelogs"
  | .orderingMigrations => some "Failed to order migrations"
  | .connecting => some "Failed to connect to database"
  | .preparing => none
  | .applying => some "Apply failed"
  | .planning => some "Failed to build plan"
  | .releasingLock => some "Failed to release lock"

structure Failure where
  step : Step
  cause : CycleError
deriving DecidableEq, Repr

namespace Failure

def background? : CycleError → Option String
  | .statementFailed _ _ cause => some cause.message
  | .input (.unreadable _ failure) => some failure.message
  | _ => none

/-- Step, cause and background, as far as there are any. -/
def message (failure : Failure) : String :=
  joinTexts ": " (failure.step.announcement?.toList ++
    failure.cause.message :: (background? failure.cause).toList)

def during {α : Type} (step : Step) : Except InputError α → Except Failure α
  | .ok a => .ok a
  | .error e => .error ⟨step, .input e⟩

end Failure

structure Project where
  root : Path
  settings : Settings
  /-- The settings for the chosen target; a database file is seen from the working directory. -/
  resolved : Resolved
deriving Repr

/-- A database's path seen from where the project is seen. What is absolute or in memory stays. -/
def databasePath (root : Path) (path : String) : String :=
  if path = Database.memoryPath ∨ (Path.mk path).isAbsolute then path else (root.join path).text

namespace Project

def loadSettings (tree : Tree) (options : GlobalOptions) : Except Failure Settings :=
  match options.config with
  | some path => Failure.during .loadingConfigurationFile (Settings.load tree ⟨path⟩)
  | none =>
    Failure.during .loadingProjectConfiguration
      (Settings.loadFrom tree ⟨options.projectDirectory⟩)

/-- The database as the program opens it. The address of a server is no path of a project. -/
def locate (root : Path) (database : DatabaseSettings) : DatabaseSettings :=
  match database.kind with
  | .duckdb => { database with path := databasePath root database.path }
  | .postgres => database

/-- The settings for a target, changed by the options. -/
def adapt (root : Path) (options : GlobalOptions) (resolved : Resolved) : Resolved where
  database := locate root resolved.database
  environment := options.environment.or resolved.environment
  lock := resolved.lock

/-- The project that the options name. `ambientTarget` is the target that the process environment
names. -/
def load (tree : Tree) (options : GlobalOptions) (ambientTarget : Option String) :
    Except Failure Project :=
  match loadSettings tree options with
  | .error failure => .error failure
  | .ok settings =>
    let root : Path := ⟨options.projectDirectory⟩
    let target := Settings.chosenTarget options.target ambientTarget
    match Failure.during .resolvingTarget (settings.resolve target) with
    | .error failure => .error failure
    | .ok resolved => .ok { root, settings, resolved := adapt root options resolved }

def graph (project : Project) (tree : Tree) : Except Failure MigrationGraph :=
  let directories := project.settings.changelogDirectories project.root
  match Failure.during .loadingChangelogs (Changelog.load tree directories) with
  | .error failure => .error failure
  | .ok migrations => Failure.during .orderingMigrations (MigrationGraph.build migrations)

end Project
end CommandLine
end SchemaMigration
