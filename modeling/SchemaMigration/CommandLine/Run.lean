import SchemaMigration.CommandLine.Printing
import SchemaMigration.CommandLine.Project
import SchemaMigration.Database.Backend

/-!
# SchemaMigration.CommandLine.Run

The commands, as functions on files and databases.

* `World` : the files, the databases in them, and how database calls are numbered, recorded and
  set up to fail.
* `Outcome` : what a run prints and how it ends.
* `Invocation.run` : a run.
-/

namespace SchemaMigration
namespace CommandLine

open Database (Disk Instance Opened)

structure World where
  disk : Disk := {}
  /-- The database that was open last. Its numbering of connections, its set-up and its trace go on
  with the next one. -/
  database : Instance := {}

structure Outcome where
  exitCode : Nat
  output : List String := []
  failure : Option Failure := none

namespace Outcome

def success (output : List String) : Outcome where
  exitCode := 0
  output := output

def ofFailure (failure : Failure) : Outcome where
  exitCode := 1
  failure := some failure

def outputText (outcome : Outcome) : String :=
  String.join (outcome.output.map (· ++ "\n"))

/-- The line on the standard error output; empty where there is none. -/
def errorText (outcome : Outcome) : String :=
  match outcome.failure with
  | some failure => "Error: " ++ failure.message
  | none => ""

end Outcome

/-- The outcome of a step, where `print` says what its result comes to. -/
def conclude {α : Type} (step : Step) (print : α → Outcome) : Except CycleError α → Outcome
  | .ok a => print a
  | .error e => .ofFailure ⟨step, e⟩

/-- What a command does with an engine: a session of one step, and its result in print. -/
structure Work where
  step : Step
  {Result : Type}
  session : Engine → Attempt Result
  print : Engine → Result → Outcome

/-- Connect to the project's database, work on it, and keep what has come of it. -/
def Project.work (project : Project) (work : Work) (world : World) : Outcome × World :=
  let database := project.resolved.database
  match world.disk.connect world.database database.kind database.path with
  | (.error e, instanceAfter) =>
    (.ofFailure ⟨.connecting, .database e⟩, { world with database := instanceAfter })
  | (.ok opened, _) =>
    match Engine.ofResolved database.kind project.resolved with
    | .error e =>
      (.ofFailure ⟨.preparing, .database e⟩,
        ⟨opened.disk.save opened.home opened.database.data, opened.database⟩)
    | .ok engine =>
      let (result, after) :=
        opened.database.runSession engine.dialect engine.schema (work.session engine).run
      (conclude work.step (work.print engine) result,
        ⟨opened.disk.save opened.home after.data, after⟩)

/-- Apply a graph. Migrations that failed without ending the cycle show in the exit code. -/
def applyWork (format : ReportFormat) (graph : MigrationGraph) : Work where
  step := .applying
  session := fun engine => engine.apply graph
  print := fun _ report =>
    { exitCode := if report.failed.isEmpty then 0 else 1, output := report.print format }

def planWork (format : ReportFormat) (graph : MigrationGraph) : Work where
  step := .planning
  session := fun engine => engine.plan graph
  print := fun _ entries => .success (printPlan entries format)

def unlockWork : Work where
  step := .releasingLock
  session := fun engine => engine.unlock
  print := fun engine held => .success (printUnlock engine.schema held)

/-- Load the migrations first, and go on with them. -/
def Project.withGraph (project : Project) (world : World)
    (next : MigrationGraph → Outcome × World) : Outcome × World :=
  match project.graph world.disk.tree with
  | .error failure => (.ofFailure failure, world)
  | .ok graph => next graph

def Command.run (command : Command) (project : Project) (world : World) : Outcome × World :=
  match command with
  | .apply format =>
    project.withGraph world fun graph => project.work (applyWork format graph) world
  | .plan format =>
    project.withGraph world fun graph => project.work (planWork format graph) world
  | .list format =>
    project.withGraph world fun graph => (.success (graph.print format), world)
  | .unlock => project.work unlockWork world

/-- A run. `ambientTarget` is the target that the process environment names. -/
def Invocation.run (invocation : Invocation) (ambientTarget : Option String) (world : World) :
    Outcome × World :=
  match Project.load world.disk.tree invocation.options ambientTarget with
  | .error failure => (.ofFailure failure, world)
  | .ok project => invocation.command.run project world

end CommandLine
end SchemaMigration
