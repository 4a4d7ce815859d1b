import SchemaMigration.CommandLine.Invocation
import SchemaMigration.Cycle.Engine
import SchemaMigration.Json.Basic
import SchemaMigration.Text.Table

/-!
# SchemaMigration.CommandLine.Printing

What commands print about reports, plans and graphs, as lines.

* `Report.print` : what a cycle did.
* `printPlan` : what a cycle would do.
* `MigrationGraph.print` : the migrations in the order of execution, or their clusters.
-/

namespace SchemaMigration

open CommandLine (ReportFormat ListFormat)
open Text.Table (Column widthOf)

def namesJson (names : List Name) : Json := .arr (names.map (.str ·.text))

namespace Report

def json (report : Report) : Json :=
  .obj [("executed", namesJson report.executed), ("skipped", namesJson report.skipped),
    ("failed", .arr (report.failed.map fun failed =>
      .obj [("name", .str failed.name.text), ("error", .str failed.cause.message)]))]

def count {α : Type} (list : List α) : String := toString list.length

/-- A line for each migration that was executed or failed, and the totals. -/
def summary (report : Report) : List String :=
  if report.isNoop then
    ["Database is up to date (" ++ count report.skipped ++ " migrations skipped)"]
  else
    report.executed.map (fun name => "  ✓ " ++ name.text) ++
      report.failed.map (fun failed =>
        "  ✗ " ++ failed.name.text ++ " - " ++ failed.cause.message) ++
      ["", "Executed: " ++ count report.executed ++ ", skipped: " ++ count report.skipped ++
        ", failed: " ++ count report.failed]

def print (report : Report) : ReportFormat → List String
  | .table => report.summary
  | .json => [report.json.pretty]

end Report

namespace PlanEntry

def json (entry : PlanEntry) : Json :=
  .obj [("name", .str entry.name.text), ("author", .str entry.author),
    ("actual_order", .int entry.actualOrder), ("run_status", .str entry.status.text),
    ("decision", .str entry.decision.text)]

def columns (entries : List PlanEntry) : List Column :=
  [{ title := "ORDER", width := 5, alignment := .right },
    { title := "NAME", width := widthOf 4 (entries.map (·.name.text)) },
    { title := "AUTHOR", width := widthOf 6 (entries.map (·.author)) },
    { title := "STATUS", width := 12 },
    { title := "DECISION", width := 8 }]

def cells (entry : PlanEntry) : List String :=
  [toString entry.actualOrder, entry.name.text, entry.author, entry.status.text,
    entry.decision.text]

end PlanEntry

def printPlan (entries : List PlanEntry) : ReportFormat → List String
  | .table => Text.Table.lines (PlanEntry.columns entries) (entries.map (·.cells))
  | .json => [(Json.arr (entries.map (·.json))).pretty]

def Cluster.print (cluster : Cluster) : List String :=
  ("cluster " ++ toString cluster.key ++ " (roots: " ++
      joinTexts ", " (cluster.roots.map (·.text)) ++ ")") ::
    cluster.members.map fun member => "  " ++ member.text

namespace MigrationGraph

def previousNames (graph : MigrationGraph) (migration : Migration) : List Name :=
  (graph.previous migration.name).map (·.name)

def migrationJson (graph : MigrationGraph) (migration : Migration) : Json :=
  .obj [("author", .str migration.author), ("hash", .str migration.hash),
    ("name", .str migration.name.text), ("path", .str migration.path.text),
    ("previous", namesJson (graph.previousNames migration)),
    ("run", .str migration.parameters.run.text)]

def columns (migrations : List Migration) : List Column :=
  [{ title := "NAME", width := widthOf 4 (migrations.map (·.name.text)) },
    { title := "FILE", width := widthOf 4 (migrations.map (·.filename)) },
    { title := "RUN", width := 8 },
    { title := "RUN_AFTER", width := 20 }]

def cells (graph : MigrationGraph) (migration : Migration) : List String :=
  let previous := graph.previousNames migration
  [migration.name.text, migration.filename, migration.parameters.run.text,
    if previous.isEmpty then "-" else joinTexts ", " (previous.map (·.text))]

def print (graph : MigrationGraph) : ListFormat → List String
  | .table =>
    let migrations := graph.orderedMigrations
    Text.Table.lines (columns migrations) (migrations.map graph.cells)
  | .json => [(Json.arr (graph.orderedMigrations.map graph.migrationJson)).pretty]
  | .clusters => graph.clusters.flatMap (·.print)

end MigrationGraph

def printUnlock (schema : String) (held : Bool) : List String :=
  if held then ["Released migration lock in schema " ++ schema]
  else ["Migration lock was not held"]

end SchemaMigration
