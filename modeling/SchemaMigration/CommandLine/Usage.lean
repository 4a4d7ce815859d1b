import SchemaMigration.CommandLine.Invocation

/-!
# SchemaMigration.CommandLine.Usage

What the program says when its arguments ask for nothing that it can do, or for help.
-/

namespace SchemaMigration
namespace CommandLine

def programName : String := "ordo"

def programVersion : String := "0.1.0"

def CommandName.summary : CommandName → String
  | .apply => "Apply pending migrations"
  | .plan => "Show what apply would do without touching the database"
  | .list => "List migrations in execution order"
  | .unlock => "Clear a migration lock left behind by an interrupted run"

def OptionKey.summary : OptionKey → String
  | .verbose => "Enable verbose output"
  | .projectDirectory => "Path to project directory"
  | .config => "Override config file path"
  | .target => "Target from the targets section of the config (or ORDO_TARGET)"
  | .environment => "Override the deployment environment used by env filters"
  | .output => "Output format"
  | .help => "Print help"
  | .version => "Print version"

def entryLine (width : Nat) (name summary : String) : String :=
  "  " ++ name ++ String.ofList (List.replicate (width - name.length) ' ') ++ "  " ++ summary

def OptionKey.text (key : OptionKey) : String :=
  String.ofList ['-', key.short] ++ ", --" ++ key.long ++ (if key.takesValue then " VALUE" else "")

def helpLines : List String :=
  ["Usage: " ++ programName ++ " [OPTIONS] COMMAND", "", "Commands:"] ++
    CommandName.all.map (fun name => entryLine 6 name.text name.summary) ++
    ["", "Options:"] ++ OptionKey.all.map fun key => entryLine 23 key.text key.summary

namespace UsageProblem

def text : UsageProblem → String
  | helpWanted => ""
  | versionWanted => programName ++ " " ++ programVersion
  | nothingGiven => "a command is required"
  | commandMissing => "a command is required"
  | commandUnknown => "there is no such command"
  | argumentUnknown => "there is no such argument"
  | badValue => "an option has no value or one that it does not take"
  | optionRepeated => "an option is given twice"
  | needlessValue => "an option has a value but takes none"

def lines : UsageProblem → List String
  | helpWanted => helpLines
  | versionWanted => [versionWanted.text]
  | problem => ["error: " ++ problem.text, ""] ++ helpLines

end UsageProblem
end CommandLine
end SchemaMigration
