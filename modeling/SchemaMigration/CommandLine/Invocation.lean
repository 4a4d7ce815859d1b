import SchemaMigration.Text.Split

/-!
# SchemaMigration.CommandLine.Invocation

What the program is asked to do, from its arguments.

* `Command`, `GlobalOptions`, `Invocation` : the request.
* `UsageProblem` : what is wrong with arguments; asking for help counts as one, because nothing
  else is done then.
* `Invocation.ofArguments` : the request that arguments make.

Options may stand before and behind the command's name, except for the output format, which
belongs to the command. An option's value is settled when the next option comes or the arguments
end; a problem with it shows only then.
-/

namespace SchemaMigration
namespace CommandLine

/-- How reports and plans are printed. -/
inductive ReportFormat where
  | table
  | json
deriving DecidableEq, Repr

inductive ListFormat where
  | table
  | json
  | clusters
deriving DecidableEq, Repr

namespace ReportFormat

def all : List ReportFormat := [table, json]

def name : ReportFormat → String
  | table => "table"
  | json => "json"

def ofName? (name : String) : Option ReportFormat := all.find? (·.name = name)

end ReportFormat

namespace ListFormat

def all : List ListFormat := [table, json, clusters]

def name : ListFormat → String
  | table => "table"
  | json => "json"
  | clusters => "clusters"

def ofName? (name : String) : Option ListFormat := all.find? (·.name = name)

end ListFormat

inductive CommandName where
  | apply
  | plan
  | list
  | unlock
deriving DecidableEq, Repr

namespace CommandName

def all : List CommandName := [apply, plan, list, unlock]

def text : CommandName → String
  | apply => "apply"
  | plan => "plan"
  | list => "ls"
  | unlock => "unlock"

def ofText? (text : String) : Option CommandName := all.find? (·.text = text)

end CommandName

inductive Command where
  | apply (format : ReportFormat)
  | plan (format : ReportFormat)
  | list (format : ListFormat)
  | unlock
deriving DecidableEq, Repr

namespace Command

def name : Command → CommandName
  | apply _ => .apply
  | plan _ => .plan
  | list _ => .list
  | unlock => .unlock

/-- The name of the output format, for the commands that have one. -/
def formatName? : Command → Option String
  | apply format => some format.name
  | plan format => some format.name
  | list format => some format.name
  | unlock => none

end Command

/-- The options that every command takes. -/
structure GlobalOptions where
  verbose : Bool := false
  projectDirectory : String := "."
  /-- The configuration file, in place of the one in the project's directory. -/
  config : Option String := none
  target : Option String := none
  /-- The deployment environment, in place of the configured one. -/
  environment : Option String := none
deriving DecidableEq, Repr

structure Invocation where
  command : Command
  options : GlobalOptions
deriving DecidableEq, Repr

inductive UsageProblem where
  | helpWanted
  | versionWanted
  /-- There is no argument that means anything. -/
  | nothingGiven
  | commandMissing
  | commandUnknown
  | argumentUnknown
  /-- An option has no value, or one that is not among its values. -/
  | badValue
  | optionRepeated
  /-- An option that takes no value has one. -/
  | needlessValue
deriving DecidableEq, Repr

/-- Asking for help or for the version is no failure. -/
def UsageProblem.exitCode : UsageProblem → Nat
  | .helpWanted | .versionWanted => 0
  | _ => 2

inductive OptionKey where
  | verbose
  | projectDirectory
  | config
  | target
  | environment
  | output
  | help
  | version
deriving DecidableEq, Repr

namespace OptionKey

def all : List OptionKey :=
  [verbose, projectDirectory, config, target, environment, output, help, version]

/-- The name behind two hyphens. -/
def long : OptionKey → String
  | verbose => "verbose"
  | projectDirectory => "project-dir"
  | config => "config"
  | target => "target"
  | environment => "env"
  | output => "output"
  | help => "help"
  | version => "version"

def short : OptionKey → Char
  | verbose => 'v'
  | projectDirectory => 'p'
  | config => 'c'
  | target => 't'
  | environment => 'e'
  | output => 'o'
  | help => 'h'
  | version => 'V'

def takesValue : OptionKey → Bool
  | verbose | help | version => false
  | _ => true

/-- Whether an option may stand behind a command's name, or in front of it. -/
def isAllowed (place : Option CommandName) : OptionKey → Bool
  | output =>
    match place with
    | none | some .unlock => false
    | some _ => true
  | version => place.isNone
  | _ => true

def accepts (place : Option CommandName) (key : OptionKey) (value : String) : Bool :=
  match key, place with
  | output, some .list => (ListFormat.ofName? value).isSome
  | output, _ => (ReportFormat.ofName? value).isSome
  | _, _ => true

end OptionKey

/-- The arguments on one side of the command's name, as far as they have been read. -/
structure Reading where
  /-- The side: in front of the name, or behind it. -/
  place : Option CommandName
  /-- The options so far; those that take no value have an empty one. -/
  given : List (OptionKey × String) := []
  /-- The last option, with its value if that has come. -/
  pending : Option (OptionKey × Option String) := none

namespace Reading

def find? (reading : Reading) (p : OptionKey → Bool) : Option OptionKey :=
  OptionKey.all.find? fun key => key.isAllowed reading.place && p key

/-- Add an option, which must not be there yet. -/
def give (reading : Reading) (key : OptionKey) (value : String) : Except UsageProblem Reading :=
  if (reading.given.lookup key).isSome then .error .optionRepeated
  else if key.takesValue && !key.accepts reading.place value then .error .badValue
  else .ok { reading with given := reading.given ++ [(key, value)] }

def settle (reading : Reading) : Except UsageProblem Reading :=
  match reading.pending with
  | none => .ok reading
  | some (_, none) => .error .badValue
  | some (key, some value) => { reading with pending := none }.give key value

/-- Whether the next argument can be the last option's value. -/
def awaitsValue (reading : Reading) : Bool :=
  match reading.pending with
  | some (_, none) => true
  | _ => false

/-- An option that takes no value. -/
def readSwitch (reading : Reading) (key : OptionKey) : Except UsageProblem Reading :=
  match reading.settle with
  | .error problem => .error problem
  | .ok reading =>
    match key with
    | .help => .error .helpWanted
    | .version => .error .versionWanted
    | _ => reading.give key ""

/-- An option that takes a value; where none is attached, it may follow. -/
def readValued (reading : Reading) (key : OptionKey) (attached : Option String) :
    Except UsageProblem Reading :=
  match reading.settle with
  | .error problem => .error problem
  | .ok reading =>
    match attached with
    | some value => reading.give key value
    | none => .ok { reading with pending := some (key, none) }

/-- An option by its name, with the value behind the equals sign. -/
def readLong (reading : Reading) (text : List Char) : Except UsageProblem Reading :=
  let (name, attached) :=
    match Text.cutFirst? '=' text with
    | some (name, value) => (name, some (String.ofList value))
    | none => (text, none)
  match reading.find? (·.long.toList = name) with
  | none => .error .argumentUnknown
  | some key =>
    if key.takesValue then reading.readValued key attached
    else if attached.isSome then .error .needlessValue
    else reading.readSwitch key

/-- Options by their letters. What follows the letter of one that takes a value is its value. -/
def readShort (reading : Reading) : List Char → Except UsageProblem Reading
  | [] => .ok reading
  | letter :: rest =>
    match reading.find? (·.short = letter) with
    | none => .error .argumentUnknown
    | some key =>
      if key.takesValue then
        match rest with
        | [] => reading.readValued key none
        | '=' :: value => reading.readValued key (some (String.ofList value))
        | value => reading.readValued key (some (String.ofList value))
      else
        match reading.readSwitch key with
        | .error problem => .error problem
        | .ok reading => reading.readShort rest

/-- A value, or an argument that nothing asks for. -/
def readPlain (reading : Reading) (text : String) : Except UsageProblem Reading :=
  match reading.pending with
  | some (key, none) => .ok { reading with pending := some (key, some text) }
  | _ => .error (if reading.place.isNone then .commandUnknown else .argumentUnknown)

/-- Whether an argument is the name of a command, the one for help included. -/
def isCommand (text : String) : Bool := text = "help" || (CommandName.ofText? text).isSome

/-- The arguments behind two hyphens, where nothing but positional arguments may stand. -/
def readTrailing (reading : Reading) : List String → Except UsageProblem Reading
  | [] => .ok reading
  | text :: _ =>
    if reading.place.isNone && !isCommand text then .error .commandUnknown
    else .error .argumentUnknown

/-- The arguments behind the command for help: one command's name at most. -/
def helpProblem : List String → UsageProblem
  | [] => .helpWanted
  | [text] => if isCommand text then .helpWanted else .commandUnknown
  | _ :: _ :: _ => .commandUnknown

/-- An argument that is no command's name. -/
def readArgument (reading : Reading) (text : String) : Except UsageProblem Reading :=
  match text.toList with
  | '-' :: '-' :: long => reading.readLong long
  | '-' :: letter :: letters => reading.readShort (letter :: letters)
  | _ => reading.readPlain text

def mayName (reading : Reading) : Bool := reading.place.isNone && !reading.awaitsValue

/-- Read arguments up to the command's name, which ends them where it may stand; the result has
the command with the arguments behind its name. -/
def readAll (reading : Reading) : List String →
    Except UsageProblem (Reading × Option (CommandName × List String))
  | [] => .ok (reading, none)
  | text :: rest =>
    match CommandName.ofText? text, reading.mayName with
    | some name, true => .ok (reading, some (name, rest))
    | _, mayName =>
      if mayName && text == "help" then .error (helpProblem rest)
      else if text = "--" then (reading.readTrailing rest).map (·, none)
      else
        match reading.readArgument text with
        | .error problem => .error problem
        | .ok reading => reading.readAll rest

end Reading

namespace Invocation

/-- The command with the output format that its options say. -/
def commandOf (name : CommandName) (given : List (OptionKey × String)) : Command :=
  let format := (given.lookup .output).getD ReportFormat.table.name
  match name with
  | .apply => .apply ((ReportFormat.ofName? format).getD .table)
  | .plan => .plan ((ReportFormat.ofName? format).getD .table)
  | .list => .list ((ListFormat.ofName? format).getD .table)
  | .unlock => .unlock

def optionsOf (given : List (OptionKey × String)) : GlobalOptions where
  verbose := (given.lookup .verbose).isSome
  projectDirectory := (given.lookup .projectDirectory).getD "."
  config := given.lookup .config
  target := given.lookup .target
  environment := given.lookup .environment

/-- The request that arguments make. Of an option on both sides of the command's name the one
behind it counts. Problems behind the name come before a last option's in front of it. -/
def ofArguments (arguments : List String) : Except UsageProblem Invocation := do
  match ← Reading.readAll { place := none } arguments with
  | (front, none) =>
    let front ← front.settle
    throw (if front.given.isEmpty then .nothingGiven else .commandMissing)
  | (front, some (name, rest)) =>
    let (back, _) ← Reading.readAll { place := some name } rest
    let back ← back.settle
    let front ← front.settle
    return {
      command := commandOf name back.given
      options := optionsOf (back.given ++ front.given) }

end Invocation
end CommandLine
end SchemaMigration
