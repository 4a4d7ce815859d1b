import SchemaMigration.Migration.Name
import SchemaMigration.Text.Split

/-!
# SchemaMigration.Migration.Parameter

The parameters that govern when and how a migration runs.

* `RunModifier` : whether a migration runs again once it has been applied.
* `Parameter` : the parameters by kind, with the names that headers use.
* `Parameter.Value` : a parameter together with its value.
* `Parameters` : the values of all parameters, each with its default.
-/

namespace SchemaMigration

inductive RunModifier where
  /-- Once; a body that changes afterwards is an error. -/
  | once
  | always
  /-- When it is new, and again whenever its body has changed. -/
  | onChange
deriving DecidableEq, Repr, Inhabited

namespace RunModifier

def text : RunModifier → String
  | once => "once"
  | always => "always"
  | onChange => "onchange"

def all : List RunModifier := [once, always, onChange]

def ofText? (text : String) : Option RunModifier := all.find? (·.text = text)

end RunModifier

inductive Parameter where
  | run
  | ignore
  | transactional
  | failFast
  | runAfter
  | runBefore
  | environment
deriving DecidableEq, Repr

namespace Parameter

def all : List Parameter :=
  [run, ignore, transactional, failFast, runAfter, runBefore, environment]

/-- The name in a header. -/
def name : Parameter → String
  | run => "run"
  | ignore => "ignore"
  | transactional => "transactional"
  | failFast => "failFast"
  | runAfter => "runAfter"
  | runBefore => "runBefore"
  | environment => "env"

def ofName? (name : String) : Option Parameter := all.find? (·.name = name)

/-- What a value of the parameter has to be, as complaints say it. -/
def expected : Parameter → String
  | run => "one of once, always, onchange"
  | ignore | transactional | failFast => "true or false"
  | runAfter | runBefore => "a comma-separated list of migration names"
  | environment => "a non-empty environment name"

/-- A parameter with a value that it accepts. -/
inductive Value where
  | run (modifier : RunModifier)
  | ignore (flag : Bool)
  | transactional (flag : Bool)
  | failFast (flag : Bool)
  | runAfter (names : List Name)
  | runBefore (names : List Name)
  | environment (name : Option String)
deriving DecidableEq, Repr

def Value.parameter : Value → Parameter
  | run _ => .run
  | ignore _ => .ignore
  | transactional _ => .transactional
  | failFast _ => .failFast
  | runAfter _ => .runAfter
  | runBefore _ => .runBefore
  | environment _ => .environment

/-- The value of a parameter that a header does not mention. -/
def default : Parameter → Value
  | run => .run .once
  | ignore => .ignore false
  | transactional => .transactional true
  | failFast => .failFast true
  | runAfter => .runAfter []
  | runBefore => .runBefore []
  | environment => .environment none

def readFlag? (text : String) : Option Bool :=
  if text = "true" then some true else if text = "false" then some false else none

/-- Names with commas between them and blanks around them; one at least. -/
def readNames? (text : String) : Option (List Name) :=
  (Text.splitOn ',' text.toList).mapM fun piece => Name.ofText? (String.ofList (Text.trim piece))

/-- The value that a text without blanks at its ends gives a parameter. -/
def readTrimmed? (parameter : Parameter) (text : String) : Option Value :=
  match parameter with
  | run => (RunModifier.ofText? text).map .run
  | ignore => (readFlag? text).map .ignore
  | transactional => (readFlag? text).map .transactional
  | failFast => (readFlag? text).map .failFast
  | runAfter => (readNames? text).map .runAfter
  | runBefore => (readNames? text).map .runBefore
  | environment => if text.isEmpty then none else some (.environment (some text))

end Parameter

structure Parameters where
  run : RunModifier := .once
  ignore : Bool := false
  transactional : Bool := true
  failFast : Bool := true
  runAfter : List Name := []
  runBefore : List Name := []
  environment : Option String := none
deriving DecidableEq, Repr, Inhabited

namespace Parameters

def set (parameters : Parameters) : Parameter.Value → Parameters
  | .run modifier => { parameters with run := modifier }
  | .ignore flag => { parameters with ignore := flag }
  | .transactional flag => { parameters with transactional := flag }
  | .failFast flag => { parameters with failFast := flag }
  | .runAfter names => { parameters with runAfter := names }
  | .runBefore names => { parameters with runBefore := names }
  | .environment name => { parameters with environment := name }

def get (parameters : Parameters) : Parameter → Parameter.Value
  | .run => .run parameters.run
  | .ignore => .ignore parameters.ignore
  | .transactional => .transactional parameters.transactional
  | .failFast => .failFast parameters.failFast
  | .runAfter => .runAfter parameters.runAfter
  | .runBefore => .runBefore parameters.runBefore
  | .environment => .environment parameters.environment

theorem get_set_self (parameters : Parameters) (value : Parameter.Value) :
    (parameters.set value).get value.parameter = value := by cases value <;> rfl

theorem get_set_of_ne (parameters : Parameters) {value : Parameter.Value} {p : Parameter}
    (h : value.parameter ≠ p) : (parameters.set value).get p = parameters.get p := by
  cases value <;> cases p <;> simp_all [set, get, Parameter.Value.parameter]

end Parameters
end SchemaMigration
