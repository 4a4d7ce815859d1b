import SchemaMigration.CommandLine.Run
import SchemaMigration.CommandLine.Usage

/-!
# SchemaMigration.Main

The command line: reads the files below the working directory, runs one command on them and
prints what comes of it. The database lives as long as the run.
-/

namespace SchemaMigration
namespace Main

/-- The files below a directory, at most `depth` directories deep. -/
def readTree (tree : Tree) (directory : IO.FS.DirEntry) (location : Location) :
    (depth : Nat) → IO Tree
  | 0 => return tree
  | depth + 1 => do
    let mut tree := tree
    for entry in ← directory.path.readDir do
      let below := location ++ [entry.fileName]
      if ← entry.path.isDir then
        tree ← readTree (tree.makeDirectories below) entry below depth
      else
        tree := tree.write below (.ofBytes (← IO.FS.readBinFile entry.path))
    return tree

/-- How many directories may stand inside each other. -/
def greatestDepth : Nat := 64

def runArguments (arguments : List String) : IO UInt32 := do
  match CommandLine.Invocation.ofArguments arguments with
  | .error problem =>
    for line in problem.lines do
      if problem.exitCode = 0 then IO.println line else IO.eprintln line
    return UInt32.ofNat problem.exitCode
  | .ok invocation =>
    let tree ← readTree .empty ⟨".", "."⟩ [] greatestDepth
    let (outcome, _) := invocation.run (← IO.getEnv "ORDO_TARGET") { disk := { tree } }
    IO.print outcome.outputText
    unless outcome.errorText.isEmpty do IO.eprintln outcome.errorText
    return UInt32.ofNat outcome.exitCode

end Main
end SchemaMigration

def main (arguments : List String) : IO UInt32 := SchemaMigration.Main.runArguments arguments
