import SourceSurvey.Cli.Options
import SourceSurvey.Dump

/-!
# Commands

The four commands with their options, and how they are read from arguments. Whatever cannot be read is
one and the same usage error.
-/

namespace SourceSurvey.Cli

/-- Whether a dependency report is about files or directories. -/
inductive Target where
  | file
  | directory
deriving DecidableEq, Repr

inductive DepsMode where
  | table
  | diagram
deriving DecidableEq, Repr

inductive ScanMode where
  | table
  | document
  | listing
deriving DecidableEq, Repr

inductive Job where
  | deps (base : Option String) (target : Target) (mode : DepsMode) (title : Option String)
  | imports (base : Option String)
  | scan (base : Option String) (mode : ScanMode)
  | tree (mode : DumpMode)
deriving DecidableEq, Repr

/-- A command: what is to be done, the source file, and whether every step is to be reported. -/
structure Command where
  job : Job
  source : String
  debug : Bool
deriving DecidableEq, Repr

inductive Request where
  | version
  | run (command : Command)
deriving DecidableEq, Repr

def baseOption : OptionSpec := { name := "base", letter := some 'b' }

def targetOption : OptionSpec := { name := "target", letter := some 't' }

def modeOption : OptionSpec := { name := "mode", letter := some 'm' }

def titleOption : OptionSpec := { name := "title" }

def debugOption : OptionSpec := { name := "debug", takesValue := false }

def versionOption : OptionSpec := { name := "version", letter := some 'v', takesValue := false }

/-- The options that a command knows; none if there is no such command. -/
def optionsOf? (name : String) : Option (List OptionSpec) :=
  [ ("deps", [baseOption, targetOption, modeOption, titleOption, debugOption]),
    ("imports", [baseOption, debugOption]),
    ("scan", [baseOption, modeOption, debugOption]),
    ("tree", [modeOption, debugOption]) ].lookup name

/-- One of several named choices, with a default for an option that is not given. -/
def choice {α : Type} (a : Arguments) (name default : String) (choices : List (String × α)) : Option α :=
  choices.lookup ((a.value? name).getD default)

def readJob (name : String) (a : Arguments) : Option Job :=
  match name with
  | "deps" => do
    let target ← choice a "target" "file" [("file", .file), ("dir", .directory)]
    let mode ← choice a "mode" "csv" [("csv", .table), ("uml", .diagram)]
    return .deps (a.value? "base") target mode (a.value? "title")
  | "imports" => return .imports (a.value? "base")
  | "scan" => do
    let mode ← choice a "mode" "csv" [("csv", .table), ("json", .document), ("log", .listing)]
    return .scan (a.value? "base") mode
  | "tree" => do
    let mode ← choice a "mode" "tree" (DumpMode.all.map fun m => (m.name, m))
    return .tree mode
  | _ => none

def readCommand (name : String) (args : List String) : Option Command := do
  let a ← parseArguments (← optionsOf? name) true args
  match a.operands with
  | [source] => return { job := ← readJob name a, source, debug := a.has "debug" }
  | _ => none

/-- Reads what the arguments ask for. Options before the command are the program's own. -/
def readRequest (args : List String) : Option Request := do
  let a ← parseArguments [versionOption] false args
  if a.has "version" then return .version
  match a.operands with
  | name :: rest => return .run (← readCommand name rest)
  | [] => none

end SourceSurvey.Cli
