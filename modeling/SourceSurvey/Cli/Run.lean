import SourceSurvey.Cli.Command
import SourceSurvey.Report.Dependency
import SourceSurvey.Settings.Basic
import SourceSurvey.Survey
import SourceSurvey.Text.Escape

/-!
# Running commands

A command reads the settings, decides which reports are shown, surveys the workspace and writes its
output. Its result is an exit code, the output and what was reported.
-/

namespace SourceSurvey.Cli

/-- Where the program runs: the workspace, the settings file and what reads it, the log level in the
environment, and the grammars at hand. -/
structure Environment where
  workspace : Workspace
  settingsPath : String
  settingsFile : Option Bytes := none
  readDocument : DocumentReader
  logLevel : Option String := none
  grammars : Grammars

/-- How the program ends: exit code, output and the records that are shown. -/
structure Outcome where
  exitCode : Nat
  output : String := ""
  log : List Record := []
deriving DecidableEq, Repr

inductive Crash where
  | settings (cause : SettingsError)
  | walk (cause : MissingPattern)
deriving DecidableEq, Repr

def versionText : String := "tsgraph CLI v0.1.0"

/-- The exit code for a request that cannot be met as it was made. -/
def usageError : Nat := 2

/-- How an action ends: with output, without one, or not at all. -/
inductive Ending where
  | printed (output : String)
  | failed (exitCode : Nat)
  | crashed (cause : MissingPattern)
deriving DecidableEq, Repr

/-- A survey with the base directory of the command line or else of the settings. -/
def surveyFor (env : Environment) (settings : Settings) (base : Option String) : Survey :=
  { workspace := env.workspace, base := base.getD settings.base.display, grammars := env.grammars }

/-- The title of the command line, if it is given and not empty, or else of the settings. -/
def titleFor (settings : Settings) : Option String → String
  | some title => if title = "" then settings.title.display else title
  | none => settings.title.display

def dependencyReport (edges : List Edge) (title : String) : Target → DepsMode → String
  | .file, .table => Report.importTable edges
  | .file, .diagram => Report.fileDiagram edges title
  | .directory, .table => Report.directoryTable edges title
  | .directory, .diagram => Report.directoryDiagram edges title

def attentionReport (edges : List Edge) (reports : List FileReport) : ScanMode → String
  | .table => Report.attentionTable reports
  | .document => Report.attentionDocument reports
  | .listing => Report.attentionListing reports edges

def endingOf : SurveyError → Ending
  | .noGrammar _ => .failed usageError
  | .unreadable _ => .failed 1
  | .walk cause => .crashed cause

def endingWith : Except MissingPattern String → Ending
  | .ok text => .printed text
  | .error cause => .crashed cause

def runScan (survey : Survey) (entry : String) (mode : ScanMode) : Logged Ending := do
  match ← (survey.attention entry).run with
  | .error e => return endingOf e
  | .ok (edges, reports) => return .printed (attentionReport edges reports mode)

def runTree (survey : Survey) (file : String) (mode : DumpMode) : Logged Ending := do
  match ← (survey.fileTree file).run with
  | .error e => return endingOf e
  | .ok nodes =>
    Logged.mk (endingWith (Dump.render nodes file mode)) (Dump.records (nodes.map IndexedNode.toFlatNode) mode)

def perform (env : Environment) (settings : Settings) (source : String) : Job → Logged Ending
  | .deps base target mode title => do
    let edges ← (surveyFor env settings base).dependencies source
    return .printed (dependencyReport edges (titleFor settings title) target mode)
  | .imports base => do
    let edges ← (surveyFor env settings base).dependencies source
    return .printed (Report.importDocument edges)
  | .scan base mode => runScan (surveyFor env settings base) source mode
  | .tree mode => runTree (surveyFor env settings (some "")) source mode

/-- The standard output for a text: the text on lines of its own, for files and pipes. -/
def outputOf (text : String) : String :=
  Text.withoutSequences (text ++ "\n")

/-- Runs a command. Until the settings are read, the default threshold holds. -/
def runCommand (env : Environment) (command : Command) : Except Crash Outcome :=
  let loaded : Logged (Except SettingsError Settings) :=
    (Settings.load env.readDocument env.settingsPath env.settingsFile).run
  match loaded.value with
  | .error cause => .error (.settings cause)
  | .ok settings =>
    let threshold := thresholdOf (if command.debug then "DEBUG" else settings.level env.logLevel)
    let done := perform env settings (Path.tidy command.source) command.job
    let log := loaded.log.filter (·.passes defaultThreshold) ++ done.log.filter (·.passes threshold)
    match done.value with
    | .printed text => .ok { exitCode := 0, output := outputOf text, log }
    | .failed exitCode => .ok { exitCode, log }
    | .crashed cause => .error (.walk cause)

def run (env : Environment) (args : List String) : Except Crash Outcome :=
  match readRequest args with
  | none => .ok { exitCode := usageError }
  | some .version => .ok { exitCode := 0, output := outputOf versionText }
  | some (.run command) => runCommand env command

end SourceSurvey.Cli
