import SourceSurvey.Grammar
import SourceSurvey.Report.Attention

/-!
# Surveys

A survey of a workspace: the import graph below an entry file, the nodes of interest of a file, and both
together for all files that the entry file reaches. What can be seen of a file depends on the grammars
at hand; a language without a grammar ends the survey.
-/

namespace SourceSurvey

inductive SurveyError where
  | noGrammar (cause : MissingGrammar)
  | walk (cause : MissingPattern)
  | unreadable (cause : ReadError)
deriving DecidableEq, Repr

/-- A step of a survey: it reports on its way and may end the survey. -/
abbrev SurveyM := ExceptT SurveyError Logged

def SurveyM.tell (records : List Record) : SurveyM Unit :=
  ExceptT.lift { value := (), log := records }

/-- A workspace to be surveyed, the directory that reports refer to, and the grammars at hand. -/
structure Survey where
  workspace : Workspace
  base : String := ""
  grammars : Grammars
  extensions : List String := defaultExtensions

namespace Survey

def dependencies (s : Survey) (entry : String) : Logged (List Edge) := do
  let session ← Session.scan { base := s.base, extensions := s.extensions } s.workspace entry
  return session.edges s.workspace

/-! ## Imports as seen from a file -/

def resolver (s : Survey) : Resolver := ⟨s.workspace, s.extensions⟩

def directoryOf (s : Survey) (file : String) : String :=
  (s.workspace.locate file).parent.text

/-- The file that a specifier means in a file, as seen from the base directory. -/
def resolveImport? (s : Survey) (file specifier : String) : Option String :=
  (s.resolver.resolve? (s.directoryOf file) s.base specifier).map fun l => s.workspace.relative l s.base

def importRecords (s : Survey) (file specifier : String) : List Record :=
  s.resolver.records (s.directoryOf file) s.base specifier

/-! ## Trees -/

def flattenSource (s : Survey) (source language : String) : SurveyM (List IndexedNode) :=
  match s.grammars.parse language source with
  | .ok parsed => return parsed.flatten
  | .error cause => throw (.noGrammar cause)

def flattenText (s : Survey) (file source : String) : SurveyM (List IndexedNode) :=
  s.flattenSource source ((languageOf? file).getD fallbackLanguage)

def readFile (s : Survey) (file : String) : Except ReadError Bytes :=
  s.workspace.disk.readPath s.workspace.cwd file

/-- The text of a file without the blanks at its two ends. -/
def readText (s : Survey) (file : String) : Except ReadError String := do
  return Text.strip (← textOf (← s.readFile file))

/-- The node list of a file, with faults of its encoding left out. -/
def flattenFile (s : Survey) (file : String) : SurveyM (List IndexedNode) :=
  match s.readFile file with
  | .error cause => throw (.unreadable cause)
  | .ok bytes => s.flattenText file (textDropping bytes)

/-- The node list of a file without the blanks at its two ends. -/
def fileTree (s : Survey) (file : String) : SurveyM (List IndexedNode) :=
  match s.readText file with
  | .error cause => throw (.unreadable cause)
  | .ok source => s.flattenText file source

/-! ## Attention -/

/-- The report of a file, under a given name or else as seen from the base directory. There is none for
a file in another language or one that cannot be read. -/
def analyze (s : Survey) (file : String) (sourceName : Option String) : SurveyM (Option FileReport) :=
  match languageOf? file with
  | none => do
    SurveyM.tell [.debug .survey ("Skipping " ++ file ++ ": not a TypeScript/JavaScript file")]
    return none
  | some _ =>
    match s.readText file with
    | .error cause => do
      SurveyM.tell [.unreadable .survey file cause.message]
      return none
    | .ok source => do
      let nodes := (← s.flattenText file source).map IndexedNode.toFlatNode
      let result := Markings.ofNodes nodes (some (s.resolveImport? file))
      SurveyM.tell (walkRecords nodes result (s.importRecords file))
      match result with
      | .error cause => throw (.walk cause)
      | .ok markings =>
        return some { source := nameOf, base := s.base, nodes := markings.attentionNodes nodes }
where
  /-- The name of the file in its report. -/
  nameOf : String :=
    match sourceName with
    | some name => if name = "" then s.workspace.relative (s.workspace.locate file) s.base else name
    | none => s.workspace.relative (s.workspace.locate file) s.base

/-- The edges of all files that an entry file reaches, and the report of each. -/
def attention (s : Survey) (entry : String) : SurveyM (List Edge × List FileReport) := do
  let edges ← ExceptT.lift (s.dependencies entry)
  let reports ← (edges.map Edge.source).eraseDups.mapM fun source =>
    s.analyze (Path.join s.base source) (some source)
  return (edges, reports.filterMap id)

end Survey

end SourceSurvey
