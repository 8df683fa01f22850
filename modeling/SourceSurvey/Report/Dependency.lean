import SourceSurvey.Document
import SourceSurvey.Report.DirectoryGroup
import SourceSurvey.Table

/-!
# Dependency reports

The edges of a scan as a table, as a document, and as diagrams of files or of directories.
-/

namespace SourceSurvey.Report

/-- One row for each import; a file without imports has one row with an empty import. -/
def importTable (edges : List Edge) : String :=
  Table.render (Table.plainRow ["source", "import"] ::
    edges.flatMap fun e =>
      if e.imports.isEmpty then [Table.plainRow [e.source, ""]]
      else e.imports.map fun i => Table.plainRow [e.source, i])

/-- The edges as a document in ASCII. -/
def importDocument (edges : List Edge) : String :=
  (Document.list (edges.map fun e =>
    .object [("source", .text e.source), ("imports", .list (e.imports.map .text))])).render .ascii

/-- The directory for display: the one at the top is called root. -/
def rootName (dir : String) : String :=
  if dir = "." then "root" else dir

def directoryPairs (edges : List Edge) : List (String × String) :=
  (DirectoryGroup.ofEdges edges).dependencies.flatMap fun d =>
    d.2.map fun target => (rootName d.1, rootName target)

/-- A title and one row for each import between directories. -/
def directoryTable (edges : List Edge) (title : String) : String :=
  let pairs := directoryPairs edges
  if pairs.isEmpty then title
  else title ++ "\n" ++ Table.render (pairs.map fun p => Table.plainRow [p.1, p.2])

/-! ## Diagrams -/

def diagramHeader (title : String) : List String :=
  [ "@startuml dependencies",
    "' title " ++ (if title = "" then "" else title ++ " ") ++ "Dependency Graph",
    "skinparam shadowing false",
    "scale 0.8",
    "skinparam packageStyle Rectangle" ]

def diagramFooter : List String := ["@enduml"]

def arrow (source target : String) : String :=
  source ++ " ---> " ++ target

def rectangle (level : Nat) (file : String × Edge) : String :=
  Text.indent level ++ "rectangle \"" ++ file.1 ++ "\" as " ++ DirectoryGroup.plainName file.2.source

mutual

/-- The packages of a directory, one for each directory inside, and its files if they are shown. -/
def packages (showFiles : Bool) (level : Nat) : DirectoryGroup → List String
  | .group _ dirs files =>
    packagesOfDirs showFiles level dirs ++ if showFiles then files.map (rectangle level) else []

def packagesOfDirs (showFiles : Bool) (level : Nat) : List (String × DirectoryGroup) → List String
  | [] => []
  | (name, g) :: rest =>
    (Text.indent level ++ "package \"" ++ name ++ "\" as "
        ++ DirectoryGroup.plainName (rootName g.label) ++ " \x7b")
      :: packages showFiles (level + 1) g
      ++ (Text.indent level ++ "\x7d") :: packagesOfDirs showFiles level rest

end

/-- The diagram of files: packages for directories, rectangles for files, an arrow for each import. -/
def fileDiagram (edges : List Edge) (title : String) : String :=
  let g := DirectoryGroup.ofEdges edges
  Text.unlines (diagramHeader title ++ packages true 0 g
    ++ (g.edges.flatMap fun e => e.imports.map fun i =>
        arrow (DirectoryGroup.plainName e.source) (DirectoryGroup.plainName i))
    ++ diagramFooter)

/-- The diagram of directories: packages, and an arrow for each import between two of them. -/
def directoryDiagram (edges : List Edge) (title : String) : String :=
  Text.unlines (diagramHeader title ++ packages false 0 (DirectoryGroup.ofEdges edges)
    ++ (directoryPairs edges).map (fun p => arrow p.1 p.2)
    ++ diagramFooter)

end SourceSurvey.Report
