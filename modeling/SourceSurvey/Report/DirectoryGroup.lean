import SourceSurvey.Keyed
import SourceSurvey.Scan

/-!
# Files by directory

The edges of a scan, sorted into the tree of their directories. Directories and files keep the order in
which they first came; a file that comes again replaces what was there.
-/

namespace SourceSurvey

/-- A directory: the name under which diagrams refer to it, its directories and its files by name. -/
inductive DirectoryGroup where
  | group (label : String) (dirs : List (String × DirectoryGroup)) (files : List (String × Edge))

namespace DirectoryGroup

def label : DirectoryGroup → String
  | group l _ _ => l

def dirs : DirectoryGroup → List (String × DirectoryGroup)
  | group _ ds _ => ds

def files : DirectoryGroup → List (String × Edge)
  | group _ _ fs => fs

def empty (label : String) : DirectoryGroup := group label [] []

/-- Puts a file into the directory that `names` lead to, where `done` has led here. -/
def insert (file : String) (edge : Edge) (done : List String) :
    List String → DirectoryGroup → DirectoryGroup
  | [], group label dirs files => group label dirs (put file edge files)
  | name :: rest, group label dirs files =>
    let here := done ++ [name]
    let inner := (dirs.lookup name).getD (empty (Text.join "_" here))
    group label (put name (insert file edge here rest inner) dirs) files

/-- The names of the directories that lead to a source; a dot for a source without a directory. -/
def pathOf (source : String) : List String :=
  if Text.contains "/" source then Path.segments (Path.directory source) else ["."]

def ofEdges (edges : List Edge) : DirectoryGroup :=
  edges.foldl (fun g e => g.insert (Path.fileName e.source) e [] (pathOf e.source)) (empty "")

mutual

/-- The edges of a directory: first those of the directories inside, then its own. -/
def edges : DirectoryGroup → List Edge
  | group _ dirs files => edgesOfDirs dirs ++ files.map Prod.snd

def edgesOfDirs : List (String × DirectoryGroup) → List Edge
  | [] => []
  | (_, g) :: rest => edges g ++ edgesOfDirs rest

end

/-! ## Dependencies between directories -/

/-- A path as a plain name: underlines for slashes. -/
def plainName (path : String) : String :=
  Text.replaceChar '/' "_" path

def plainDirectory (path : String) : String :=
  let dir := Path.directory path
  plainName (if dir = "" then "." else dir)

/-- The directories of an edge's source and of each of its imports that lies in another one. -/
def crossings (e : Edge) : List (String × String) :=
  let here := plainDirectory e.source
  (e.imports.map fun i => (here, plainDirectory i)).filter fun p => p.1 != p.2

def addDependency (deps : List (String × List String)) (p : String × String) :
    List (String × List String) :=
  put p.1 ((deps.lookup p.1).getD [] ++ [p.2]) deps

/-- For each directory the directories it imports from, as often as it does, in order of the first. -/
def dependencies (g : DirectoryGroup) : List (String × List String) :=
  (g.edges.flatMap crossings).foldl addDependency []

end DirectoryGroup

end SourceSurvey
