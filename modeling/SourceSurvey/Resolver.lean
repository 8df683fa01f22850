import SourceSurvey.Disk
import SourceSurvey.Log

/-!
# Resolving import specifiers

A specifier is tried as a path in a fixed order: as it stands, then with each extension, then as a
directory with an index file, these two first as given, then below the directory of the importing file,
then below the base directory. The first path that leads to a file is the answer. Absolute specifiers
are never followed.
-/

namespace SourceSurvey

def defaultExtensions : List String := ["", ".ts", ".js", ".jsx", ".tsx"]

structure Resolver where
  workspace : Workspace
  extensions : List String := defaultExtensions

namespace Resolver

/-- The locations of paths below a root, each path completed by every extension in turn. -/
def complete (r : Resolver) (root path : String) : List Location :=
  r.extensions.map fun ext => r.workspace.locate (Path.join root (path ++ ext))

/-- The candidates for a specifier below a root: the file itself, then the index file of a directory. -/
def candidates (r : Resolver) (specifier root : String) : List Location :=
  r.complete root specifier ++ r.complete root (specifier ++ "/index")

/-- The roots below which a specifier is looked for; an empty directory is no root of its own. -/
def roots (fromDir baseDir : String) : List String :=
  "" :: [fromDir, baseDir].filter (· != "")

def firstFile? (r : Resolver) (locations : List Location) : Option Location :=
  locations.find? fun l => r.workspace.disk.isFile l.names

/-- The directory of the importing file for display. -/
def here (fromDir : String) : String :=
  if fromDir = "" then "." else fromDir

def resolve? (r : Resolver) (fromDir baseDir specifier : String) : Option Location :=
  if Path.isAbsolute specifier then none
  else if specifier = "." then r.firstFile? (r.complete (here fromDir) "index")
  else if r.workspace.disk.leadsToFile r.workspace.cwd specifier then some (r.workspace.locate specifier)
  else r.firstFile? ((roots fromDir baseDir).flatMap (r.candidates specifier))

/-- What is reported about a specifier: that it was looked for everywhere and not found. -/
def records (r : Resolver) (fromDir baseDir specifier : String) : List Record :=
  if Path.isAbsolute specifier || specifier = "." || (r.resolve? fromDir baseDir specifier).isSome then []
  else [.debug .resolver ("Unresolved import '" ++ specifier ++ "' from " ++ here fromDir)]

end Resolver

end SourceSurvey
