import SourceSurvey.Path.Location
import SourceSurvey.Text.Utf8

/-!
# Disks

A snapshot of the files that the program can see: the directories and the contents of the files, by
the names from the root down. A path text is followed name by name (`Disk.walk`), and every name on the
way must be a directory, also one that two dots leave again. That a file is there does not mean that it
can be read: a snapshot also says which files cannot. Symbolic links are not modelled: a name stands for a
directory or a file of its own, and a path leads to what its names say.
-/

namespace SourceSurvey

/-- The content of a file. -/
abbrev Bytes := List UInt8

inductive ReadError where
  | notFound
  | isDirectory
  | notDirectory
  | notText
deriving DecidableEq, Repr

def ReadError.message : ReadError → String
  | notFound => "no such file or directory"
  | isDirectory => "is a directory"
  | notDirectory => "not a directory"
  | notText => "not valid UTF-8"

/-- Directories and files, by the names from the root down. The root is a directory in any case. Reading
a barred file fails with the cause given for it, whether or not the file is there. -/
structure Disk where
  directories : List (List String) := []
  files : List (List String × Bytes) := []
  barred : List (List String × ReadError) := []
deriving DecidableEq, Inhabited

namespace Disk

def isDirectory (d : Disk) (names : List String) : Bool :=
  names.isEmpty || d.directories.contains names

def content? (d : Disk) (names : List String) : Option Bytes :=
  d.files.lookup names

def isFile (d : Disk) (names : List String) : Bool :=
  (d.content? names).isSome

/-! ## Changes -/

def addDirectory (d : Disk) (names : List String) : Disk :=
  { d with directories := ((List.range (names.length + 1)).map fun n => names.take n) ++ d.directories }

/-- Takes a file away; its directory stays. -/
def remove (d : Disk) (names : List String) : Disk :=
  { d with
    files := d.files.filter fun f => f.1 != names
    barred := d.barred.filter fun f => f.1 != names }

/-- Writes a file in place of what was there, with the directories above it. -/
def write (d : Disk) (names : List String) (content : Bytes) : Disk :=
  let d := (d.remove names).addDirectory names.dropLast
  { d with files := (names, content) :: d.files }

/-! ## Following paths -/

/-- The error at a place that is not a directory although the path goes on. -/
def blocked (d : Disk) (names : List String) : ReadError :=
  if d.isFile names then .notDirectory else .notFound

/-- Follows the names of a path from a place, which must be a directory as long as names are left. -/
def walk (d : Disk) (here : List String) : List String → Except ReadError (List String)
  | [] => .ok here
  | name :: rest => if d.isDirectory here then walk d (Location.follow here name) rest else .error (d.blocked here)

/-- Where a path text leads from a working directory. The empty text leads nowhere. -/
def find (d : Disk) (cwd : Location) (path : String) : Except ReadError (List String) :=
  if path = "" then .error .notFound
  else d.walk (if Path.isAbsolute path then [] else cwd.names) (Path.segments path)

def leadsToFile (d : Disk) (cwd : Location) (path : String) : Bool :=
  match d.find cwd path with
  | .ok names => d.isFile names
  | .error _ => false

def read (d : Disk) (names : List String) : Except ReadError Bytes :=
  match d.barred.lookup names, d.content? names with
  | some cause, _ => .error cause
  | none, some bytes => .ok bytes
  | none, none => if d.isDirectory names then .error .isDirectory else .error .notFound

/-- Reads the file that a path text leads to; superfluous slashes and dots are ignored. -/
def readPath (d : Disk) (cwd : Location) (path : String) : Except ReadError Bytes := do
  d.read (← d.find cwd (Path.tidy path))

/-- Every location at which there is a file, in both spellings of the root. -/
def locations (d : Disk) : List Location :=
  d.files.flatMap fun f => [⟨false, f.1⟩, ⟨true, f.1⟩]

end Disk

/-- The text of a file as the program reads it, with faults of the encoding left out. -/
def textDropping (bytes : Bytes) : String :=
  Text.readLines (Text.Utf8.decodeDropping bytes)

/-- The text of a file as the program reads it, if its encoding has no fault. -/
def textOf (bytes : Bytes) : Except ReadError String :=
  match Text.Utf8.decode? bytes with
  | some s => .ok (Text.readLines s)
  | none => .error .notText

/-- A disk and the directory in which the program works. -/
structure Workspace where
  disk : Disk
  cwd : Location
deriving DecidableEq, Inhabited

namespace Workspace

def locate (w : Workspace) (path : String) : Location :=
  w.cwd.resolve path

/-- A location as seen from a base directory, or from the working directory if the base is empty. -/
def relative (w : Workspace) (l : Location) (base : String) : String :=
  l.relativeTo (if base = "" then w.cwd else w.locate base)

end Workspace

end SourceSurvey
