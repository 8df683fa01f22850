import SourceSurvey.Text.Blank
import SourceSurvey.Text.Lines

/-!
# Path texts

Paths as they are written: names between slashes. A path is absolute if it starts with a slash. Nothing
here looks at files.
-/

namespace SourceSurvey.Path

/-- The names of a path, empty where two slashes meet or the path starts or ends with one. -/
def segments (path : String) : List String :=
  Text.split '/' path

def isAbsolute (path : String) : Bool :=
  Text.startsWith "/" path

/-- A path that is to be followed from a directory; an absolute one forgets the directory. -/
def join (dir path : String) : String :=
  if isAbsolute path then path
  else if dir = "" || Text.endsWith "/" dir then dir ++ path
  else dir ++ "/" ++ path

/-- What stands after the last slash. -/
def fileName (path : String) : String :=
  String.ofList (path.toList.reverse.takeWhile (· != '/')).reverse

/-- What stands before the last slash, without further slashes at its end unless it has nothing else;
empty for a path without a slash. -/
def directory (path : String) : String :=
  let head := Text.dropEndWhile (· != '/') path.toList
  String.ofList (if head.all (· == '/') then head else Text.dropEndWhile (· == '/') head)

/-- The root that a path starts with: none, one slash, or two if it starts with exactly two. -/
def root (path : String) : String :=
  match path.toList with
  | '/' :: '/' :: '/' :: _ => "/"
  | '/' :: '/' :: _ => "//"
  | '/' :: _ => "/"
  | _ => ""

/-- The names of a path that lead somewhere. -/
def names (path : String) : List String :=
  (segments path).filter fun s => s != "" && s != "."

/-- The path without superfluous slashes and dots; the path that leads nowhere is a dot. -/
def tidy (path : String) : String :=
  let text := root path ++ Text.join "/" (names path)
  if text = "" then "." else text

/-- The extension of a file name: from its last dot on, unless the name starts or ends there. -/
def extensionOf (name : List Char) : List Char :=
  let stem := Text.dropEndWhile (· != '.') name
  let ext := '.' :: name.drop stem.length
  if 1 < stem.length && 1 < ext.length then ext else []

/-- The extension of a path, in lower-case ASCII letters; empty if it has none. -/
def extension (path : String) : String :=
  match (names path).getLast? with
  | some name => String.ofList ((extensionOf name.toList).map Char.toLower)
  | none => ""

end SourceSurvey.Path
