import SourceSurvey.Path.Basic

/-!
# Locations

A location is an absolute path in normal form: the names from the root down, with nothing left to
simplify. Two slashes at the start, if there are exactly two, are kept apart from one; they lead to the
same place. `Location.resolve` finds the location a path text means when it is followed from a given
directory, and `Location.relativeTo` writes a location as seen from another.
-/

namespace SourceSurvey

/-- A place in the tree of directories: the names from the root down. -/
structure Location where
  doubled : Bool := false
  names : List String
deriving DecidableEq, Repr, Inhabited

namespace Location

/-- Follows one name of a path: a dot and an empty name stay, two dots go up, the root has nothing
above it. -/
def follow (names : List String) (name : String) : List String :=
  if name = "" ∨ name = "." then names
  else if name = ".." then names.dropLast
  else names ++ [name]

def resolve (cwd : Location) (path : String) : Location :=
  if Path.isAbsolute path then
    ⟨Path.root path = "//", (Path.segments path).foldl follow []⟩
  else ⟨cwd.doubled, (Path.segments path).foldl follow cwd.names⟩

def text (l : Location) : String :=
  (if l.doubled then "//" else "/") ++ Text.join "/" l.names

/-- The directory that holds the location; the root holds itself. -/
def parent (l : Location) : Location :=
  { l with names := l.names.dropLast }

/-- The number of names that two lists have in common at their start. -/
def shared : List String → List String → Nat
  | a :: as, b :: bs => if a = b then shared as bs + 1 else 0
  | _, _ => 0

/-- The location as seen from another: up as far as needed, then down; a dot for the same place. -/
def relativeTo (l start : Location) : String :=
  let n := shared start.names l.names
  let steps := List.replicate (start.names.length - n) ".." ++ l.names.drop n
  if steps.isEmpty then "." else Text.join "/" steps

end Location

end SourceSurvey
