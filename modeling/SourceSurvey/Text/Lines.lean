/-!
# Lines and fields

Small operations on texts made of parts: splitting at a separator, joining, indenting, filling up to
a width, and reading foreign line ends.
-/

namespace SourceSurvey.Text

/-- The parts between the occurrences of `sep`; a text without it is one part. -/
def splitChars (sep : Char) : List Char → List (List Char)
  | [] => [[]]
  | c :: rest =>
    if c = sep then [] :: splitChars sep rest
    else match splitChars sep rest with
      | [] => [[c]]
      | part :: parts => (c :: part) :: parts

def split (sep : Char) (s : String) : List String :=
  (splitChars sep s.toList).map String.ofList

def join (sep : String) : List String → String
  | [] => ""
  | [s] => s
  | s :: rest => s ++ sep ++ join sep rest

def unlines (lines : List String) : String :=
  join "\n" lines

def fill (n : Nat) (c : Char) : String :=
  String.ofList (List.replicate n c)

/-- Two spaces for each level. -/
def indent (level : Nat) : String :=
  fill (2 * level) ' '

/-- The text at the right end of a column of the given width; a wider text stays as it is. -/
def alignRight (width : Int) (s : String) : String :=
  fill (width - s.length).toNat ' ' ++ s

def replaceChar (c : Char) (image : String) (s : String) : String :=
  String.ofList (s.toList.flatMap fun d => if d = c then image.toList else [d])

/-- Turns every line end, be it CR LF, CR or LF, into LF. -/
def unifyLineEnds : List Char → List Char
  | [] => []
  | '\r' :: '\n' :: rest => '\n' :: unifyLineEnds rest
  | '\r' :: rest => '\n' :: unifyLineEnds rest
  | c :: rest => c :: unifyLineEnds rest

/-- The text as it is read from a file, with every line end as LF. -/
def readLines (s : String) : String :=
  String.ofList (unifyLineEnds s.toList)

def dropStart? (start l : List Char) : Option (List Char) :=
  if start.isPrefixOf l then some (l.drop start.length) else none

def startsWith (start s : String) : Bool :=
  start.toList.isPrefixOf s.toList

def endsWith (stop s : String) : Bool :=
  stop.toList.isSuffixOf s.toList

def occursIn (part : List Char) : List Char → Bool
  | [] => part.isEmpty
  | c :: rest => part.isPrefixOf (c :: rest) || occursIn part rest

def contains (part s : String) : Bool :=
  occursIn part.toList s.toList

end SourceSurvey.Text
