import SourceSurvey.Text.Lines

/-!
# Path patterns

A path leads from the root of a syntax tree to one of its nodes; each step carries the node's kind and
the field under which its parent holds it. A pattern speaks about the end of a path: its last step must
accept the last step of the path, and so on outwards. A step may be optional, and then it may be left
out. Patterns are written with a slash between steps, as in `formal_parameters?/pattern:identifier`.
-/

namespace SourceSurvey

/-- One node on a path: the field that holds it, if it has one, and its kind. -/
structure PathStep where
  field : Option String
  kind : String
deriving DecidableEq, Repr, Inhabited

/-- One step of a pattern: the accepted kinds (`none` accepts all), the field asked for, if any, and
whether the step may be left out. -/
structure Step where
  kinds : Option (List String)
  field : Option String := none
  isOptional : Bool := false
deriving DecidableEq, Repr, Inhabited

abbrev Pattern := List Step

namespace Step

def kind (k : String) : Step := { kinds := some [k] }

def oneOf (ks : List String) : Step := { kinds := some ks }

def under (f : String) (s : Step) : Step := { s with field := some f }

def optionally (s : Step) : Step := { s with isOptional := true }

def accepts (s : Step) (p : PathStep) : Bool :=
  (match s.kinds with
    | none => true
    | some ks => ks.contains p.kind)
  && (match s.field with
    | none => true
    | some f => p.field == some f)

/-- The accepted kinds in alphabetical order, each once. -/
def kindNames (s : Step) : Option (List String) :=
  s.kinds.map fun ks => ks.eraseDups.mergeSort fun a b => decide (a ≤ b)

def render (s : Step) : String :=
  (match s.field with
    | none => ""
    | some f => f ++ ":")
  ++ (match s.kinds with
    | none => "*"
    | some ks => Text.join "|" ks)
  ++ (if s.isOptional then "?" else "")

/-- Takes the mark of an optional step off the end; a lone mark is a kind of its own. -/
def splitOptional (raw : List Char) : List Char × Bool :=
  if 1 < raw.length ∧ raw.getLast? = some '?' then (raw.dropLast, true) else (raw, false)

/-- Splits the field off at the first colon; a colon at the very start belongs to the kind. -/
def splitField (raw : List Char) : Option (List Char) × List Char :=
  if raw.head? = some ':' then (none, raw)
  else match raw.dropWhile (· != ':') with
    | _ :: kinds => (some (raw.takeWhile (· != ':')), kinds)
    | [] => (none, raw)

def readKinds (raw : List Char) : Option (List String) :=
  if raw = ['*'] then none else some ((Text.splitChars '|' raw).map String.ofList)

def parse (raw : List Char) : Step :=
  let (body, isOptional) := splitOptional raw
  let (field, kinds) := splitField body
  { kinds := readKinds kinds, field := field.map String.ofList, isOptional }

end Step

namespace Pattern

def parse (text : String) : Pattern :=
  (Text.splitChars '/' text.toList).map Step.parse

def render (pattern : Pattern) : String :=
  Text.join "/" (pattern.map Step.render)

/-- Matches steps against a path, both given from the innermost outwards. -/
def matchesInward : List Step → List PathStep → Bool
  | [], _ => true
  | s :: steps, [] => s.isOptional && matchesInward steps []
  | s :: steps, p :: outer =>
    (s.accepts p && matchesInward steps outer) || (s.isOptional && matchesInward steps (p :: outer))

/-- The pattern matches the end of a path, given from the root. -/
def matchesEnd (pattern : Pattern) (path : List PathStep) : Bool :=
  matchesInward pattern.reverse path.reverse

end Pattern

end SourceSurvey
