import SourceSurvey.Text.Quoted

/-!
# Marks

What the walk over a syntax tree writes down about a node: the category of interest it falls into, a
note on the role it plays there, the label under which it is shown, the file an import leads to, the
node it is linked with, and whether it is exported.
-/

namespace SourceSurvey

inductive Category where
  | imported
  | variableName
  | functionName
  | className
  | call
  | component
  | comment
  | property
  | object
  | block
  | parameter
  | exported
  | arrow
  | paren
deriving DecidableEq, Repr, Inhabited

namespace Category

def name : Category → String
  | imported => "import"
  | variableName => "variable"
  | functionName => "function"
  | className => "class"
  | call => "call"
  | component => "component"
  | comment => "comment"
  | property => "property"
  | object => "object"
  | block => "block"
  | parameter => "parameter"
  | exported => "export"
  | arrow => "arrow"
  | paren => "paren"

def all : List Category :=
  [imported, variableName, functionName, className, call, component, comment, property, object, block,
   parameter, exported, arrow, paren]

def ofName? (s : String) : Option Category :=
  all.find? fun c => c.name == s

def unknownMessage (s : String) : String :=
  Text.quote s ++ " is not a valid Category"

end Category

/-- What is known about one node. `link` is the index of another node: for a declaration its name, for
a name or a tag the node it belongs to. -/
structure Mark where
  category : Option Category := none
  note : String := ""
  label : String := ""
  path : Option String := none
  link : Option Nat := none
  exported : Bool := false
deriving DecidableEq, Repr, Inhabited

/-- The mark says anything at all. -/
def Mark.isSet (m : Mark) : Bool :=
  m.category.isSome || m.note != "" || m.label != "" || m.exported || m.path.isSome || m.link.isSome

end SourceSurvey
