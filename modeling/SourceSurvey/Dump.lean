import SourceSurvey.Document
import SourceSurvey.Marking.Walk
import SourceSurvey.Outline
import SourceSurvey.Tree.Respacing

/-!
# Dumps of one file

The node list of a file in one of six forms: as an indented tree, as a document of all nodes or of the
terminals, as source text, as the list of its components, and as an outline of its tags.
-/

namespace SourceSurvey

inductive DumpMode where
  | tree
  | nodes
  | terminals
  | source
  | components
  | outline
deriving DecidableEq, Repr

namespace DumpMode

def name : DumpMode → String
  | tree => "tree"
  | nodes => "json"
  | terminals => "element"
  | source => "src"
  | components => "jsx-component"
  | outline => "jsx-element"

def all : List DumpMode := [tree, nodes, terminals, source, components, outline]

def ofName? (s : String) : Option DumpMode :=
  all.find? fun m => m.name == s

end DumpMode

inductive DumpError where
  | unknownMode (name : String)
  | walk (cause : MissingPattern)
deriving DecidableEq, Repr

def DumpError.unknownModeMessage (name : String) : String :=
  "Unknown tree mode '" ++ name ++ "'. Use one of: " ++ Text.join ", " (DumpMode.all.map DumpMode.name)

namespace Dump

def title (path : String) : String := "### " ++ path

/-- What the tree shows of a node's text: all of a tag, a comment on one line, of others the terminals. -/
def treeText (n : FlatNode) : String :=
  if n.kind = "comment" then Text.replaceChar '\n' "\\n" n.text
  else if Text.startsWith "jsx_element" n.kind || n.isTerminal then n.text
  else ""

def tree (nodes : List FlatNode) (path : String) : String :=
  Text.unlines (title path ::
    nodes.map fun n => Text.stripEnd (Text.indent n.depth ++ n.kind ++ " " ++ treeText n))

def nodeDocument (n : IndexedNode) : Document :=
  .object
    [ ("index", .number n.index), ("depth", .number n.depth), ("kind", .text n.kind), ("text", .text n.text),
      ("start_line", .number n.startLine), ("end_line", .number n.endLine),
      ("start_col", .number n.startColumn), ("end_col", .number n.endColumn),
      ("has_children", .boolean n.hasChildren), ("field", .ofText? n.field) ]

def documentOf (keep : FlatNode → Bool) (nodes : List IndexedNode) : String :=
  (Document.list ((nodes.filter fun n => keep n.toFlatNode).map nodeDocument)).render .unicode

/-- The names of the functions and variables that return tags. -/
def components (nodes : List FlatNode) (path : String) : Except MissingPattern String := do
  let s ← Markings.ofNodes nodes none
  let array := nodes.toArray
  return Text.unlines (title path :: s.components.map fun i =>
    (if (s.mark i).exported then "export " else "") ++ (array.getD i default).text)

def outline (nodes : List FlatNode) (path : String) : String :=
  Text.unlines (title path :: (Outline.entries nodes).map OutlineEntry.render)

def render (nodes : List IndexedNode) (path : String) : DumpMode → Except MissingPattern String
  | .tree => .ok (tree (nodes.map IndexedNode.toFlatNode) path)
  | .nodes => .ok (documentOf (fun _ => true) nodes)
  | .terminals => .ok (documentOf FlatNode.isTerminal nodes)
  | .source => .ok (respace (nodes.map IndexedNode.toFlatNode))
  | .components => components (nodes.map IndexedNode.toFlatNode) path
  | .outline => .ok (outline (nodes.map IndexedNode.toFlatNode) path)

/-- What is reported while a dump is made: to list components, the nodes are walked through. -/
def records (nodes : List FlatNode) : DumpMode → List Record
  | .components => walkRecords nodes (Markings.ofNodes nodes none) fun _ => []
  | _ => []

def renderNamed (nodes : List IndexedNode) (path mode : String) : Except DumpError String :=
  match DumpMode.ofName? mode with
  | none => .error (.unknownMode mode)
  | some m => (render nodes path m).mapError .walk

end Dump

end SourceSurvey
