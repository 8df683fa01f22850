import SourceSurvey.Document
import SourceSurvey.Marking.Walk
import SourceSurvey.Scan
import SourceSurvey.Table

/-!
# Attention reports

The nodes of interest of files, one row for each, indented by the constructs that are open: a note that
speaks of an opening indents the rows after it, one that speaks of a closing takes its own row back.
-/

namespace SourceSurvey

structure FileReport where
  source : String
  base : String := ""
  nodes : List MarkedNode
deriving DecidableEq, Repr

structure AttentionRow where
  line : Int
  kind : String
  text : String
  indent : Nat
  exported : Bool
  note : String
  path : String
deriving DecidableEq, Repr

namespace AttentionRow

/-- The text shown for a mark; tags are shown as tags. -/
def displayText (m : Mark) : String :=
  if m.category = some .component then
    if Text.startsWith "jsx-fragment-open" m.note then "<>"
    else if Text.startsWith "jsx-fragment-close" m.note then "</>"
    else if Text.startsWith "jsx-close" m.note then "</" ++ m.label ++ ">"
    else if Text.startsWith "jsx-self" m.note then "<" ++ m.label ++ " />"
    else "<" ++ m.label ++ ">"
  else m.label

def closes (note : String) : Bool := Text.contains "close" note

def opens (note : String) : Bool := Text.contains "open" note

def ofNode (n : MarkedNode) (level : Nat) : AttentionRow :=
  { line := n.node.startLine
    kind := match n.mark.category with
      | some c => c.name
      | none => ""
    text := displayText n.mark
    indent := level
    exported := n.mark.exported
    note := n.mark.note
    path := n.mark.path.getD "" }

/-- The rows of nodes from a level on. A closing at the outermost level stays there. -/
def listFrom (level : Nat) : List MarkedNode → List AttentionRow
  | [] => []
  | n :: rest =>
    let here := if closes n.mark.note then level - 1 else level
    ofNode n here :: listFrom (if opens n.mark.note then here + 1 else here) rest

def list (nodes : List MarkedNode) : List AttentionRow :=
  listFrom 0 nodes

def cells (r : AttentionRow) : List Cell :=
  Table.plainRow
    [ toString r.line, r.kind, Text.indent r.indent ++ r.text, if r.exported then "export" else "", r.note,
      r.path ]

def document (r : AttentionRow) : Document :=
  .object
    [ ("line", .number r.line), ("kind", .text r.kind), ("text", .text r.text),
      ("indent", .number r.indent), ("export", .boolean r.exported), ("path", .text r.path) ]

def render (r : AttentionRow) : String :=
  Text.alignRight 5 (toString r.line) ++ " " ++ Text.indent r.indent
    ++ (if r.exported then "export " else "") ++ r.kind ++ ": "
    ++ Text.replaceChar '\n' "\\n" r.text ++ " #" ++ r.note

end AttentionRow

namespace Report

def attentionColumns : List String := ["line", "kind", "text", "export", "note", "path"]

/-- The table of one file: its name, the columns, the rows. -/
def attentionTableOf (report : FileReport) : Table :=
  [{ value := report.source }] :: Table.plainRow attentionColumns
    :: (AttentionRow.list report.nodes).map AttentionRow.cells

/-- The tables of all files with an empty line between them. -/
def attentionTable (reports : List FileReport) : String :=
  Text.join "\n\n" (reports.map fun r => (attentionTableOf r).render)

def attentionDocument (reports : List FileReport) : String :=
  (Document.list (reports.map fun r =>
    .object [("source", .text r.source), ("base", .text r.base),
      ("nodes", .list ((AttentionRow.list r.nodes).map AttentionRow.document))])).render .unicode

/-- The imports of a source: those of its last edge. -/
def importsOf (edges : List Edge) (source : String) : List String :=
  match edges.reverse.find? fun e => e.source == source with
  | some e => e.imports
  | none => []

def attentionLines (edges : List Edge) (report : FileReport) : List String :=
  ["# " ++ report.source, "", "## imports"]
    ++ (importsOf edges report.source).map (fun i => "- " ++ i)
    ++ ["", "## attentions"]
    ++ (AttentionRow.list report.nodes).map AttentionRow.render
    ++ [""]

/-- The listing of all files: imports, then nodes. -/
def attentionListing (reports : List FileReport) (edges : List Edge) : String :=
  Text.unlines (reports.flatMap (attentionLines edges))

end Report

end SourceSurvey
