import SourceSurvey.Text.Lines
import SourceSurvey.Tree.FlatNode

/-!
# Respacing

The source text as its terminal nodes tell it: their texts in order, set apart by line feeds and spaces
so that each starts at its own line and column. Whatever else stood between them is not kept.
-/

namespace SourceSurvey

structure Place where
  line : Int
  column : Int
deriving DecidableEq, Repr

namespace Place

def start : Place := ⟨1, 0⟩

/-- The line feeds and spaces that lead from a place to the start of a node. Neither is ever negative:
a node that starts before the place follows it directly. -/
def gap (here : Place) (n : FlatNode) : String :=
  let column := if here.line < n.startLine then 0 else here.column
  Text.fill (n.startLine - here.line).toNat '\n' ++ Text.fill (n.startColumn - column).toNat ' '

end Place

def respaceFrom (here : Place) : List FlatNode → String
  | [] => ""
  | n :: rest =>
    if n.isTerminal && n.text != "" then
      here.gap n ++ n.text ++ respaceFrom ⟨n.endLine, n.endColumn⟩ rest
    else respaceFrom here rest

/-- The source text rebuilt from the terminals of a node list. -/
def respace (nodes : List FlatNode) : String :=
  respaceFrom Place.start nodes

end SourceSurvey
