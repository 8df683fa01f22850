import SourceSurvey.Log
import SourceSurvey.Marking.Rules

/-!
# The walk

One pass over a node list in order. Every node is visited once; each group of rules yields at most one
action for the visit, and the actions are performed in the order of the groups. Which actions a visit
yields depends on the nodes alone, never on the marks made so far.
-/

namespace SourceSurvey

namespace Visit

/-- The action of one group of rules on a visit: of the first rule that applies. -/
def actionOf? (a : Arena) (v : Visit) (group : List MarkRule) : Option MarkAction :=
  group.findSome? fun rule => rule.choose (Guard.holds a v) v.trail.inward

/-- The actions of a visit, at most one for each group. -/
def actions (a : Arena) (v : Visit) : List MarkAction :=
  MarkRule.groups.filterMap (actionOf? a v)

end Visit

namespace Markings

def visit (a : Arena) (resolve : Option (String → Option String)) (s : Markings) (v : Visit) :
    Except MissingPattern Markings :=
  (v.actions a).foldlM (fun s action => action.perform a resolve v s) s

/-- The markings of a node list. `resolve` finds the file of an import specifier, if there is anyone to
ask. -/
def ofNodes (nodes : List FlatNode) (resolve : Option (String → Option String)) :
    Except MissingPattern Markings :=
  (Visit.list nodes).foldlM (visit (Arena.ofNodes nodes) resolve) (init nodes.length)

end Markings

/-! ## Marked nodes -/

structure MarkedNode where
  index : Nat
  node : FlatNode
  mark : Mark
deriving DecidableEq, Repr, Inhabited

namespace Markings

def markedNodes (s : Markings) (nodes : List FlatNode) : List MarkedNode :=
  nodes.zipIdx.map fun (node, i) => ⟨i, node, s.mark i⟩

def attentionNodes (s : Markings) (nodes : List FlatNode) : List MarkedNode :=
  s.attention.map fun i => ⟨i, nodes.getD i default, s.mark i⟩

end Markings

def attentionOf (nodes : List FlatNode) (resolve : Option (String → Option String)) :
    Except MissingPattern (List MarkedNode) := do
  let s ← Markings.ofNodes nodes resolve
  return s.attentionNodes nodes

/-! ## Following the walk -/

namespace Visit

/-- Visits that are worth a line when the walk is followed: of declarations, names, comments, closing
parentheses and everything about tags. -/
def isNotable (kind : String) : Bool :=
  Text.endsWith "declaration" kind || Text.endsWith "declarator" kind
    || kind == "identifier" || kind == "comment" || kind == ")" || Text.startsWith "jsx_" kind

/-- What the resolver says when the visit asks it for the specifier of an import. -/
def asked (a : Arena) (say : String → List Record) (v : Visit) : List Record :=
  if (v.actions a).contains .importPath then say (specifierOf (a.text v.index)) else []

/-- What is reported of the visit itself: the path and the text of the node. -/
def records (a : Arena) (v : Visit) : List Record :=
  if isNotable (a.kind v.index) then
    [.debug .marking (v.trail.render ++ " " ++ Text.compact (a.text v.index))]
  else []

end Visit

/-- What is reported while a node list is walked through: on each visit what the resolver says about
the specifier it is asked for, if it is, and then the visit itself. A walk that cannot go on reports
what came before. -/
def walkRecords (nodes : List FlatNode) (result : Except MissingPattern Markings)
    (say : String → List Record) : List Record :=
  let a := Arena.ofNodes nodes
  let visits := match result with
    | .ok _ => Visit.list nodes
    | .error e => (Visit.list nodes).take e.node
  visits.flatMap fun v => v.asked a say ++ v.records a

end SourceSurvey
