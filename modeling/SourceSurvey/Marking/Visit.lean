import SourceSurvey.Trail.Basic
import SourceSurvey.Tree.FlatNode

/-!
# Visits

A node list is walked through from front to back. A visit is a node together with its trail, which
follows from the depths of the nodes so far.
-/

namespace SourceSurvey

/-- A node being visited, with its trail; the trail's innermost node is the node itself. -/
structure Visit where
  index : Nat
  trail : Trail
deriving DecidableEq, Repr

namespace Visit

/-- The visits of a node list from node `i` on, after the trail of the node before. -/
def listFrom (trail : Trail) (i : Nat) : List FlatNode → List Visit
  | [] => []
  | n :: rest =>
    let trail := trail.enter n.depth { field := n.field, kind := n.kind, index := i }
    ⟨i, trail⟩ :: listFrom trail (i + 1) rest

def list (nodes : List FlatNode) : List Visit :=
  listFrom {} 0 nodes

end Visit

end SourceSurvey
