import SourceSurvey.Trail.Pattern

/-!
# Trails

The trail of a node is the chain of nodes that are open while it is visited: its ancestors, and the
node itself as the innermost. It is kept up to date from depths alone: entering a node at depth `d`
keeps the `d` outermost nodes and puts the new one inside them. The steps of the path are kept in a list
of their own, which is cut back and extended in the same way, so that patterns need not collect them.
-/

namespace SourceSurvey

/-- A node on a trail: its path step and its position in the list of nodes. -/
structure Ancestor extends PathStep where
  index : Nat
deriving DecidableEq, Repr, Inhabited

/-- The open nodes and their steps, each from the innermost to the outermost. -/
structure Trail where
  nodes : List Ancestor := []
  inward : List PathStep := []
deriving DecidableEq, Repr, Inhabited

namespace Trail

/-- How many of `size` open nodes stay open at a depth. A depth below zero counts from the inner end. -/
def keptAt (size : Nat) (depth : Int) : Nat :=
  if 0 ≤ depth then min depth.toNat size else (size + depth).toNat

def keep {α : Type} (depth : Int) (items : List α) : List α :=
  items.drop (items.length - keptAt items.length depth)

/-- Leaves the nodes that are closed at `depth` and enters `node`. -/
def enter (trail : Trail) (depth : Int) (node : Ancestor) : Trail where
  nodes := node :: keep depth trail.nodes
  inward := node.toPathStep :: keep depth trail.inward

/-- The node `k` steps outwards from the innermost. -/
def outward? (trail : Trail) (k : Nat) : Option Ancestor :=
  trail.nodes[k]?

/-- The node at an offset from the innermost, outwards if negative; none beyond either end. -/
def last? (trail : Trail) (offset : Int) : Option Ancestor :=
  if offset ≤ 0 then trail.outward? (-offset).toNat else none

/-- The innermost node of one of the kinds, from `k` steps outwards on. -/
def findKind? (trail : Trail) (kinds : List String) (k : Nat) : Option Ancestor :=
  (trail.nodes.drop k).find? fun a => kinds.contains a.kind

def path (trail : Trail) : List PathStep :=
  trail.inward.reverse

def isMatch (trail : Trail) (pattern : Pattern) : Bool :=
  Pattern.matchesInward pattern.reverse trail.inward

/-- A step for display: the field, if it has a name, and the kind. -/
def showStep (p : PathStep) : String :=
  match p.field with
  | some f => if f = "" then p.kind else f ++ ":" ++ p.kind
  | none => p.kind

def render (trail : Trail) : String :=
  Text.join "/" (trail.path.map showStep)

end Trail

end SourceSurvey
