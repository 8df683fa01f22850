/-!
# Flat nodes

A syntax tree is handed on as the list of its nodes in pre-order. A node carries its depth instead of
links to other nodes. Lists that come from no tree are allowed: depths may jump, the first node may be
deep, `hasChildren` may be wrong. Whoever lists the nodes of a tree numbers them (`IndexedNode`); whoever
walks through a list counts the nodes again.
-/

namespace SourceSurvey

/-- One node of a syntax tree in pre-order. Lines count from 1, columns from 0. -/
structure FlatNode where
  depth : Nat
  kind : String
  text : String
  startLine : Int
  endLine : Int
  startColumn : Int
  endColumn : Int
  hasChildren : Bool
  field : Option String
deriving DecidableEq, Repr, Inhabited

namespace FlatNode

def isTerminal (n : FlatNode) : Bool := !n.hasChildren

end FlatNode

/-- A node with the number it was listed under. -/
structure IndexedNode extends FlatNode where
  index : Nat
deriving DecidableEq, Repr, Inhabited

end SourceSurvey
