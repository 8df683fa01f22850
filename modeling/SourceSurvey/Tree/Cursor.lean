import SourceSurvey.Tree.FlatNode
import SourceSurvey.Tree.SyntaxTree

/-!
# Flattening with a cursor

A cursor stands on one node of a syntax tree and moves to the first child, the next sibling or the
parent. `flatten` drives it once around the tree and lists the nodes in pre-order, without ever going
below a node of a closed kind (`closedKinds`): comments, strings and regular expressions count as one
piece. The cursor does not know how deep it is: the walk counts the moves down and up itself, and it
numbers a node by how many have been listed before. It ends because every move to a new node leaves fewer
nodes ahead (`Cursor.ahead`).
-/

namespace SourceSurvey

/-- The kinds whose inner structure is not looked at. -/
def closedKinds : List String := ["comment", "html_comment", "string", "regex"]

/-- One level above the cursor: the parent, and the siblings before (nearest first) and after. -/
structure Crumb where
  parent : NodeInfo
  before : List SyntaxTree
  after : List SyntaxTree

/-- A place in a tree: the node the cursor stands on, and the levels above it from the nearest one. -/
structure Cursor where
  focus : SyntaxTree
  above : List Crumb := []

namespace Cursor

def ofTree (t : SyntaxTree) : Cursor := { focus := t }

def firstChild? (c : Cursor) : Option Cursor :=
  match c.focus with
  | .node _ [] => none
  | .node info (t :: ts) => some ⟨t, ⟨info, [], ts⟩ :: c.above⟩

def nextSibling? (c : Cursor) : Option Cursor :=
  match c.above with
  | ⟨info, before, t :: after⟩ :: above => some ⟨t, ⟨info, c.focus :: before, after⟩ :: above⟩
  | _ => none

def parent? (c : Cursor) : Option Cursor :=
  match c.above with
  | [] => none
  | l :: above => some ⟨.node l.parent (l.before.reverse ++ c.focus :: l.after), above⟩

theorem length_above_of_parent? {c p : Cursor} (h : c.parent? = some p) :
    p.above.length < c.above.length := by
  unfold parent? at h
  split at h
  · contradiction
  · cases h; simp_all

/-- Climbs until there is a next sibling, and moves there; none when the root has been left. Every level
that is climbed is taken off the depth. -/
def advance? (c : Cursor) (depth : Nat) : Option (Cursor × Nat) :=
  match c.nextSibling? with
  | some s => some (s, depth)
  | none =>
    match _h : c.parent? with
    | some p => p.advance? (depth - 1)
    | none => none
termination_by c.above.length
decreasing_by exact length_above_of_parent? _h

/-- The number of nodes after the focus and its subtree. -/
def later : List Crumb → Nat
  | [] => 0
  | l :: above => SyntaxTree.forestSize l.after + later above

/-- The number of nodes from the focus on, in pre-order. -/
def ahead (c : Cursor) : Nat :=
  c.focus.size + later c.above

theorem ahead_firstChild? {c d : Cursor} (h : c.firstChild? = some d) : d.ahead + 1 = c.ahead := by
  unfold firstChild? at h
  split at h
  · contradiction
  · next heq =>
    cases h
    simp [ahead, later, heq, SyntaxTree.size, SyntaxTree.forestSize]
    omega

theorem ahead_nextSibling? {c d : Cursor} (h : c.nextSibling? = some d) :
    d.ahead = later c.above := by
  unfold nextSibling? at h
  split at h
  · next heq =>
    cases h
    simp [ahead, later, heq, SyntaxTree.forestSize]
    omega
  · contradiction

theorem later_parent?_le {c p : Cursor} (h : c.parent? = some p) :
    later p.above ≤ later c.above := by
  unfold parent? at h
  split at h
  · contradiction
  · next heq => cases h; simp [later, heq]

theorem ahead_advance?_le {c d : Cursor} {depth k : Nat} (h : c.advance? depth = some (d, k)) :
    d.ahead ≤ later c.above := by
  fun_induction advance? c depth with
  | case1 c _ s hs =>
    cases h
    exact Nat.le_of_eq (ahead_nextSibling? hs)
  | case2 c _ _ p hp ih => exact Nat.le_trans (ih h) (later_parent?_le hp)
  | case3 => contradiction

theorem size_pos (t : SyntaxTree) : 0 < t.size := by
  cases t; simp [SyntaxTree.size]

theorem ahead_advance?_lt {c d : Cursor} {depth k : Nat} (h : c.advance? depth = some (d, k)) :
    d.ahead < c.ahead := by
  have := ahead_advance?_le h
  have := size_pos c.focus
  simp only [ahead] at *
  omega

/-- The focus as a node of the list. A node of a closed kind counts as childless. -/
def flatNode (source : ParsedSource) (c : Cursor) (depth index : Nat) : IndexedNode :=
  let n := c.focus.info
  { index
    depth
    kind := n.kind
    text := Text.Utf8.decodeReplacing (source.slice n)
    startLine := source.rowAt n.start + 1
    endLine := source.rowAt n.stop + 1
    startColumn := source.columnAt n.start
    endColumn := source.columnAt n.stop
    hasChildren := !c.focus.children.isEmpty && !closedKinds.contains n.kind
    field := n.field }

/-- The next node to be listed, and its depth: the first child, unless the focus is of a closed kind or
childless; otherwise the next node outside the focus. -/
def next? (c : Cursor) (depth : Nat) : Option (Cursor × Nat) :=
  if closedKinds.contains c.focus.info.kind then c.advance? depth
  else match c.firstChild? with
    | some d => some (d, depth + 1)
    | none => c.advance? depth

theorem ahead_next?_lt {c d : Cursor} {depth k : Nat} (h : c.next? depth = some (d, k)) : d.ahead < c.ahead := by
  unfold next? at h
  split at h
  · exact ahead_advance?_lt h
  · split at h
    · next hd => cases h; have := ahead_firstChild? hd; omega
    · exact ahead_advance?_lt h

/-- Lists the nodes from the cursor on, after those that are listed already. -/
def listOnto (source : ParsedSource) (nodes : Array IndexedNode) (c : Cursor) (depth : Nat) :
    Array IndexedNode :=
  let nodes := nodes.push (c.flatNode source depth nodes.size)
  match _h : c.next? depth with
  | some (d, depth) => listOnto source nodes d depth
  | none => nodes
termination_by c.ahead
decreasing_by exact ahead_next?_lt _h

end Cursor

/-- The nodes of a source in pre-order, down to the nodes of closed kinds. -/
def ParsedSource.flatten (source : ParsedSource) : List IndexedNode :=
  (Cursor.listOnto source #[] (Cursor.ofTree source.root) 0).toList

/-- The same nodes without their numbers. -/
def ParsedSource.nodes (source : ParsedSource) : List FlatNode :=
  source.flatten.map IndexedNode.toFlatNode

end SourceSurvey
