import SourceSurvey.Text.Blank
import SourceSurvey.Text.Lines
import SourceSurvey.Tree.FlatNode

/-!
# The arena of a node list

From the depths alone, one pass over a node list finds for every node the end of its subtree (the first
later node that is not deeper) and its parent (the last earlier node that is less deep). The pass keeps
the open nodes on a stack; a node closes every open node that is not less deep. Children are then found
by leaping from subtree to subtree. All of this is defined for lists that come from no tree, too.
-/

namespace SourceSurvey

/-- The state of the pass over a node list: subtree ends and parents so far, and the open nodes from
the innermost outwards, each with its depth. -/
structure Indexing where
  ends : Array Nat
  parents : Array (Option Nat) := #[]
  openNodes : List (Nat × Nat) := []

namespace Indexing

/-- Closes the open nodes that are at `depth` or deeper: their subtrees end before node `i`. -/
def close (i depth : Nat) : List (Nat × Nat) → Array Nat → List (Nat × Nat) × Array Nat
  | [], ends => ([], ends)
  | (j, d) :: rest, ends =>
    if depth ≤ d then close i depth rest (ends.setIfInBounds j i) else ((j, d) :: rest, ends)

def add (state : Indexing) (depth : Nat) : Indexing :=
  let i := state.parents.size
  let (openNodes, ends) := close i depth state.openNodes state.ends
  { ends
    parents := state.parents.push (openNodes.head?.map Prod.fst)
    openNodes := (i, depth) :: openNodes }

def run (depths : List Nat) : Indexing :=
  depths.foldl add { ends := Array.replicate depths.length depths.length }

end Indexing

/-- A node list with the subtree end and the parent of every node. -/
structure Arena where
  nodes : Array FlatNode
  ends : Array Nat
  parents : Array (Option Nat)

namespace Arena

def ofNodes (nodes : List FlatNode) : Arena :=
  let state := Indexing.run (nodes.map FlatNode.depth)
  ⟨nodes.toArray, state.ends, state.parents⟩

def size (a : Arena) : Nat := a.nodes.size

/-- The first index after the subtree of node `i`. -/
def endOf (a : Arena) (i : Nat) : Nat := a.ends.getD i 0

def parent? (a : Arena) (i : Nat) : Option Nat := a.parents.getD i none

/-- The nodes at which the subtrees from `i` up to `stop` start. -/
def leap (a : Arena) (stop i : Nat) : List Nat :=
  if i < stop then i :: leap a stop (max (a.endOf i) (i + 1)) else []
termination_by stop - i

def children (a : Arena) (i : Nat) : List Nat :=
  a.leap (a.endOf i) (i + 1)

theorem le_of_mem_leap {a : Arena} {stop i j : Nat} (h : j ∈ a.leap stop i) : i ≤ j := by
  fun_induction leap a stop i with
  | case1 i _ ih =>
    cases h with
    | head => exact Nat.le_refl _
    | tail _ h => have := ih h; omega
  | case2 => contradiction

theorem lt_of_mem_children {a : Arena} {i j : Nat} (h : j ∈ a.children i) : i < j :=
  le_of_mem_leap h

def kind (a : Arena) (i : Nat) : String := (a.nodes.getD i default).kind

def field (a : Arena) (i : Nat) : Option String := (a.nodes.getD i default).field

def text (a : Arena) (i : Nat) : String := (a.nodes.getD i default).text

def childByField? (a : Arena) (i : Nat) (field : String) : Option Nat :=
  (a.children i).find? fun j => a.field j == some field

def childOfKind? (a : Arena) (i : Nat) (kind : String) : Option Nat :=
  (a.children i).find? fun j => a.kind j == kind

theorem lt_of_find?_children {a : Arena} {i j : Nat} {p : Nat → Bool}
    (h : (a.children i).find? p = some j) : i < j :=
  lt_of_mem_children (List.mem_of_find?_eq_some h)

/-! ## Access chains -/

/-- Nodes that string names together with dots. -/
def chainKinds : List String := ["member_expression", "nested_identifier"]

def dotKinds : List String := [".", "?.", "optional_chain"]

/-- Nodes that can stand at the start of a chain or after a dot. -/
def nameKinds : List String :=
  ["identifier", "property_identifier", "private_property_identifier", "shorthand_property_identifier",
   "this", "super", "import", "type_identifier"]

/-- The access chain that starts at node `i`, such as `a.b?.c`, rebuilt from its tokens without blanks:
calls show as `()`, subscripts keep their index, and anything that is no part of a chain is empty. -/
def chainText (a : Arena) (i : Nat) : String :=
  if i < a.size then
    let kind := a.kind i
    if chainKinds.contains kind then
      String.join ((a.children i).attach.map fun ⟨j, _h⟩ =>
        if dotKinds.contains (a.kind j) then a.text j else a.chainText j)
    else if kind = "call_expression" then
      match _h : (a.children i).find? (fun j => a.field j == some "function") with
      | some callee => a.chainText callee ++ "()"
      | none => ""
    else if kind = "subscript_expression" then
      match _h : (a.children i).find? (fun j => a.field j == some "object") with
      | some object =>
        let index := match a.childByField? i "index" with
          | some key => Text.compact (a.text key)
          | none => ""
        a.chainText object ++ "[" ++ index ++ "]"
      | none => ""
    else if kind = "parenthesized_expression" then
      match _h : (a.children i).find? (fun j => a.kind j != "(" && a.kind j != ")") with
      | some inner => "(" ++ a.chainText inner ++ ")"
      | none => ""
    else if kind = "non_null_expression" then
      match _h : (a.children i).find? (fun j => a.kind j != "!") with
      | some inner => a.chainText inner ++ "!"
      | none => ""
    else if nameKinds.contains kind then Text.compact (a.text i)
    else ""
  else ""
termination_by a.size - i
decreasing_by
  · have := lt_of_mem_children _h
    omega
  all_goals
    have := lt_of_find?_children _h
    omega

end Arena

end SourceSurvey
