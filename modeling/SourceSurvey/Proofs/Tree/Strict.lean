import SourceSurvey.Proofs.Tree.Chain
import SourceSurvey.Proofs.Tree.Navigation

/-!
# Strict lookups in a node list

The arena answers every question, also about nodes that are not there, and leaps at least one node ahead
whatever the ends of subtrees are. A strict lookup does none of that: it fails where it finds nothing, where
a leap does not lead on, and where a chain goes deeper than there are nodes. On the arena of a node list,
from a node of the list on, strict lookups never fail, and they find what the arena answers. The depths of
the nodes may be any. A chain may be as deep as the list is long: the stack of whatever runs the recursion is
taken to be unlimited, so that too deep a chain is nothing a lookup can miss.
-/

namespace SourceSurvey

inductive Missing where
  /-- No node has this index. -/
  | node (index : Nat)
  /-- A search does not get past this node. -/
  | progress (index : Nat)
  /-- Nothing stands so many steps outwards from the visited node. -/
  | around (visited steps : Nat)
  /-- Nothing stands around the pair of which the visited object pattern is the value. -/
  | pattern (visited : Nat)
deriving DecidableEq, Repr

namespace Strict

def entry {α : Type} (table : Array α) (i : Nat) : Except Missing α :=
  match table[i]? with
  | some x => pure x
  | none => throw (.node i)

structure Found where
  index : Nat
  node : FlatNode

/-- The nodes at which the subtrees from `i` up to `stop` start. -/
def leap (a : Arena) (stop i : Nat) : Except Missing (List Found) :=
  if _h : i < stop then do
    let node ← entry a.nodes i
    let next ← entry a.ends i
    if _hn : i < next then
      let rest ← leap a stop next
      return ⟨i, node⟩ :: rest
    else throw (.progress i)
  else return []
termination_by stop - i
decreasing_by omega

def children (a : Arena) (i : Nat) : Except Missing (List Found) := do
  let stop ← entry a.ends i
  leap a stop (i + 1)

def childByField (a : Arena) (i : Nat) (field : String) : Except Missing (Option Found) := do
  let found ← children a i
  return found.find? fun c => c.node.field == some field

def childOfKind (a : Arena) (i : Nat) (kind : String) : Except Missing (Option Found) := do
  let found ← children a i
  return found.find? fun c => c.node.kind == kind

def chainStep (a : Arena) (chain : Nat → Except Missing String) (i : Nat) : Except Missing String := do
  let node ← entry a.nodes i
  if Arena.chainKinds.contains node.kind then
    let found ← children a i
    let parts ← found.mapM fun c =>
      if Arena.dotKinds.contains c.node.kind then pure c.node.text else chain c.index
    return String.join parts
  else if node.kind = "call_expression" then
    match ← childByField a i "function" with
    | some callee => return (← chain callee.index) ++ "()"
    | none => return ""
  else if node.kind = "subscript_expression" then
    let object ← childByField a i "object"
    let key ← childByField a i "index"
    match object with
    | some object =>
      let index := match key with
        | some key => Text.compact key.node.text
        | none => ""
      return (← chain object.index) ++ "[" ++ index ++ "]"
    | none => return ""
  else if node.kind = "parenthesized_expression" then
    let found ← children a i
    match found.find? fun c => c.node.kind != "(" && c.node.kind != ")" with
    | some inner => return "(" ++ (← chain inner.index) ++ ")"
    | none => return ""
  else if node.kind = "non_null_expression" then
    let found ← children a i
    match found.find? fun c => c.node.kind != "!" with
    | some inner => return (← chain inner.index) ++ "!"
    | none => return ""
  else if Arena.nameKinds.contains node.kind then return Text.compact node.text
  else return ""

/-- The access chain at a node, to a depth. -/
def chainWithin (a : Arena) : Nat → Nat → Except Missing String
  | 0, i => throw (.progress i)
  | depth + 1, i => chainStep a (chainWithin a depth) i

/-- The access chain at a node. A chain goes deeper at most as often as there are nodes. -/
def chainText (a : Arena) (i : Nat) : Except Missing String :=
  chainWithin a a.size i

/-! ## Strict lookups find what the arena answers -/

/-- The node of an arena that a search comes upon at index `i`. -/
def found (a : Arena) (i : Nat) : Found := ⟨i, a.nodes.getD i default⟩

@[simp] theorem index_found {a : Arena} {i : Nat} : (found a i).index = i := rfl

@[simp] theorem kind_found {a : Arena} {i : Nat} : (found a i).node.kind = a.kind i := rfl

@[simp] theorem field_found {a : Arena} {i : Nat} : (found a i).node.field = a.field i := rfl

@[simp] theorem text_found {a : Arena} {i : Nat} : (found a i).node.text = a.text i := rfl

theorem entry_eq {α : Type} {table : Array α} {i : Nat} (present : i < table.size) (d : α) :
    entry table i = pure (table.getD i d) := by
  rw [entry, Array.getD_eq_getD_getElem?, Array.getElem?_eq_getElem present]
  rfl

variable {nodes : List FlatNode} {i : Nat}

theorem entry_nodes (present : i < nodes.length) :
    entry (Arena.ofNodes nodes).nodes i = pure (found (Arena.ofNodes nodes) i).node :=
  entry_eq (by simpa [Arena.ofNodes] using present) _

theorem entry_ends (present : i < nodes.length) :
    entry (Arena.ofNodes nodes).ends i = pure ((Arena.ofNodes nodes).endOf i) := by
  refine entry_eq ?_ 0
  show i < (Indexing.run (nodes.map FlatNode.depth)).ends.size
  rwa [(Indexing.reached_run _).size_ends, List.length_map]

theorem entry_parents (present : i < nodes.length) :
    entry (Arena.ofNodes nodes).parents i = pure ((Arena.ofNodes nodes).parent? i) := by
  refine entry_eq ?_ none
  show i < (Indexing.run (nodes.map FlatNode.depth)).parents.size
  rwa [(Indexing.reached_run _).size_parents, List.length_map]

theorem leap_eq {stop : Nat} (within : stop ≤ nodes.length) (i : Nat) :
    leap (Arena.ofNodes nodes) stop i =
      pure (((Arena.ofNodes nodes).leap stop i).map (found (Arena.ofNodes nodes))) := by
  fun_induction Arena.leap (Arena.ofNodes nodes) stop i with
  | case1 i inside ih =>
      have present := Nat.lt_of_lt_of_le inside within
      have later := (Arena.isEnd_endOf present).lt
      rw [Nat.max_eq_left later] at ih ⊢
      rw [leap, dif_pos inside, entry_nodes present, entry_ends present, pure_bind, pure_bind, dif_pos later, ih]
      rfl
  | case2 i beyond => rw [leap, dif_neg beyond]; rfl

theorem children_eq (present : i < nodes.length) : children (Arena.ofNodes nodes) i =
    pure (((Arena.ofNodes nodes).children i).map (found (Arena.ofNodes nodes))) := by
  have within := (Arena.isEnd_endOf present).le
  rw [List.length_map] at within
  rw [children, entry_ends present, pure_bind, leap_eq within]
  rfl

theorem childByField_eq (present : i < nodes.length) (field : String) :
    childByField (Arena.ofNodes nodes) i field =
      pure (((Arena.ofNodes nodes).childByField? i field).map (found (Arena.ofNodes nodes))) := by
  rw [childByField, children_eq present, pure_bind, List.find?_map]
  rfl

theorem childOfKind_eq (present : i < nodes.length) (kind : String) :
    childOfKind (Arena.ofNodes nodes) i kind =
      pure (((Arena.ofNodes nodes).childOfKind? i kind).map (found (Arena.ofNodes nodes))) := by
  rw [childOfKind, children_eq present, pure_bind, List.find?_map]
  rfl

theorem mapM_eq {α β : Type} {f : α → Except Missing β} {g : α → β} {l : List α}
    (h : ∀ x ∈ l, f x = pure (g x)) : l.mapM f = pure (l.map g) := by
  induction l with
  | nil => rfl
  | cons x rest ih =>
      rw [List.mapM_cons, h x List.mem_cons_self, pure_bind,
        ih fun y hy => h y (List.mem_cons_of_mem x hy)]
      rfl

theorem lt_length_of_mem_children {j : Nat} (h : j ∈ (Arena.ofNodes nodes).children i) : j < nodes.length :=
  Arena.lt_length_of_parent? (Arena.mem_children.mp h)

section Chain

variable {chain : Nat → Except Missing String} {text : Nat → String}

theorem chainStep_eq (present : i < nodes.length)
    (deeper : ∀ j ∈ (Arena.ofNodes nodes).children i, chain j = pure (text j)) :
    chainStep (Arena.ofNodes nodes) chain i = pure ((Arena.ofNodes nodes).chainStep text i) := by
  have follow {p : Nat → Bool} {j : Nat} (h : ((Arena.ofNodes nodes).children i).find? p = some j) :
      chain j = pure (text j) := deeper j (List.mem_of_find?_eq_some h)
  simp only [chainStep, entry_nodes present, children_eq present, childByField_eq present, pure_bind, kind_found,
    text_found, List.find?_map, List.mapM_map, Function.comp_def, index_found, Arena.chainStep,
    apply_ite (pure : String → Except Missing String)]
  by_cases kind : Arena.chainKinds.contains ((Arena.ofNodes nodes).kind i) = true
  · simp only [kind, reduceIte]
    rw [mapM_eq (g := fun j =>
      if Arena.dotKinds.contains ((Arena.ofNodes nodes).kind j) then (Arena.ofNodes nodes).text j else text j)]
    · rfl
    · intro j hj
      rw [deeper j hj]
      exact (apply_ite pure _ _ _).symm
  simp only [kind, Bool.false_eq_true, reduceIte]
  by_cases kind : (Arena.ofNodes nodes).kind i = "call_expression"
  · simp only [kind, reduceIte]
    cases callee : (Arena.ofNodes nodes).childByField? i "function" with
    | none => rfl
    | some j => exact congrArg (· >>= _) (follow callee)
  simp only [kind, reduceIte]
  by_cases kind : (Arena.ofNodes nodes).kind i = "subscript_expression"
  · simp only [kind, reduceIte]
    cases object : (Arena.ofNodes nodes).childByField? i "object" with
    | none => rfl
    | some j =>
        cases (Arena.ofNodes nodes).childByField? i "index" with
        | none => exact congrArg (· >>= _) (follow object)
        | some k => exact congrArg (· >>= _) (follow object)
  simp only [kind, reduceIte]
  by_cases kind : (Arena.ofNodes nodes).kind i = "parenthesized_expression"
  · simp only [kind, reduceIte]
    cases inner : ((Arena.ofNodes nodes).children i).find? fun j =>
        (Arena.ofNodes nodes).kind j != "(" && (Arena.ofNodes nodes).kind j != ")" with
    | none => rfl
    | some j => exact congrArg (· >>= _) (follow inner)
  simp only [kind, reduceIte]
  by_cases kind : (Arena.ofNodes nodes).kind i = "non_null_expression"
  · simp only [kind, reduceIte]
    cases inner : ((Arena.ofNodes nodes).children i).find? fun j => (Arena.ofNodes nodes).kind j != "!" with
    | none => rfl
    | some j => exact congrArg (· >>= _) (follow inner)
  simp only [kind, reduceIte]
  rfl

/-- **Chains come to their end**: they only lead to later nodes. -/
theorem chainWithin_eq {depth : Nat} (enough : nodes.length ≤ i + depth) (present : i < nodes.length) :
    chainWithin (Arena.ofNodes nodes) depth i = pure ((Arena.ofNodes nodes).chainText i) := by
  have size : (Arena.ofNodes nodes).size = nodes.length := by simp [Arena.size, Arena.ofNodes]
  induction depth generalizing i with
  | zero => omega
  | succ depth ih =>
      rw [chainWithin, Arena.chainText_eq_chainStep (by rwa [size])]
      refine chainStep_eq present ?_
      intro j hj
      have later := Arena.lt_of_mem_children hj
      exact ih (by omega) (lt_length_of_mem_children hj)

end Chain

theorem chainText_eq (present : i < nodes.length) :
    chainText (Arena.ofNodes nodes) i = pure ((Arena.ofNodes nodes).chainText i) :=
  chainWithin_eq (by simp [Arena.size, Arena.ofNodes]) present

end Strict

end SourceSurvey
