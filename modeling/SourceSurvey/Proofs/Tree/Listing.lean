import SourceSurvey.Tree.Cursor

/-!
# The listing of a tree

The nodes of a tree in pre-order with their depths, by recursion on the tree and without a cursor. The
cursor lists the same nodes (`ParsedSource.flatten_eq`): wherever it stands, what it has yet to list is
the listing of its focus, followed by those of the later siblings on each level above. The depth that the walk
counts along is the level of the cursor (`Cursor.level_of_next?`), so no move up is counted from zero.
-/

namespace SourceSurvey

namespace SyntaxTree

mutual

/-- The nodes of a tree that stands at a depth, in pre-order; nothing below a node of a closed kind. -/
def listing (depth : Nat) : SyntaxTree → List (Nat × SyntaxTree)
  | node info children =>
    (depth, node info children) ::
      if closedKinds.contains info.kind then [] else forestListing (depth + 1) children

def forestListing (depth : Nat) : List SyntaxTree → List (Nat × SyntaxTree)
  | [] => []
  | t :: ts => listing depth t ++ forestListing depth ts

end

mutual

theorem le_of_mem_listing {depth : Nat} {row : Nat × SyntaxTree} :
    (t : SyntaxTree) → row ∈ listing depth t → depth ≤ row.1
  | node info children, h => by
      rw [listing] at h
      rcases List.mem_cons.mp h with rfl | h
      · exact Nat.le_refl _
      · split at h
        · cases h
        · exact Nat.le_of_succ_le (le_of_mem_forestListing children h)

theorem le_of_mem_forestListing {depth : Nat} {row : Nat × SyntaxTree} :
    (ts : List SyntaxTree) → row ∈ forestListing depth ts → depth ≤ row.1
  | [], h => nomatch h
  | t :: ts, h => by
      rw [forestListing] at h
      rcases List.mem_append.mp h with h | h
      · exact le_of_mem_listing t h
      · exact le_of_mem_forestListing ts h

end

theorem exists_listing (t : SyntaxTree) :
    ∃ rest, t.listing 0 = (0, t) :: rest ∧ ∀ row ∈ rest, 1 ≤ row.1 := by
  obtain ⟨info, children⟩ := t
  refine ⟨_, by rw [listing], ?_⟩
  intro row h
  split at h
  · cases h
  · exact le_of_mem_forestListing children h

end SyntaxTree

open SyntaxTree

def ParsedSource.flatNode (source : ParsedSource) (row : Nat × SyntaxTree) : FlatNode :=
  let n := row.2.info
  { depth := row.1
    kind := n.kind
    text := Text.Utf8.decodeReplacing (source.slice n)
    startLine := source.rowAt n.start + 1
    endLine := source.rowAt n.stop + 1
    startColumn := source.columnAt n.start
    endColumn := source.columnAt n.stop
    hasChildren := !row.2.children.isEmpty && !closedKinds.contains n.kind
    field := n.field }

namespace Cursor

variable {c d : Cursor} {depth k : Nat}

/-! ## The depth is the level of the cursor -/

/-- The distance from the root. -/
def level (c : Cursor) : Nat := c.above.length

theorem level_of_nextSibling? (h : c.nextSibling? = some d) : d.level = c.level := by
  unfold nextSibling? at h
  split at h
  · next above =>
    cases h
    simp [level, above]
  · cases h

theorem level_of_parent? (h : c.parent? = some d) : d.level + 1 = c.level := by
  unfold parent? at h
  split at h
  · cases h
  · next above =>
    cases h
    simp [level, above]

theorem level_of_firstChild? (h : c.firstChild? = some d) : d.level = c.level + 1 := by
  unfold firstChild? at h
  split at h
  · cases h
  · cases h
    rfl

/-- Climbing takes as much off the depth as it leaves levels behind, and never more than there is. -/
theorem level_of_advance? (counted : depth = c.level) (h : c.advance? depth = some (d, k)) : k = d.level := by
  fun_induction advance? c depth with
  | case1 c depth s hs =>
      cases h
      rw [counted, level_of_nextSibling? hs]
  | case2 c depth last p hp ih =>
      refine ih ?_ h
      rw [counted, ← level_of_parent? hp, Nat.add_sub_cancel]
  | case3 => cases h

/-- **One move keeps the depth that is counted at the level of the cursor.** -/
theorem level_of_next? (counted : depth = c.level) (h : c.next? depth = some (d, k)) : k = d.level := by
  unfold next? at h
  split at h
  · exact level_of_advance? counted h
  · split at h
    · next down =>
      cases h
      rw [counted, level_of_firstChild? down]
    · exact level_of_advance? counted h

/-! ## What remains to be listed -/

def rest : List Crumb → List (Nat × SyntaxTree)
  | [] => []
  | l :: above => forestListing (above.length + 1) l.after ++ rest above

def remaining (c : Cursor) : List (Nat × SyntaxTree) :=
  listing c.level c.focus ++ rest c.above

theorem rest_of_nextSibling? (h : c.nextSibling? = some d) : rest c.above = d.remaining := by
  unfold nextSibling? at h
  split at h
  · next above =>
    cases h
    rw [above, rest, forestListing, List.append_assoc]
    rfl
  · cases h

/-- Without a next sibling nothing is left on the level of the focus. -/
theorem rest_of_parent? (last : c.nextSibling? = none) (h : c.parent? = some d) :
    rest c.above = rest d.above := by
  unfold parent? at h
  split at h
  · cases h
  · next l above up =>
    cases h
    unfold nextSibling? at last
    obtain ⟨info, before, after⟩ := l
    cases after with
    | nil => rw [up, rest, forestListing, List.nil_append]
    | cons t after =>
        rw [up] at last
        cases last

theorem rest_of_advance? (h : c.advance? depth = some (d, k)) : rest c.above = d.remaining := by
  fun_induction advance? c depth with
  | case1 c _ s hs =>
      cases h
      exact rest_of_nextSibling? hs
  | case2 c _ last p hp ih => exact (rest_of_parent? last hp).trans (ih h)
  | case3 => cases h

theorem rest_of_advance?_none (h : c.advance? depth = none) : rest c.above = [] := by
  fun_induction advance? c depth with
  | case1 => cases h
  | case2 c _ last p hp ih => exact (rest_of_parent? last hp).trans (ih h)
  | case3 c _ last root =>
      unfold parent? at root
      split at root
      · next above => rw [above, rest]
      · cases root

theorem remaining_eq_of_closed (h : closedKinds.contains c.focus.info.kind = true) :
    c.remaining = (c.level, c.focus) :: rest c.above := by
  obtain ⟨⟨info, children⟩, above⟩ := c
  have closed : closedKinds.contains info.kind = true := h
  rw [remaining, listing, if_pos closed]
  rfl

theorem remaining_eq_of_childless (h : c.firstChild? = none) :
    c.remaining = (c.level, c.focus) :: rest c.above := by
  obtain ⟨⟨info, children⟩, above⟩ := c
  cases children with
  | nil =>
      rw [remaining, listing, forestListing, ite_self]
      rfl
  | cons t ts => cases h

theorem remaining_of_firstChild? (isOpen : ¬ closedKinds.contains c.focus.info.kind = true)
    (h : c.firstChild? = some d) : c.remaining = (c.level, c.focus) :: d.remaining := by
  obtain ⟨⟨info, children⟩, above⟩ := c
  cases children with
  | nil => cases h
  | cons t ts =>
      cases h
      have isOpen : ¬ closedKinds.contains info.kind = true := isOpen
      rw [remaining, listing, if_neg isOpen, forestListing, List.cons_append, List.append_assoc]
      rfl

/-- **One move of the cursor takes one node off the list of those that remain.** -/
theorem remaining_of_next? (c : Cursor) (depth : Nat) :
    c.remaining = (c.level, c.focus) :: ((c.next? depth).elim [] fun next => next.1.remaining) := by
  have advance (leaf : c.remaining = (c.level, c.focus) :: rest c.above) :
      c.remaining = (c.level, c.focus) :: ((c.advance? depth).elim [] fun next => next.1.remaining) := by
    rw [leaf]
    cases h : c.advance? depth with
    | none => rw [rest_of_advance?_none h, Option.elim_none]
    | some next => rw [rest_of_advance? h, Option.elim_some]
  rw [next?]
  split
  · next closed => exact advance (remaining_eq_of_closed closed)
  · next isOpen =>
    split
    · next down => exact remaining_of_firstChild? isOpen down
    · next childless => exact advance (remaining_eq_of_childless childless)

/-- **The walk adds what remains, each node at its depth and under the next number.** -/
theorem toList_listOnto (source : ParsedSource) {nodes : Array IndexedNode} (counted : depth = c.level) :
    (listOnto source nodes c depth).toList =
      nodes.toList ++ (c.remaining.zipIdx nodes.size).map fun e => ⟨source.flatNode e.1, e.2⟩ := by
  fun_induction listOnto source nodes c depth with
  | case1 nodes c depth listed d k hd ih =>
      rw [ih (level_of_next? counted hd), remaining_of_next? c depth, hd, Option.elim_some, List.zipIdx_cons,
        List.map_cons, Array.toList_push, Array.size_push, List.append_assoc, counted]
      rfl
  | case2 nodes c depth listed last =>
      rw [remaining_of_next? c depth, last, Array.toList_push, counted]
      rfl

end Cursor

namespace ParsedSource

/-- **The cursor lists the nodes of the tree in pre-order, with their depths and numbered from zero.** -/
theorem flatten_eq (source : ParsedSource) : source.flatten =
    (source.root.listing 0).zipIdx.map fun e => ⟨source.flatNode e.1, e.2⟩ := by
  have start : 0 = (Cursor.ofTree source.root).level := rfl
  rw [flatten, Cursor.toList_listOnto source start, Cursor.remaining, ← start, Cursor.ofTree, Cursor.rest,
    List.append_nil]
  rfl

theorem nodes_eq (source : ParsedSource) : source.nodes = (source.root.listing 0).map source.flatNode := by
  calc source.nodes = ((source.root.listing 0).zipIdx.map Prod.fst).map source.flatNode := by
        rw [nodes, flatten_eq, List.map_map, List.map_map]
        rfl
    _ = (source.root.listing 0).map source.flatNode := by rw [List.zipIdx_map_fst]

end ParsedSource

end SourceSurvey
