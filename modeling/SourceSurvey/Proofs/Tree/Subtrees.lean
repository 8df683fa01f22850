import Mathlib.Order.Bounds.Basic
import SourceSurvey.Proofs.Tree.Strict

/-!
# Subtrees, whatever the depths are

The ends of subtrees, the parents and the children of a node list are found in three ways: by closing open
nodes, by looking at what is still open, and by leaping from end to end. All three are questions about depths
alone, and they have the same answers for depths that no tree has, which jump downwards by any number of levels
or rise above the first node (`Arena.subtrees_of_depths`).

- `closers` — where the subtree of a node can end; it ends at the least of them (`isLeast_endOf`).
- `hosts` — what is less deep and comes before; the parent is the greatest of them
  (`parent?_eq_some_iff_isGreatest`).
-/

namespace SourceSurvey.Arena

open Indexing

/-- Where the subtree of node `i` can end: later nodes that are not deeper, and the end of the list. -/
def closers (nodes : List FlatNode) (i : Nat) : Set Nat :=
  {j | i < j ∧ (j < nodes.length ∧ (ofNodes nodes).depth j ≤ (ofNodes nodes).depth i ∨ j = nodes.length)}

def hosts (nodes : List FlatNode) (i : Nat) : Set Nat :=
  {j | j < i ∧ (ofNodes nodes).depth j < (ofNodes nodes).depth i}

variable {nodes : List FlatNode} {i p : Nat}

/-- **A subtree ends as early as it can.** -/
theorem isLeast_endOf (present : i < nodes.length) : IsLeast (closers nodes i) ((ofNodes nodes).endOf i) := by
  obtain ⟨later, within, deeper, stops⟩ := isEnd_endOf present
  rw [List.length_map] at within stops
  simp only [← depth_eq] at deeper stops
  refine ⟨⟨later, ?_⟩, ?_⟩
  · rcases Nat.lt_or_eq_of_le within with inside | last
    · exact Or.inl ⟨inside, stops inside⟩
    · exact Or.inr last
  · rintro j ⟨after, ⟨-, shallow⟩ | rfl⟩
    · by_contra before
      have := deeper j after (Nat.lt_of_not_le before)
      omega
    · exact within

/-- **The parent is the nearest node that can be one.** -/
theorem parent?_eq_some_iff_isGreatest (present : i < nodes.length) :
    (ofNodes nodes).parent? i = some p ↔ IsGreatest (hosts nodes i) p := by
  rw [parent?_eq_some_iff]
  constructor
  · rintro ⟨-, before, less, between⟩
    refine ⟨⟨before, less⟩, ?_⟩
    rintro j ⟨earlier, shallow⟩
    by_contra after
    have := between j (Nat.lt_of_not_le after) earlier
    omega
  · rintro ⟨⟨before, less⟩, greatest⟩
    refine ⟨present, before, less, fun m after earlier => ?_⟩
    by_contra shallow
    have := greatest ⟨earlier, Nat.lt_of_not_le shallow⟩
    omega

theorem parent?_eq_none_iff (present : i < nodes.length) :
    (ofNodes nodes).parent? i = none ↔ hosts nodes i = ∅ := by
  have found := isParent_parent? present
  rw [Set.eq_empty_iff_forall_notMem]
  constructor
  · rintro none j ⟨before, less⟩
    rw [none] at found
    have := found j before
    simp only [← depth_eq] at this
    omega
  · intro empty
    cases around : (ofNodes nodes).parent? i with
    | none => rfl
    | some p =>
        obtain ⟨before, less, -⟩ := spec_of_parent? around
        exact absurd ⟨before, less⟩ (empty p)

/-- **The pass and the leaps agree on any list of depths.** The subtree of a node ends at the least later node
that is not deeper, or with the list. Its parent is the greatest earlier node that is less deep, if there is
one. Leaping from end to end meets nothing that is not there, gets further with every leap and comes to an end;
and it stops, in order and once each, at the nodes of which the node is the parent. -/
theorem subtrees_of_depths (nodes : List FlatNode) (i : Nat) (present : i < nodes.length) :
    IsLeast (closers nodes i) ((ofNodes nodes).endOf i) ∧
      (∀ p, (ofNodes nodes).parent? i = some p ↔ IsGreatest (hosts nodes i) p) ∧
      ((ofNodes nodes).parent? i = none ↔ hosts nodes i = ∅) ∧
      Strict.children (ofNodes nodes) i = .ok (((ofNodes nodes).children i).map (Strict.found (ofNodes nodes))) ∧
      ((ofNodes nodes).children i).Pairwise (· < ·) ∧
      ∀ j, j ∈ (ofNodes nodes).children i ↔ (ofNodes nodes).parent? j = some i :=
  ⟨isLeast_endOf present, fun _ => parent?_eq_some_iff_isGreatest present, parent?_eq_none_iff present,
    Strict.children_eq present, sorted_children _ i, fun _ => mem_children⟩

/-- Nodes at the depths 3, 5, 1, 4, 4, 2, which no tree has. -/
def scattered : List FlatNode :=
  [3, 5, 1, 4, 4, 2].map fun depth => ⟨depth, "block", "", 1, 1, 0, 0, true, none⟩

/-- The third node is less deep than the first one and has no parent, and three children at two depths. -/
theorem subtrees_of_depths_scattered : 2 < scattered.length ∧ (ofNodes scattered).endOf 2 = 6 ∧
    IsLeast (closers scattered 2) 6 ∧ hosts scattered 2 = ∅ ∧ (ofNodes scattered).children 2 = [3, 4, 5] ∧
    (ofNodes scattered).parent? 5 = some 2 := by
  have present : 2 < scattered.length := by decide
  have last : (ofNodes scattered).endOf 2 = 6 := by decide
  have below : (ofNodes scattered).children 2 = [3, 4, 5] := by decide +kernel
  obtain ⟨least, -, top, -, -, parents⟩ := subtrees_of_depths scattered 2 present
  rw [last] at least
  refine ⟨present, last, least, top.mp (by decide), below, (parents 5).mp ?_⟩
  rw [below]
  decide

end SourceSurvey.Arena
