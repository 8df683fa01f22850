import SourceSurvey.Marking.Visit

/-!
# The steps of a trail are those of its nodes

A trail keeps its nodes and their steps in two lists, and entering a node cuts back and extends each of them for
itself. The two never fall out of step (`Trail.InStep`), whatever depths the nodes come with: entering keeps them
together (`Trail.InStep.enter`), and so they are together at every visit of a walk (`Visit.inStep_list`).
-/

namespace SourceSurvey

namespace Trail

variable {α β : Type} {t : Trail} {x : Ancestor}

/-! ## What stays open -/

theorem keep_natCast (d : Nat) (items : List α) : keep d items = items.drop (items.length - d) := by
  rw [keep, keptAt, if_pos (Int.natCast_nonneg d), Int.toNat_natCast]
  congr 1
  omega

theorem keep_nil (d : Int) : keep d ([] : List α) = [] :=
  List.drop_nil

theorem map_keep (f : α → β) (d : Int) (items : List α) : (keep d items).map f = keep d (items.map f) := by
  rw [keep, keep, List.map_drop, List.length_map]

theorem mem_of_mem_keep {d : Int} {items : List α} {y : α} (h : y ∈ keep d items) : y ∈ items :=
  List.mem_of_mem_drop h

/-- Below an outermost item that stays open, everything else is one level higher. -/
theorem keep_append_singleton {d : Nat} (h : 1 ≤ d) (items : List α) (outermost : α) :
    keep d (items ++ [outermost]) = keep (d - 1 : Nat) items ++ [outermost] := by
  rw [keep_natCast, keep_natCast, List.length_append, List.length_singleton,
    List.drop_append_of_le_length (by omega), show items.length + 1 - d = items.length - (d - 1) by omega]

/-- At the first level only the outermost item stays open. -/
theorem keep_one (items : List α) (outermost : α) : keep (1 : Nat) (items ++ [outermost]) = [outermost] := by
  rw [keep_natCast, List.length_append, List.length_singleton, Nat.add_sub_cancel, List.drop_left]

/-! ## The two lists -/

def InStep (t : Trail) : Prop :=
  t.inward = t.nodes.map Ancestor.toPathStep

theorem inStep_empty : InStep {} :=
  rfl

theorem InStep.enter (h : t.InStep) (d : Int) (x : Ancestor) : (t.enter d x).InStep := by
  show x.toPathStep :: keep d t.inward = (x :: keep d t.nodes).map Ancestor.toPathStep
  rw [h, List.map_cons, map_keep]

end Trail

namespace Visit

theorem inStep_listFrom {t : Trail} (h : t.InStep) {i : Nat} {nodes : List FlatNode} :
    ∀ v ∈ listFrom t i nodes, v.trail.InStep := by
  induction nodes generalizing t i with
  | nil =>
      intro v hv
      cases hv
  | cons n rest ih =>
      have entered := h.enter n.depth ⟨⟨n.field, n.kind⟩, i⟩
      intro v hv
      rcases List.mem_cons.mp hv with rfl | hv
      · exact entered
      · exact ih entered v hv

/-- **At every visit the steps are those of the open nodes.** -/
theorem inStep_list {nodes : List FlatNode} {v : Visit} (hv : v ∈ list nodes) : v.trail.InStep :=
  inStep_listFrom Trail.inStep_empty v hv

end Visit

end SourceSurvey
