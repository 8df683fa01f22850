import Mathlib.Data.List.Chain
import SourceSurvey.Proofs.Tree.Ancestry
import SourceSurvey.Proofs.Tree.Positions

/-!
# Finding the tree in the flat list

The flat list of a tree keeps depths and no links. The arena finds parents and children again by comparing
depths. Of any list of depths the children of a node are the nodes of which it is the parent, in order
(`Arena.mem_children`, `Arena.sorted_children`). Of the flat list of a tree they are the children in the
tree (`ParsedSource.flatten_is_tree`): between a node and its parent, in lexicographic order, there are only
positions that are at least as long.
-/

namespace SourceSurvey

/-! ## Children and parents -/

namespace Arena

open Indexing

variable {a : Arena} {nodes : List FlatNode} {i j stop : Nat}

theorem sorted_leap (a : Arena) (stop i : Nat) : (a.leap stop i).Pairwise (· < ·) := by
  fun_induction leap a stop i with
  | case1 i _ ih =>
      refine List.pairwise_cons.mpr ⟨?_, ih⟩
      intro j hj
      have := le_of_mem_leap hj
      omega
  | case2 => exact List.Pairwise.nil

theorem sorted_children (a : Arena) (i : Nat) : (a.children i).Pairwise (· < ·) :=
  sorted_leap a _ _

/-- Leaping from subtree to subtree stops at the nodes that are not deeper than any node passed. -/
theorem mem_leap (within : stop ≤ nodes.length) : j ∈ (ofNodes nodes).leap stop i ↔
    i ≤ j ∧ j < stop ∧ ∀ m, i ≤ m → m < j → (ofNodes nodes).depth j ≤ (ofNodes nodes).depth m := by
  fun_induction leap (ofNodes nodes) stop i with
  | case1 i hi ih =>
      obtain ⟨later, -, deeper, stops⟩ := isEnd_endOf (Nat.lt_of_lt_of_le hi within)
      rw [List.length_map] at stops
      simp only [← depth_eq] at deeper stops
      have next : max ((ofNodes nodes).endOf i) (i + 1) = (ofNodes nodes).endOf i := by omega
      rw [next] at ih ⊢
      rw [List.mem_cons, ih]
      constructor
      · rintro (rfl | ⟨start, below, least⟩)
        · refine ⟨Nat.le_refl _, hi, ?_⟩
          intro m hm hj
          omega
        · -- the node at the end of the subtree is not deeper than its top, and this one not deeper than it
          have top : (ofNodes nodes).depth j ≤ (ofNodes nodes).depth i := by
            have close := stops (by omega)
            rcases Nat.lt_or_eq_of_le start with after | same
            · exact Nat.le_trans (least _ (Nat.le_refl _) after) close
            · rwa [← same]
          refine ⟨by omega, below, ?_⟩
          intro m hm hj
          rcases Nat.lt_or_ge m ((ofNodes nodes).endOf i) with inside | outside
          · rcases Nat.lt_or_eq_of_le hm with inner | rfl
            · exact Nat.le_trans top (Nat.le_of_lt (deeper m inner inside))
            · exact top
          · exact least m outside hj
      · rintro ⟨start, below, least⟩
        rcases Nat.lt_or_eq_of_le start with after | rfl
        · refine Or.inr ⟨?_, below, fun m hm hj => least m (by omega) hj⟩
          -- inside of the subtree everything is deeper than its top
          by_contra inside
          have := deeper j after (Nat.lt_of_not_le inside)
          have := least i (Nat.le_refl i) after
          omega
        · exact Or.inl rfl
  | case2 i hi =>
      constructor
      · intro h
        cases h
      · rintro ⟨start, below, -⟩
        omega

theorem parent?_eq_some_iff : (ofNodes nodes).parent? j = some i ↔
    j < nodes.length ∧ i < j ∧ (ofNodes nodes).depth i < (ofNodes nodes).depth j ∧
      ∀ m, i < m → m < j → (ofNodes nodes).depth j ≤ (ofNodes nodes).depth m := by
  constructor
  · intro h
    exact ⟨lt_length_of_parent? h, spec_of_parent? h⟩
  · rintro ⟨present, found⟩
    apply (isParent_parent? present).unique (q := some i)
    simpa only [IsParent, ← depth_eq] using found

/-- **The children of a node are the nodes of which it is the parent.** -/
theorem mem_children : j ∈ (ofNodes nodes).children i ↔ (ofNodes nodes).parent? j = some i := by
  rw [parent?_eq_some_iff]
  by_cases present : i < nodes.length
  · obtain ⟨later, within, deeper, stops⟩ := isEnd_endOf present
    rw [List.length_map] at within stops
    simp only [← depth_eq] at deeper stops
    rw [children, mem_leap within]
    constructor
    · rintro ⟨start, below, least⟩
      exact ⟨by omega, start, deeper j start below, least⟩
    · rintro ⟨listed, start, less, least⟩
      refine ⟨start, ?_, least⟩
      -- a node at the end of the subtree would be as high as its top
      by_contra outside
      have close := stops (by omega)
      rcases Nat.lt_or_eq_of_le (Nat.le_of_not_lt outside) with after | same
      · have := least _ later after
        omega
      · rw [same] at close
        omega
  · constructor
    · intro h
      have none : (ofNodes nodes).endOf i = 0 := by
        have size := (reached_run (nodes.map FlatNode.depth)).size_ends
        rw [List.length_map] at size
        rw [endOf, Array.getD_eq_getD_getElem?, Array.getElem?_eq_none]
        · rfl
        · show (run (nodes.map FlatNode.depth)).ends.size ≤ i
          omega
      have := lt_of_mem_leap h
      omega
    · rintro ⟨listed, start, -⟩
      omega

end Arena

/-! ## Positions and indices -/

/-- Between a position and one directly below it, in lexicographic order, there are only longer ones. -/
theorem length_lt_of_between {q r : List Nat} {k : Nat} (after : q < r) (before : r < q ++ [k]) :
    q.length < r.length := by
  induction q generalizing r with
  | nil =>
      cases r with
      | nil => exact absurd after (List.lt_irrefl [])
      | cons y r => exact Nat.succ_pos _
  | cons x q ih =>
      cases r with
      | nil => exact absurd after (List.not_lt_nil _)
      | cons y r =>
          rw [List.cons_append] at before
          rcases List.cons_lt_cons_iff.mp before with less | ⟨rfl, rest_before⟩
          · rcases List.cons_lt_cons_iff.mp after with more | ⟨rfl, -⟩
            · exact absurd more (Nat.lt_asymm less)
            · exact absurd less (Nat.lt_irrefl _)
          · rcases List.cons_lt_cons_iff.mp after with more | ⟨-, rest_after⟩
            · exact absurd more (Nat.lt_irrefl _)
            · exact Nat.succ_lt_succ (ih rest_after rest_before)

namespace SyntaxTree

variable {t u : SyntaxTree} {p q : List Nat} {i j : Nat}

theorem lt_of_places (hi : t.places[i]? = some p) (hj : t.places[j]? = some q) (h : i < j) : p < q := by
  obtain ⟨inside, rfl⟩ := List.getElem?_eq_some_iff.mp hi
  obtain ⟨inside', rfl⟩ := List.getElem?_eq_some_iff.mp hj
  exact List.pairwise_iff_getElem.mp (sorted_places t) i j inside inside' h

/-- The order of the list is that of the positions. -/
theorem index_lt_of_places (hi : t.places[i]? = some p) (hj : t.places[j]? = some q) (h : p < q) :
    i < j := by
  rcases Nat.lt_trichotomy i j with before | rfl | after
  · exact before
  · cases hi.symm.trans hj
    exact absurd h (List.lt_irrefl p)
  · exact absurd (lt_of_places hj hi after) (List.lt_asymm h)

theorem index_unique (hi : t.places[i]? = some p) (hj : t.places[j]? = some p) : i = j := by
  rcases Nat.lt_trichotomy i j with before | same | after
  · exact absurd (lt_of_places hi hj before) (List.lt_irrefl p)
  · exact same
  · exact absurd (lt_of_places hj hi after) (List.lt_irrefl p)

theorem exists_index (h : t.subtree? p = some u) : ∃ i : Nat, t.places[i]? = some p :=
  List.getElem?_of_mem ((mem_places t p).mpr ⟨u, h⟩)

theorem exists_subtree? (hi : t.places[i]? = some p) : ∃ u, t.subtree? p = some u :=
  (mem_places t p).mp (List.mem_of_getElem? hi)

end SyntaxTree

section Flat

open Arena SyntaxTree

variable {t u : SyntaxTree} {nodes : List FlatNode} {p q : List Nat} {i j k : Nat}
  (shape : nodes.map FlatNode.depth = t.places.map List.length)

include shape

theorem length_of_shape : nodes.length = t.places.length := by
  rw [← List.length_map FlatNode.depth, shape, List.length_map]

theorem depth_of_place (hi : t.places[i]? = some p) : (ofNodes nodes).depth i = p.length := by
  rw [depth_eq, shape, List.getD_eq_getElem?_getD, List.getElem?_map, hi]
  rfl

theorem exists_place (hi : i < nodes.length) : ∃ p, t.places[i]? = some p := by
  rw [length_of_shape shape] at hi
  exact ⟨_, List.getElem?_eq_getElem hi⟩

/-- **The parent of a node is the node one step up.** -/
theorem parent?_of_place (hi : t.places[i]? = some (q ++ [k])) :
    ∃ j, t.places[j]? = some q ∧ (ofNodes nodes).parent? i = some j := by
  obtain ⟨u, found⟩ := exists_subtree? hi
  obtain ⟨w, above⟩ := exists_subtree?_of_prefix found (List.prefix_append q [k])
  obtain ⟨j, hj⟩ := exists_index above
  have up : q < q ++ [k] := by
    rw [← List.append_nil q, List.append_assoc]
    exact List.append_left_lt (List.nil_lt_cons k [])
  refine ⟨j, hj, parent?_eq_some_iff.mpr ⟨?_, index_lt_of_places hj hi up, ?_, ?_⟩⟩
  · rw [length_of_shape shape]
    exact (List.getElem?_eq_some_iff.mp hi).1
  · rw [depth_of_place shape hi, depth_of_place shape hj, List.length_append]
    exact Nat.lt_succ_self _
  · intro m later earlier
    obtain ⟨r, hm⟩ := exists_place shape (i := m) (by
      rw [length_of_shape shape]
      exact Nat.lt_trans earlier (List.getElem?_eq_some_iff.mp hi).1)
    rw [depth_of_place shape hi, depth_of_place shape hm, List.length_append]
    exact length_lt_of_between (lt_of_places hj hm later) (lt_of_places hm hi earlier)

theorem parent?_of_root (hi : t.places[i]? = some []) : (ofNodes nodes).parent? i = none := by
  cases around : (ofNodes nodes).parent? i with
  | none => rfl
  | some j =>
      obtain ⟨-, -, less, -⟩ := parent?_eq_some_iff.mp around
      rw [depth_of_place shape hi] at less
      exact absurd less (Nat.not_lt_zero _)

theorem parent?_iff_place (hi : t.places[i]? = some p) (hj : t.places[j]? = some q) :
    (ofNodes nodes).parent? j = some i ↔ ∃ k, q = p ++ [k] := by
  rcases List.eq_nil_or_concat q with rfl | ⟨r, k, rfl⟩
  · rw [parent?_of_root shape hj]
    constructor
    · intro h
      cases h
    · rintro ⟨k, h⟩
      exact absurd h.symm (List.append_ne_nil_of_right_ne_nil p (List.cons_ne_nil k []))
  · rw [List.concat_eq_append] at *
    obtain ⟨m, hm, around⟩ := parent?_of_place shape hj
    rw [around]
    constructor
    · rintro ⟨⟩
      cases hm.symm.trans hi
      exact ⟨k, rfl⟩
    · rintro ⟨k', same⟩
      obtain ⟨rfl, -⟩ := List.append_inj' same rfl
      rw [index_unique hm hi]

/-- **The children of a node are the nodes one step down, in order.** -/
theorem children_of_place (hi : t.places[i]? = some p) (hu : t.subtree? p = some u) :
    ((ofNodes nodes).children i).map (t.places[·]?) =
      (List.range u.children.length).map fun k => some (p ++ [k]) := by
  have present : ∀ j ∈ (ofNodes nodes).children i, ∃ q, t.places[j]? = some q := by
    intro j hj
    exact exists_place shape (lt_length_of_parent? (mem_children.mp hj))
  have positions : ((ofNodes nodes).children i).map (fun j => (t.places[j]?).getD []) =
      (List.range u.children.length).map fun k => p ++ [k] := by
    -- both lists go up strictly, so it is enough that they have the same members
    refine List.Pairwise.eq_of_mem_iff (r := (· < ·)) ?_ ?_ ?_
    · refine List.pairwise_map.mpr ((sorted_children _ i).imp_of_mem ?_)
      intro j m hj hm less
      obtain ⟨q, hq⟩ := present j hj
      obtain ⟨r, hr⟩ := present m hm
      rw [hq, hr]
      exact lt_of_places hq hr less
    · refine List.pairwise_map.mpr (List.pairwise_lt_range.imp ?_)
      intro k m less
      exact List.append_left_lt (List.cons_lt_cons_iff.mpr (Or.inl less))
    · intro r
      rw [List.mem_map, List.mem_map]
      constructor
      · rintro ⟨j, hj, rfl⟩
        obtain ⟨q, hq⟩ := present j hj
        obtain ⟨k, rfl⟩ := (parent?_iff_place shape hi hq).mp (mem_children.mp hj)
        obtain ⟨w, found⟩ := exists_subtree? hq
        rw [subtree?_concat hu] at found
        refine ⟨k, List.mem_range.mpr (List.getElem?_eq_some_iff.mp found).1, ?_⟩
        rw [hq]
        rfl
      · rintro ⟨k, hk, rfl⟩
        have found : t.subtree? (p ++ [k]) = some _ :=
          (subtree?_concat hu).trans (List.getElem?_eq_getElem (List.mem_range.mp hk))
        obtain ⟨j, hj⟩ := exists_index found
        refine ⟨j, mem_children.mpr ((parent?_iff_place shape hi hj).mpr ⟨k, rfl⟩), ?_⟩
        rw [hj]
        rfl
  have again := congrArg (List.map some) positions
  rw [List.map_map, List.map_map] at again
  refine Eq.trans (List.map_congr_left ?_) again
  intro j hj
  obtain ⟨q, hq⟩ := present j hj
  rw [Function.comp_apply, hq]
  rfl

/-- A child that is looked for by what its position tells is found where the tree has it. -/
theorem find?_children_of_place (hi : t.places[i]? = some p) (hu : t.subtree? p = some u)
    {want : Nat → Bool} {accepts : SyntaxTree → Bool}
    (told : ∀ j q w, t.places[j]? = some q → t.subtree? q = some w → want j = accepts w) :
    (((ofNodes nodes).children i).find? want).map (t.places[·]?) =
      ((List.range u.children.length).find? fun k => u.children[k]?.any accepts).map
        fun k => some (p ++ [k]) := by
  have before : ∀ j ∈ (ofNodes nodes).children i,
      want j = (t.places[j]?).any fun q => (t.subtree? q).any accepts := by
    intro j hj
    obtain ⟨q, hq⟩ := exists_place shape (lt_length_of_parent? (mem_children.mp hj))
    obtain ⟨w, hw⟩ := exists_subtree? hq
    rw [told j q w hq hw, hq, Option.any_some, hw, Option.any_some]
  have after : ∀ k, u.children[k]?.any accepts =
      (some (p ++ [k])).any fun q => (t.subtree? q).any accepts := by
    intro k
    rw [Option.any_some, subtree?_concat hu]
  rw [List.find?_congr before]
  simp only [after]
  have found := congrArg (List.find? fun o => o.any fun q => (t.subtree? q).any accepts)
    (children_of_place shape hi hu)
  rwa [List.find?_map, List.find?_map] at found

end Flat

/-! ## The flat list of a source -/

namespace SyntaxTree

mutual

/-- In the listing of a tree no node is more than one level below the node before it. -/
theorem descends_listing (depth : Nat) : (t : SyntaxTree) →
    (∀ row ∈ (t.listing depth).head?, row.1 = depth) ∧
      (t.listing depth).IsChain fun m n => n.1 ≤ m.1 + 1
  | node info children => by
      rw [listing]
      constructor
      · rintro row ⟨⟩
        rfl
      · rw [List.isChain_cons]
        split
        · exact ⟨nofun, .nil⟩
        · obtain ⟨first, chain⟩ := descends_forestListing (depth + 1) children
          refine ⟨?_, chain⟩
          intro row hrow
          rw [first row hrow]

theorem descends_forestListing (depth : Nat) : (ts : List SyntaxTree) →
    (∀ row ∈ (forestListing depth ts).head?, row.1 = depth) ∧
      (forestListing depth ts).IsChain fun m n => n.1 ≤ m.1 + 1
  | [] => by
      rw [forestListing]
      exact ⟨nofun, .nil⟩
  | t :: ts => by
      obtain ⟨first, chain⟩ := descends_listing depth t
      obtain ⟨next, chain'⟩ := descends_forestListing depth ts
      rw [forestListing]
      constructor
      · intro row hrow
        rw [List.head?_append] at hrow
        rcases Option.or_eq_some_iff.mp hrow with here | ⟨-, later⟩
        · exact first row here
        · exact next row later
      · refine List.isChain_append.mpr ⟨chain, chain', ?_⟩
        -- a tree ends no higher than it starts, and the next one starts at the same depth
        intro m hm n hn
        have deep := le_of_mem_listing t (List.mem_of_mem_getLast? hm)
        rw [next n hn]
        exact Nat.le_succ_of_le deep

end

end SyntaxTree

theorem ParsedSource.treeShaped_nodes (source : ParsedSource) : TreeShaped source.nodes := by
  obtain ⟨first, chain⟩ := SyntaxTree.descends_listing 0 source.root
  rw [nodes_eq]
  constructor
  · intro n hn
    rw [List.head?_map, Option.mem_map] at hn
    obtain ⟨row, hrow, rfl⟩ := hn
    exact first row hrow
  · rw [List.isChain_map]
    exact chain

/-- The `i`th of the listed nodes tells what there is to tell of the node at a position: its number and how
deep it is, what it is and where it stands in the source, and whether it has children that are listed. -/
structure ParsedSource.Shows (source : ParsedSource) (i : Nat) (p : List Nat) (t : SyntaxTree) (n : IndexedNode) :
    Prop where
  index : n.index = i
  depth : n.depth = p.length
  kind : n.kind = t.info.kind
  field : n.field = t.info.field
  text : n.text = Text.Utf8.decodeReplacing (source.slice t.info)
  startLine : n.startLine = source.rowAt t.info.start + 1
  endLine : n.endLine = source.rowAt t.info.stop + 1
  startColumn : n.startColumn = source.columnAt t.info.start
  endColumn : n.endColumn = source.columnAt t.info.stop
  hasChildren : n.hasChildren = true ↔ t.info.kind ∉ closedKinds ∧ t.children ≠ []

namespace ParsedSource

open Arena SyntaxTree

variable {source : ParsedSource} {t : SyntaxTree} {p : List Nat} {i : Nat}

theorem shows_flatNode (source : ParsedSource) (i : Nat) (p : List Nat) (t : SyntaxTree) :
    source.Shows i p t ⟨source.flatNode (p.length, t), i⟩ := by
  refine ⟨rfl, rfl, rfl, rfl, rfl, rfl, rfl, rfl, rfl, ?_⟩
  simp [flatNode, and_comm]

theorem mem_places_iff : p ∈ source.places ↔
    (∃ t, source.root.subtree? p = some t) ∧ source.root.OpenAbove p := by
  rw [places, mem_places]
  constructor
  · rintro ⟨u, h⟩
    obtain ⟨t, found, -, above⟩ := subtree?_pruned.mp h
    exact ⟨⟨t, found⟩, above⟩
  · rintro ⟨⟨t, found⟩, above⟩
    exact ⟨t.pruned, subtree?_pruned.mpr ⟨t, found, rfl, above⟩⟩

theorem depths_nodes (source : ParsedSource) :
    source.nodes.map FlatNode.depth = source.root.pruned.places.map List.length := by
  rw [nodes_places, List.map_map]
  rfl

theorem length_flatten (source : ParsedSource) : source.flatten.length = source.places.length := by
  rw [flatten_places, List.length_map, List.length_zipIdx]

theorem flatten_of_place (hi : source.places[i]? = some p) (found : source.root.subtree? p = some t) :
    source.flatten[i]? = some ⟨source.flatNode (p.length, t), i⟩ := by
  rw [flatten_places, List.getElem?_map, List.getElem?_zipIdx, hi, Option.map_some, Option.map_some, found,
    Option.getD_some, Nat.zero_add]

theorem field_of_place (hi : source.places[i]? = some p) (found : source.root.subtree? p = some t) :
    (ofNodes source.nodes).field i = t.info.field := by
  rw [field, getD_nodes, List.getD_eq_getElem?_getD, nodes, List.getElem?_map, flatten_of_place hi found]
  rfl

/-- **The flat list is the tree.** It goes in lexicographic order through the positions of the tree that
have no node of a closed kind above, shows at each the node of the tree with its depth and under its number,
and the arena finds the parent, the children and the children by field as the pruned tree has them. -/
theorem flatten_is_tree (source : ParsedSource) :
    source.places.Pairwise (· < ·) ∧
      (∀ p, p ∈ source.places ↔
        (∃ t, source.root.subtree? p = some t) ∧ source.root.OpenAbove p) ∧
      source.flatten.length = source.places.length ∧
      ∀ (i : Nat) (p : List Nat), source.places[i]? = some p →
        ∃ t u n, source.root.subtree? p = some t ∧ source.flatten[i]? = some n ∧ source.Shows i p t n ∧
          source.root.pruned.subtree? p = some u ∧
          ((ofNodes source.nodes).children i).map (source.places[·]?) =
            (List.range u.children.length).map (fun k => some (p ++ [k])) ∧
          ((ofNodes source.nodes).parent? i).map (source.places[·]?) =
            (if p = [] then none else some (some p.dropLast)) ∧
          ∀ f, ((ofNodes source.nodes).childByField? i f).map (source.places[·]?) =
            ((List.range u.children.length).find? fun k =>
              u.children[k]?.any fun c => c.info.field == some f).map fun k => some (p ++ [k]) := by
  refine ⟨sorted_places _, fun p => mem_places_iff, length_flatten source, ?_⟩
  intro i p hi
  obtain ⟨u, pruned⟩ := exists_subtree? hi
  obtain ⟨t, found, rfl, -⟩ := subtree?_pruned.mp pruned
  refine ⟨t, t.pruned, _, found, flatten_of_place hi found, shows_flatNode source i p t, pruned,
    children_of_place source.depths_nodes hi pruned, ?_, ?_⟩
  · rcases List.eq_nil_or_concat p with rfl | ⟨q, k, rfl⟩
    · rw [parent?_of_root source.depths_nodes hi, if_pos rfl, Option.map_none]
    · rw [List.concat_eq_append] at *
      obtain ⟨j, hj, around⟩ := parent?_of_place source.depths_nodes hi
      rw [around, Option.map_some, if_neg (by simp), List.dropLast_concat]
      exact congrArg some hj
  · intro f
    apply find?_children_of_place source.depths_nodes hi pruned
    intro j q w hj hw
    obtain ⟨c, hc, rfl, -⟩ := subtree?_pruned.mp hw
    rw [field_of_place hj hc, info_pruned]

/-- A string, which is a node of a closed kind with a child, and a name after it. -/
def stringThenName : ParsedSource where
  bytes := Text.Utf8.encode "'a';b"
  root := .node ⟨"program", none, 0, 5⟩
    [.node ⟨"string", some "source", 0, 3⟩ [.node ⟨"string_fragment", none, 1, 2⟩ []],
     .node ⟨"identifier", some "name", 4, 5⟩ []]

theorem flatten_is_tree_stringThenName : stringThenName.places = [[], [0], [1]] ∧
    stringThenName.flatten.length = 3 ∧
    (∃ n, stringThenName.flatten[2]? = some n ∧ n.index = 2 ∧ n.depth = 1) ∧
    ((ofNodes stringThenName.nodes).children 0).map (stringThenName.places[·]?) =
      [some [0], some [1]] ∧
    ((ofNodes stringThenName.nodes).children 1).map (stringThenName.places[·]?) = [] ∧
    ((ofNodes stringThenName.nodes).parent? 2).map (stringThenName.places[·]?) = some (some []) ∧
    ((ofNodes stringThenName.nodes).childByField? 0 "name").map (stringThenName.places[·]?) =
      some (some [1]) := by
  have listed : stringThenName.places = [[], [0], [1]] := by decide
  obtain ⟨-, -, same, navigation⟩ := flatten_is_tree stringThenName
  obtain ⟨-, u, -, -, -, -, root, children, -, byField⟩ := navigation 0 [] (by rw [listed]; rfl)
  obtain ⟨-, v, -, -, -, -, string, below, -⟩ := navigation 1 [0] (by rw [listed]; rfl)
  obtain ⟨_, -, n, -, third, shows, -, -, above, -⟩ := navigation 2 [1] (by rw [listed]; rfl)
  have hu : u = stringThenName.root.pruned := (Option.some.inj root).symm
  have hv : v.children = [] := by
    rw [← Option.some.inj string]
    decide
  refine ⟨listed, by rw [same, listed]; rfl, ⟨n, third, shows.index, shows.depth⟩, ?_, ?_, above, ?_⟩
  · rw [children, hu]
    decide
  · rw [below, hv]
    rfl
  · rw [byField, hu]
    decide

end ParsedSource

end SourceSurvey
