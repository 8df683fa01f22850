import Mathlib.Data.List.Sort
import SourceSurvey.Proofs.Tree.Listing

/-!
# Positions in a tree

A node of a tree is known by its position: the numbers of the children on the way down to it. Equal
subtrees can occur at several positions, so it is the positions that are listed, and not the subtrees.

- `subtree?` — the subtree at a position, if the position is one of the tree.
- `places` — the positions of a tree in pre-order. They are exactly those of the tree
  (`mem_places`), and pre-order is the lexicographic order (`sorted_places`).
- `pruned` — the tree without what is below nodes of closed kinds. Its positions are those of the tree
  with no node of a closed kind above (`subtree?_pruned`).
- `ParsedSource.flatten_places` — the flat list of a source, position by position and with its numbers.
-/

namespace SourceSurvey

namespace SyntaxTree

/-- The subtree at a position; none if the position leaves the tree. -/
def subtree? (t : SyntaxTree) : List Nat → Option SyntaxTree
  | [] => some t
  | k :: rest => t.children[k]?.bind fun c => c.subtree? rest

mutual

def places : SyntaxTree → List (List Nat)
  | node _ children => [] :: forestPlaces 0 children

/-- The positions below a node of which these are the children from number `k` on. -/
def forestPlaces (k : Nat) : List SyntaxTree → List (List Nat)
  | [] => []
  | t :: ts => (places t).map (k :: ·) ++ forestPlaces (k + 1) ts

end

mutual

/-- The tree without what is below nodes of closed kinds. -/
def pruned : SyntaxTree → SyntaxTree
  | node info children => node info (if closedKinds.contains info.kind then [] else prunedForest children)

def prunedForest : List SyntaxTree → List SyntaxTree
  | [] => []
  | t :: ts => pruned t :: prunedForest ts

end

variable {t u : SyntaxTree} {p q : List Nat} {k : Nat}

/-! ## Going down -/

theorem subtree?_cons : t.subtree? (k :: p) = t.children[k]?.bind fun c => c.subtree? p := rfl

theorem subtree?_append : t.subtree? (p ++ q) = (t.subtree? p).bind fun u => u.subtree? q := by
  induction p generalizing t with
  | nil => rfl
  | cons k p ih =>
      rw [List.cons_append, subtree?_cons, subtree?_cons]
      cases t.children[k]? with
      | none => rfl
      | some c => exact ih

theorem subtree?_concat (h : t.subtree? p = some u) : t.subtree? (p ++ [k]) = u.children[k]? := by
  rw [subtree?_append, h, Option.bind_some, subtree?_cons]
  exact Option.bind_fun_some u.children[k]?

theorem exists_subtree?_of_prefix (h : t.subtree? p = some u) (above : q <+: p) :
    ∃ w, t.subtree? q = some w := by
  obtain ⟨r, rfl⟩ := above
  rw [subtree?_append] at h
  obtain ⟨w, found, -⟩ := Option.bind_eq_some_iff.mp h
  exact ⟨w, found⟩

/-! ## The positions in pre-order -/

mutual

theorem mem_places : (t : SyntaxTree) → ∀ p, p ∈ places t ↔ ∃ u, t.subtree? p = some u
  | node info children, p => by
      rw [places, List.mem_cons, mem_forestPlaces children]
      cases p with
      | nil => exact ⟨fun _ => ⟨_, rfl⟩, fun _ => Or.inl rfl⟩
      | cons k rest =>
          rw [subtree?_cons]
          constructor
          · rintro (h | ⟨j, c, q, same, found, u, h⟩)
            · cases h
            · cases same
              rw [Nat.zero_add]
              exact ⟨u, Option.bind_eq_some_iff.mpr ⟨c, found, h⟩⟩
          · rintro ⟨u, h⟩
            obtain ⟨c, found, h⟩ := Option.bind_eq_some_iff.mp h
            exact Or.inr ⟨k, c, rest, by rw [Nat.zero_add], found, u, h⟩

theorem mem_forestPlaces : (ts : List SyntaxTree) → ∀ {k : Nat} {p : List Nat}, p ∈ forestPlaces k ts ↔
    ∃ j c q, p = (k + j) :: q ∧ ts[j]? = some c ∧ ∃ u, c.subtree? q = some u
  | [], k, p => by
      rw [forestPlaces]
      constructor
      · intro h
        cases h
      · rintro ⟨j, c, q, -, h, -⟩
        cases h
  | t :: ts, k, p => by
      rw [forestPlaces, List.mem_append, List.mem_map, mem_forestPlaces ts]
      constructor
      · rintro (⟨q, h, rfl⟩ | ⟨j, c, q, rfl, found, h⟩)
        · exact ⟨0, t, q, rfl, rfl, (mem_places t q).mp h⟩
        · refine ⟨j + 1, c, q, ?_, found, h⟩
          rw [Nat.add_assoc, Nat.add_comm 1 j]
      · rintro ⟨_ | j, c, q, rfl, found, h⟩
        · cases found
          exact Or.inl ⟨q, (mem_places t q).mpr h, rfl⟩
        · refine Or.inr ⟨j, c, q, ?_, found, h⟩
          rw [Nat.add_assoc, Nat.add_comm 1 j]

end

mutual

/-- **Pre-order is the lexicographic order of the positions.** -/
theorem sorted_places : (t : SyntaxTree) → (places t).Pairwise (· < ·)
  | node info children => by
      rw [places, List.pairwise_cons]
      refine ⟨?_, sorted_forestPlaces 0 children⟩
      intro p hp
      obtain ⟨j, c, q, rfl, -, -⟩ := (mem_forestPlaces children).mp hp
      exact List.nil_lt_cons _ _

theorem sorted_forestPlaces (k : Nat) : (ts : List SyntaxTree) → (forestPlaces k ts).Pairwise (· < ·)
  | [] => by
      rw [forestPlaces]
      exact List.Pairwise.nil
  | t :: ts => by
      rw [forestPlaces, List.pairwise_append]
      refine ⟨?_, sorted_forestPlaces (k + 1) ts, ?_⟩
      · apply List.Pairwise.map _ _ (sorted_places t)
        intro p q less
        exact List.cons_lt_cons_self.mpr less
      · intro p hp q hq
        obtain ⟨p, -, rfl⟩ := List.mem_map.mp hp
        obtain ⟨j, c, q, rfl, -, -⟩ := (mem_forestPlaces ts).mp hq
        apply List.Lex.rel
        omega

end

/-! ## Pruning -/

theorem prunedForest_eq (ts : List SyntaxTree) : prunedForest ts = ts.map pruned := by
  induction ts with
  | nil => rw [prunedForest, List.map_nil]
  | cons t ts ih => rw [prunedForest, ih, List.map_cons]

theorem info_pruned (t : SyntaxTree) : t.pruned.info = t.info := by
  cases t
  rw [pruned]
  rfl

theorem children_pruned (t : SyntaxTree) :
    t.pruned.children = if closedKinds.contains t.info.kind then [] else t.children.map pruned := by
  cases t
  rw [pruned, prunedForest_eq]
  rfl

/-- Nothing above the position is of a closed kind. -/
def OpenAbove (t : SyntaxTree) (p : List Nat) : Prop :=
  ∀ q w, q <+: p → q ≠ p → t.subtree? q = some w → w.info.kind ∉ closedKinds

theorem openAbove_nil : t.OpenAbove [] := by
  intro q w above below
  exact absurd (List.prefix_nil.mp above) below

theorem openAbove_cons {c : SyntaxTree} (found : t.children[k]? = some c) :
    t.OpenAbove (k :: p) ↔ t.info.kind ∉ closedKinds ∧ c.OpenAbove p := by
  constructor
  · intro h
    refine ⟨h [] t (List.nil_prefix) (List.cons_ne_nil k p).symm rfl, ?_⟩
    intro q w above below there
    apply h (k :: q) w (List.cons_prefix_cons.mpr ⟨rfl, above⟩)
    · intro same
      exact below (List.cons.inj same).2
    · rw [subtree?_cons, found, Option.bind_some, there]
  · rintro ⟨root, inner⟩ q w above below there
    cases q with
    | nil =>
        cases there
        exact root
    | cons j q =>
        obtain ⟨rfl, within⟩ := List.cons_prefix_cons.mp above
        rw [subtree?_cons, found, Option.bind_some] at there
        exact inner q w within (fun same => below (by rw [same])) there

/-- **The positions of the pruned tree are those with no node of a closed kind above**, and there the
subtree is pruned as well. -/
theorem subtree?_pruned : t.pruned.subtree? p = some u ↔
    ∃ w, t.subtree? p = some w ∧ w.pruned = u ∧ t.OpenAbove p := by
  induction p generalizing t with
  | nil =>
      constructor
      · rintro ⟨⟩
        exact ⟨t, rfl, rfl, openAbove_nil⟩
      · rintro ⟨w, ⟨⟩, rfl, -⟩
        rfl
  | cons k p ih =>
      rw [subtree?_cons, subtree?_cons, children_pruned]
      by_cases closed : t.info.kind ∈ closedKinds
      · rw [if_pos (List.contains_iff_mem.mpr closed)]
        constructor
        · intro h
          cases h
        · rintro ⟨w, -, -, above⟩
          exact absurd closed (above [] t List.nil_prefix (List.cons_ne_nil k p).symm rfl)
      · rw [if_neg (fun h => closed (List.contains_iff_mem.mp h)), List.getElem?_map]
        cases found : t.children[k]? with
        | none => simp
        | some c =>
            rw [openAbove_cons found]
            simp [ih, closed]

/-! ## The listing by positions -/

mutual

/-- The listing of a tree goes through the positions of the pruned tree. -/
theorem listing_eq (depth : Nat) : (t : SyntaxTree) → t.listing depth =
    t.pruned.places.map fun p => (depth + p.length, (t.subtree? p).getD default)
  | node info children => by
      rw [listing, pruned, places, List.map_cons]
      congr 1
      split
      · rw [forestPlaces, List.map_nil]
      · exact forestListing_eq depth info children 0 children rfl

theorem forestListing_eq (depth : Nat) (info : NodeInfo) (whole : List SyntaxTree) (k : Nat) :
    (ts : List SyntaxTree) → whole.drop k = ts → forestListing (depth + 1) ts =
      (forestPlaces k (prunedForest ts)).map fun p =>
        (depth + p.length, ((node info whole).subtree? p).getD default)
  | [], _ => by rw [forestListing, prunedForest, forestPlaces, List.map_nil]
  | t :: ts, here => by
      have found : whole[k]? = some t := by rw [← List.head?_drop, here, List.head?_cons]
      have after : whole.drop (k + 1) = ts := by rw [← List.tail_drop, here, List.tail_cons]
      rw [forestListing, prunedForest, forestPlaces, List.map_append, List.map_map,
        listing_eq (depth + 1) t, forestListing_eq depth info whole (k + 1) ts after]
      congr 1
      apply List.map_congr_left
      intro p _
      have step : (node info whole).subtree? (k :: p) = t.subtree? p := by
        rw [subtree?_cons]
        show whole[k]?.bind _ = _
        rw [found, Option.bind_some]
      rw [Function.comp_apply, step, List.length_cons, Nat.add_assoc, Nat.add_comm 1]

end

end SyntaxTree

/-- The positions of the nodes that are listed, in the order of the list. -/
def ParsedSource.places (source : ParsedSource) : List (List Nat) :=
  source.root.pruned.places

theorem ParsedSource.flatten_places (source : ParsedSource) : source.flatten = source.places.zipIdx.map fun e =>
    ⟨source.flatNode (e.1.length, (source.root.subtree? e.1).getD default), e.2⟩ := by
  rw [flatten_eq, SyntaxTree.listing_eq, List.zipIdx_map, List.map_map, places]
  apply List.map_congr_left
  rintro ⟨p, i⟩ _
  rw [Function.comp_apply, Prod.map_apply, Nat.zero_add]
  rfl

theorem ParsedSource.nodes_places (source : ParsedSource) : source.nodes =
    source.places.map fun p => source.flatNode (p.length, (source.root.subtree? p).getD default) := by
  rw [nodes_eq, SyntaxTree.listing_eq, List.map_map, places]
  apply List.map_congr_left
  intro p _
  rw [Function.comp_apply, Nat.zero_add]

end SourceSurvey
