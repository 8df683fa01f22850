import Mathlib.Data.List.Chain
import SourceSurvey.Proofs.Marking.Inner
import SourceSurvey.Proofs.Tree.Indexing

/-!
# The nodes around a node

Two things tell what is around a node: the trail on which it is visited, which is cut and prolonged from
depth to depth, and the parents in the arena, which the indexing pass finds by comparing depths. For the
nodes of a tree in pre-order they agree: the trail of a visit is the line from parent to parent
(`Visit.trail_eq`), and read from its outer end it leads from a root down to the visited node
(`Visit.trail_leadsDown`).
-/

namespace SourceSurvey

/-- The depths are those of a tree in pre-order: the first node is the root, and no node is more than one
level below the node before it. -/
structure TreeShaped (nodes : List FlatNode) : Prop where
  root : ∀ n ∈ nodes.head?, n.depth = 0
  descends : nodes.IsChain fun m n => n.depth ≤ m.depth + 1

namespace Arena

def depth (a : Arena) (i : Nat) : Nat := (a.nodes.getD i default).depth

def ancestor (a : Arena) (i : Nat) : Ancestor := ⟨⟨a.field i, a.kind i⟩, i⟩

/-- Node `i` and the nodes around it, from parent to parent. -/
def lineage (a : Arena) (i : Nat) : List Nat :=
  match a.parent? i with
  | none => [i]
  | some p => if _h : p < i then i :: a.lineage p else [i]
termination_by i

variable {nodes : List FlatNode} {i k m p : Nat}

theorem getD_nodes : (ofNodes nodes).nodes.getD i default = nodes.getD i default := by
  rw [Array.getD_eq_getD_getElem?, List.getD_eq_getElem?_getD]
  exact congrArg (Option.getD · default) List.getElem?_toArray

theorem depth_eq : (ofNodes nodes).depth i = (nodes.map FlatNode.depth).getD i 0 := by
  rw [depth, getD_nodes, List.getD_eq_getElem?_getD, List.getD_eq_getElem?_getD, List.getElem?_map]
  cases nodes[i]? <;> rfl

theorem lt_length_of_kind (h : (ofNodes nodes).kind i ≠ "") : i < nodes.length := by
  by_contra beyond
  rw [kind, getD_nodes, List.getD_eq_default _ _ (Nat.le_of_not_lt beyond)] at h
  exact h rfl

theorem lt_length_of_parent? (h : (ofNodes nodes).parent? i = some p) : i < nodes.length := by
  by_contra beyond
  have size : (ofNodes nodes).parents.size = nodes.length := by
    have := (Indexing.reached_run (nodes.map FlatNode.depth)).size_parents
    rwa [List.length_map] at this
  rw [parent?, Array.getD_eq_getD_getElem?, Array.getElem?_eq_none (by omega)] at h
  cases h

/-- A parent comes earlier and is less deep, and nothing between it and the node is. -/
theorem spec_of_parent? (h : (ofNodes nodes).parent? i = some p) :
    p < i ∧ (ofNodes nodes).depth p < (ofNodes nodes).depth i ∧
      ∀ m, p < m → m < i → (ofNodes nodes).depth i ≤ (ofNodes nodes).depth m := by
  have found := isParent_parent? (lt_length_of_parent? h)
  simp only [depth_eq]
  rwa [h] at found

theorem lineage_eq (i : Nat) : (ofNodes nodes).lineage i =
    i :: (((ofNodes nodes).parent? i).map (ofNodes nodes).lineage).getD [] := by
  rw [lineage]
  split
  · next h => rw [h]; rfl
  · next p h => rw [h, dif_pos (spec_of_parent? h).1]; rfl

theorem lineage_of_parent? (h : (ofNodes nodes).parent? i = some p) :
    (ofNodes nodes).lineage i = i :: (ofNodes nodes).lineage p := by
  rw [lineage_eq, h]
  rfl

theorem getElem?_lineage_zero (i : Nat) : ((ofNodes nodes).lineage i)[0]? = some i := by
  rw [lineage_eq]
  rfl

/-- Everything after a node on the line is deeper than it. -/
theorem deeper_of_mem_lineage (h : m ∈ (ofNodes nodes).lineage k) :
    m ≤ k ∧ ∀ x, m < x → x ≤ k → (ofNodes nodes).depth m < (ofNodes nodes).depth x := by
  induction k using Nat.strong_induction_on with
  | h k ih =>
      rw [lineage_eq, List.mem_cons] at h
      rcases h with rfl | h
      · exact ⟨Nat.le_refl m, fun x hm hx => absurd hx (Nat.not_le_of_lt hm)⟩
      · cases around : (ofNodes nodes).parent? k with
        | none =>
            rw [around] at h
            cases h
        | some p =>
            rw [around] at h
            obtain ⟨before, less, between⟩ := spec_of_parent? around
            obtain ⟨le, deeper⟩ := ih p before h
            have less' : (ofNodes nodes).depth m < (ofNodes nodes).depth k := by
              rcases Nat.lt_or_eq_of_le le with lt | rfl
              · exact Nat.lt_trans (deeper p lt (Nat.le_refl p)) less
              · exact less
            refine ⟨Nat.le_trans le (Nat.le_of_lt before), ?_⟩
            intro x hm hx
            rcases Nat.lt_or_ge p x with later | earlier
            · rcases Nat.lt_or_eq_of_le hx with inside | rfl
              · exact Nat.lt_of_lt_of_le less' (between x later inside)
              · exact less'
            · exact deeper x hm earlier

/-- One step outwards on the line is one parent. -/
theorem getElem?_lineage_succ (i j : Nat) : ((ofNodes nodes).lineage i)[j + 1]? =
    ((ofNodes nodes).lineage i)[j]?.bind (ofNodes nodes).parent? := by
  induction j generalizing i with
  | zero =>
      rw [lineage_eq, List.getElem?_cons_succ, List.getElem?_cons_zero, Option.bind_some]
      cases (ofNodes nodes).parent? i with
      | none => rfl
      | some p => exact getElem?_lineage_zero p
  | succ j ih =>
      rw [lineage_eq]
      cases (ofNodes nodes).parent? i with
      | none => rfl
      | some p => exact ih p

/-- The nodes lead from a node without a parent down to node `i`, each of them the parent of the next. -/
structure LeadsDown (a : Arena) (line : List Nat) (i : Nat) : Prop where
  top : ∀ root ∈ line.head?, a.parent? root = none
  steps : line.IsChain fun p j => a.parent? j = some p
  bottom : line.getLast? = some i

theorem leadsDown_lineage (i : Nat) : (ofNodes nodes).LeadsDown ((ofNodes nodes).lineage i).reverse i := by
  induction i using Nat.strong_induction_on with
  | h i ih =>
      cases around : (ofNodes nodes).parent? i with
      | none =>
          rw [lineage_eq, around]
          refine ⟨?_, List.isChain_singleton i, rfl⟩
          intro root first
          obtain rfl : i = root := Option.mem_some_iff.mp first
          exact around
      | some p =>
          obtain ⟨top, steps, bottom⟩ := ih p (spec_of_parent? around).1
          rw [lineage_of_parent? around, List.reverse_cons]
          refine ⟨?_, ?_, List.getLast?_concat⟩
          · -- the line of the parent is not empty, so its first node stays the first
            rwa [List.head?_append_of_ne_nil _ fun empty => by rw [empty] at bottom; cases bottom]
          · refine List.isChain_append.mpr ⟨steps, List.isChain_singleton i, ?_⟩
            intro x last y first
            rw [bottom] at last
            obtain rfl : p = x := Option.mem_some_iff.mp last
            obtain rfl : i = y := Option.mem_some_iff.mp first
            exact around

end Arena

/-! ## Trees in pre-order -/

namespace TreeShaped

open Arena

variable {nodes : List FlatNode} (shaped : TreeShaped nodes) {i k m p : Nat}

include shaped

theorem depth_zero : (ofNodes nodes).depth 0 = 0 := by
  rw [depth, getD_nodes]
  cases nodes with
  | nil => rfl
  | cons n rest => exact shaped.root n rfl

theorem depth_succ_le (h : i + 1 < nodes.length) :
    (ofNodes nodes).depth (i + 1) ≤ (ofNodes nodes).depth i + 1 := by
  rw [depth, depth, getD_nodes, getD_nodes, List.getD_eq_getElem _ _ h,
    List.getD_eq_getElem _ _ (Nat.lt_of_succ_lt h)]
  exact List.isChain_iff_getElem.mp shaped.descends i h

theorem depth_of_parent? (h : (ofNodes nodes).parent? i = some p) :
    (ofNodes nodes).depth i = (ofNodes nodes).depth p + 1 := by
  obtain ⟨before, less, between⟩ := spec_of_parent? h
  have next := shaped.depth_succ_le (Nat.lt_of_le_of_lt before (lt_length_of_parent? h))
  rcases Nat.lt_or_ge (p + 1) i with later | rest
  · have := between (p + 1) (Nat.lt_succ_self p) later
    omega
  · obtain rfl : i = p + 1 := Nat.le_antisymm rest before
    omega

theorem exists_parent? (hi : i < nodes.length) (below : 0 < (ofNodes nodes).depth i) :
    ∃ p, (ofNodes nodes).parent? i = some p := by
  cases around : (ofNodes nodes).parent? i with
  | some p => exact ⟨p, rfl⟩
  | none =>
      have first := isParent_parent? hi
      rw [around] at first
      have start := shaped.depth_zero
      rw [depth_eq] at start below
      have later : 0 < i := Nat.pos_of_ne_zero fun h => by
        subst h
        omega
      have := first 0 later
      omega

theorem length_lineage (hi : i < nodes.length) :
    ((ofNodes nodes).lineage i).length = (ofNodes nodes).depth i + 1 := by
  induction i using Nat.strong_induction_on with
  | h i ih =>
      rw [lineage_eq]
      cases around : (ofNodes nodes).parent? i with
      | none =>
          have top : ¬ 0 < (ofNodes nodes).depth i := fun below => by
            obtain ⟨p, found⟩ := shaped.exists_parent? hi below
            rw [around] at found
            cases found
          show 1 = _
          omega
      | some p =>
          obtain ⟨before, -, -⟩ := spec_of_parent? around
          rw [shaped.depth_of_parent? around]
          exact congrArg Nat.succ (ih p before (Nat.lt_trans before hi))

/-- The line of a node holds a node of every depth up to its own. -/
theorem exists_drop_lineage {d : Nat} (hk : k < nodes.length) (hd : d ≤ (ofNodes nodes).depth k) :
    ∃ m, ((ofNodes nodes).lineage k).drop ((ofNodes nodes).depth k - d) = (ofNodes nodes).lineage m ∧
      (ofNodes nodes).depth m = d := by
  induction k using Nat.strong_induction_on with
  | h k ih =>
      rcases Nat.lt_or_eq_of_le hd with above | rfl
      · -- one step outwards, and one level less to climb
        obtain ⟨p, around⟩ := shaped.exists_parent? hk (Nat.lt_of_le_of_lt (Nat.zero_le d) above)
        obtain ⟨before, -, -⟩ := spec_of_parent? around
        have level := shaped.depth_of_parent? around
        obtain ⟨m, dropped, depth⟩ := ih p before (Nat.lt_trans before hk) (by omega)
        refine ⟨m, ?_, depth⟩
        have steps : (ofNodes nodes).depth k - d = (ofNodes nodes).depth p - d + 1 := by omega
        rw [lineage_eq, around, steps]
        exact dropped
      · exact ⟨k, by rw [Nat.sub_self, List.drop_zero], rfl⟩

/-- What stays of the line of a node when the next one is entered is the line of the next one's parent. -/
theorem drop_lineage (hk : k + 1 < nodes.length) :
    ((ofNodes nodes).lineage k).drop ((ofNodes nodes).depth k + 1 - (ofNodes nodes).depth (k + 1)) =
      (((ofNodes nodes).parent? (k + 1)).map (ofNodes nodes).lineage).getD [] := by
  have hk' : k < nodes.length := Nat.lt_of_succ_lt hk
  have next := shaped.depth_succ_le hk
  rcases Nat.eq_zero_or_pos ((ofNodes nodes).depth (k + 1)) with top | below
  · cases around : (ofNodes nodes).parent? (k + 1) with
    | none =>
        rw [top, Nat.sub_zero, ← shaped.length_lineage hk', List.drop_length]
        rfl
    | some p =>
        have := (spec_of_parent? around).2.1
        omega
  · obtain ⟨m, dropped, level⟩ :=
      shaped.exists_drop_lineage (d := (ofNodes nodes).depth (k + 1) - 1) hk' (by omega)
    have mem : m ∈ (ofNodes nodes).lineage k := by
      refine List.drop_subset ((ofNodes nodes).depth k - ((ofNodes nodes).depth (k + 1) - 1)) _ ?_
      rw [dropped, lineage_eq]
      exact List.mem_cons_self
    obtain ⟨le, deeper⟩ := deeper_of_mem_lineage mem
    -- the node one level above on the line is the last earlier one that is less deep
    have around : (ofNodes nodes).parent? (k + 1) = some m := by
      refine (isParent_parent? hk).unique (q := some m) ?_
      simp only [Indexing.IsParent, ← depth_eq]
      refine ⟨Nat.lt_succ_of_le le, by omega, ?_⟩
      intro x hm hx
      have := deeper x hm (Nat.le_of_lt_succ hx)
      omega
    have steps : (ofNodes nodes).depth k + 1 - (ofNodes nodes).depth (k + 1) =
        (ofNodes nodes).depth k - ((ofNodes nodes).depth (k + 1) - 1) := by omega
    rw [around, steps]
    exact dropped

end TreeShaped

/-! ## Visits -/

namespace Visit

open Arena

variable {nodes : List FlatNode} {v : Visit}

theorem listFrom_drop {t : Trail} {i : Nat} (hi : i < nodes.length) :
    listFrom t i (nodes.drop i) =
      ⟨i, t.enter ((ofNodes nodes).depth i) ((ofNodes nodes).ancestor i)⟩ ::
        listFrom (t.enter ((ofNodes nodes).depth i) ((ofNodes nodes).ancestor i)) (i + 1)
          (nodes.drop (i + 1)) := by
  rw [List.drop_eq_getElem_cons hi, listFrom, depth, ancestor, field, kind, getD_nodes,
    List.getD_eq_getElem _ _ hi]

/-- Every visit enters its node on a trail of which all holds that entering the nodes before has kept. -/
theorem exists_enter {p : Nat → Trail → Prop} (start : p 0 {})
    (step : ∀ i t, i < nodes.length → p i t →
      p (i + 1) (t.enter ((ofNodes nodes).depth i) ((ofNodes nodes).ancestor i)))
    (hv : v ∈ list nodes) : v.index < nodes.length ∧ ∃ t, p v.index t ∧
      v.trail = t.enter ((ofNodes nodes).depth v.index) ((ofNodes nodes).ancestor v.index) := by
  -- induction on how many nodes are still to come
  have run : ∀ k i t, i + k = nodes.length → p i t → v ∈ listFrom t i (nodes.drop i) →
      v.index < nodes.length ∧ ∃ t, p v.index t ∧
        v.trail = t.enter ((ofNodes nodes).depth v.index) ((ofNodes nodes).ancestor v.index) := by
    intro k
    induction k with
    | zero =>
        intro i t ended _ hv
        rw [List.drop_eq_nil_of_le (by omega)] at hv
        cases hv
    | succ k ih =>
        intro i t left known hv
        have hi : i < nodes.length := by omega
        rw [listFrom_drop hi] at hv
        rcases List.mem_cons.mp hv with rfl | hv
        · exact ⟨hi, t, known, rfl⟩
        · exact ih (i + 1) _ (by omega) (step i t hi known) hv
  exact run nodes.length 0 {} (Nat.zero_add _) start hv

/-- Whatever the depths are, the trail of a visit holds the node itself and, outside of it, earlier ones. -/
theorem exists_outer (hv : v ∈ list nodes) : v.index < nodes.length ∧
    ∃ outer, v.trail.nodes = (ofNodes nodes).ancestor v.index :: outer ∧
      ∀ x ∈ outer, ∃ j < v.index, x = (ofNodes nodes).ancestor j := by
  have earlier : ∀ i (t : Trail), i < nodes.length → (∀ x ∈ t.nodes, ∃ j < i, x = (ofNodes nodes).ancestor j) →
      ∀ x ∈ (t.enter ((ofNodes nodes).depth i) ((ofNodes nodes).ancestor i)).nodes,
        ∃ j < i + 1, x = (ofNodes nodes).ancestor j := by
    intro i t _ known x hx
    rcases List.mem_cons.mp hx with rfl | hx
    · exact ⟨i, Nat.lt_succ_self i, rfl⟩
    · obtain ⟨j, hj, same⟩ := known x (Trail.mem_of_mem_keep hx)
      exact ⟨j, Nat.lt_succ_of_lt hj, same⟩
  obtain ⟨present, t, known, trail⟩ := exists_enter
    (p := fun i t => ∀ x ∈ t.nodes, ∃ j < i, x = (ofNodes nodes).ancestor j) (by simp) earlier hv
  rw [trail]
  exact ⟨present, _, rfl, fun x hx => known x (Trail.mem_of_mem_keep hx)⟩

section Shaped

variable (shaped : TreeShaped nodes)

include shaped

/-- A trail that follows the parents of a node follows those of the next one when that is entered. -/
theorem nodes_enter {t : Trail} {k : Nat} (hk : k + 1 < nodes.length)
    (follows : t.nodes = ((ofNodes nodes).lineage k).map (ofNodes nodes).ancestor) :
    (t.enter ((ofNodes nodes).depth (k + 1)) ((ofNodes nodes).ancestor (k + 1))).nodes =
      ((ofNodes nodes).lineage (k + 1)).map (ofNodes nodes).ancestor := by
  rw [Trail.enter, Trail.keep_natCast, follows, List.length_map, shaped.length_lineage (Nat.lt_of_succ_lt hk),
    ← List.map_drop, shaped.drop_lineage hk, lineage_eq (k + 1)]
  rfl

omit shaped in
theorem nodes_enter_zero (d : Nat) : (Trail.enter {} d ((ofNodes nodes).ancestor 0)).nodes =
    ((ofNodes nodes).lineage 0).map (ofNodes nodes).ancestor := by
  have top : (ofNodes nodes).parent? 0 = none := by
    cases around : (ofNodes nodes).parent? 0 with
    | none => rfl
    | some p => exact absurd (spec_of_parent? around).1 (Nat.not_lt_zero p)
  rw [Trail.enter_empty, lineage_eq, top]
  rfl

theorem follows_list (hv : v ∈ list nodes) :
    v.index < nodes.length ∧
      v.trail.nodes = ((ofNodes nodes).lineage v.index).map (ofNodes nodes).ancestor := by
  have step : ∀ i (t : Trail), i < nodes.length →
      (t = {} ∧ i = 0 ∨ ∃ k, i = k + 1 ∧
        t.nodes = ((ofNodes nodes).lineage k).map (ofNodes nodes).ancestor) →
      (t.enter ((ofNodes nodes).depth i) ((ofNodes nodes).ancestor i)).nodes =
        ((ofNodes nodes).lineage i).map (ofNodes nodes).ancestor := by
    rintro i t hi (⟨rfl, rfl⟩ | ⟨k, rfl, follows⟩)
    · exact nodes_enter_zero _
    · exact nodes_enter shaped hi follows
  obtain ⟨present, t, known, trail⟩ := exists_enter
    (p := fun i t => t = {} ∧ i = 0 ∨ ∃ k, i = k + 1 ∧
      t.nodes = ((ofNodes nodes).lineage k).map (ofNodes nodes).ancestor)
    (Or.inl ⟨rfl, rfl⟩) (fun i t hi known => Or.inr ⟨i, rfl, step i t hi known⟩) hv
  exact ⟨present, trail ▸ step v.index t present known⟩

theorem index_lt (hv : v ∈ list nodes) : v.index < nodes.length :=
  (follows_list shaped hv).1

/-- **The trail of a visit is the line of the node from parent to parent.** -/
theorem trail_eq (hv : v ∈ list nodes) :
    v.trail.nodes = ((ofNodes nodes).lineage v.index).map (ofNodes nodes).ancestor :=
  (follows_list shaped hv).2

theorem outward?_eq (hv : v ∈ list nodes) (j : Nat) :
    v.trail.outward? j = ((ofNodes nodes).lineage v.index)[j]?.map (ofNodes nodes).ancestor := by
  rw [Trail.outward?, trail_eq shaped hv, List.getElem?_map]

theorem outward?_one_eq (hv : v ∈ list nodes) :
    v.trail.outward? 1 = ((ofNodes nodes).parent? v.index).map (ofNodes nodes).ancestor := by
  rw [outward?_eq shaped hv, getElem?_lineage_succ, getElem?_lineage_zero]
  rfl

theorem outward?_two_eq (hv : v ∈ list nodes) : v.trail.outward? 2 =
    (((ofNodes nodes).parent? v.index).bind (ofNodes nodes).parent?).map (ofNodes nodes).ancestor := by
  rw [outward?_eq shaped hv, getElem?_lineage_succ, getElem?_lineage_succ, getElem?_lineage_zero]
  rfl

end Shaped

theorem map_index_listFrom (trail : Trail) (i : Nat) (nodes : List FlatNode) :
    (listFrom trail i nodes).map Visit.index = List.range' i nodes.length := by
  induction nodes generalizing trail i with
  | nil => rfl
  | cons n rest ih => rw [listFrom, List.map_cons, ih, List.length_cons, List.range'_succ]

theorem map_index_list (nodes : List FlatNode) : (list nodes).map Visit.index = List.range nodes.length := by
  rw [list, map_index_listFrom, List.range_eq_range']

theorem exists_visit {i : Nat} (hi : i < nodes.length) : ∃ v ∈ list nodes, v.index = i := by
  have mem : i ∈ (list nodes).map Visit.index := by
    rw [map_index_list]
    exact List.mem_range.mpr hi
  exact List.mem_map.mp mem

/-- **Every node of a tree is visited in turn, on the trail that its parents make.** Read from the outer end,
the trail leads from a root down to the node. It has one node for each level, the path that it keeps beside the
nodes is made of their fields and kinds, and wherever one looks on it, the next node outwards is the parent. -/
theorem trail_leadsDown (shaped : TreeShaped nodes) :
    (list nodes).map Visit.index = List.range nodes.length ∧ ∀ v ∈ list nodes,
      (ofNodes nodes).LeadsDown (v.trail.nodes.reverse.map Ancestor.index) v.index ∧
      v.trail.nodes.length = (ofNodes nodes).depth v.index + 1 ∧
      v.trail.path = (v.trail.nodes.reverse.map Ancestor.index).map
        (fun j => ⟨(ofNodes nodes).field j, (ofNodes nodes).kind j⟩) ∧
      ∀ k, v.trail.outward? (k + 1) = (v.trail.outward? k).bind
        fun x => ((ofNodes nodes).parent? x.index).map (ofNodes nodes).ancestor := by
  refine ⟨map_index_list nodes, fun v hv => ?_⟩
  have follows := trail_eq shaped hv
  have indices : v.trail.nodes.reverse.map Ancestor.index = ((ofNodes nodes).lineage v.index).reverse := by
    rw [follows, ← List.map_reverse, List.map_map]
    exact List.map_id _
  refine ⟨?_, ?_, ?_, ?_⟩
  · rw [indices]
    exact leadsDown_lineage v.index
  · rw [follows, List.length_map, shaped.length_lineage (index_lt shaped hv)]
  · -- the path is kept beside the nodes, cut back and extended on its own
    rw [indices, Trail.path, inStep_list hv, follows, List.map_map, List.map_reverse]
    rfl
  · intro k
    rw [outward?_eq shaped hv, outward?_eq shaped hv, getElem?_lineage_succ]
    cases ((ofNodes nodes).lineage v.index)[k]? with
    | none => rfl
    | some j => rfl

/-- The tree of `let x` and, on the next line, `f(y)`. -/
def declarationThenCall : List FlatNode :=
  [⟨0, "program", "", 1, 2, 0, 4, true, none⟩,
   ⟨1, "lexical_declaration", "let x", 1, 1, 0, 5, true, none⟩,
   ⟨2, "let", "let", 1, 1, 0, 3, false, some "kind"⟩,
   ⟨2, "variable_declarator", "x", 1, 1, 4, 5, true, none⟩,
   ⟨3, "identifier", "x", 1, 1, 4, 5, false, some "name"⟩,
   ⟨1, "expression_statement", "f(y)", 2, 2, 0, 4, true, none⟩,
   ⟨2, "call_expression", "f(y)", 2, 2, 0, 4, true, none⟩,
   ⟨3, "identifier", "f", 2, 2, 0, 1, false, some "function"⟩,
   ⟨3, "arguments", "(y)", 2, 2, 1, 4, true, some "arguments"⟩]

/-- From the name in the first statement the walk goes up to the second, and down again to the arguments. -/
theorem trail_leadsDown_declarationThenCall :
    TreeShaped declarationThenCall ∧ ∃ v ∈ list declarationThenCall, v.index = 8 ∧
      (ofNodes declarationThenCall).LeadsDown [0, 5, 6, 8] 8 ∧ v.trail.nodes.length = 4 ∧
      v.trail.path = [⟨none, "program"⟩, ⟨none, "expression_statement"⟩, ⟨none, "call_expression"⟩,
        ⟨some "arguments", "arguments"⟩] := by
  have shaped : TreeShaped declarationThenCall := ⟨by decide, by decide⟩
  have last : (list declarationThenCall)[8]? = some _ := rfl
  have mem := List.mem_of_getElem? last
  obtain ⟨line, length, path, -⟩ := (trail_leadsDown shaped).2 _ mem
  exact ⟨shaped, _, mem, rfl, line, length, path⟩

end Visit

end SourceSurvey
