import Mathlib.Data.List.Basic
import SourceSurvey.Proofs.Marking.Choice
import SourceSurvey.Proofs.Trail.Projection
import SourceSurvey.Proofs.Tree.Placement

/-!
# Visits inside a statement

A node of a statement is visited with a trail of nodes of that statement, and the root outside of them.
Leave the root away and count the nodes from the top of the statement: what remains, the inner visit,
does not depend on where the statement stands. The visit itself is the inner visit moved to the place of
the statement (`Visit.shift`) and put below the root (`Visit.below`).

Both visits of a node, where its statement stands among others and where it stands alone, come from the
same inner visit (`listFrom_statement`), and they yield the same actions (`Placed.actions`).
-/

namespace SourceSurvey

/-! ## Moving trails and visits -/

def Ancestor.shift (k : Nat) (x : Ancestor) : Ancestor := { x with index := x.index + k }

@[simp] theorem Ancestor.kind_shift (k : Nat) (x : Ancestor) : (x.shift k).kind = x.kind := by
  rw [shift]

@[simp] theorem Ancestor.index_shift (k : Nat) (x : Ancestor) : (x.shift k).index = x.index + k := by
  rw [shift]

/-- The node is the root of a program: the first of all nodes. -/
structure Ancestor.IsRoot (x : Ancestor) : Prop where
  kind : x.kind = "program"
  index : x.index = 0

namespace Trail

def shift (k : Nat) (t : Trail) : Trail := ⟨t.nodes.map (Ancestor.shift k), t.inward⟩

def below (root : Ancestor) (t : Trail) : Trail := ⟨t.nodes ++ [root], t.inward ++ [root.toPathStep]⟩

variable {t : Trail} {root x : Ancestor} {k j : Nat}

@[simp] theorem inward_shift : (t.shift k).inward = t.inward := by
  rw [shift]

theorem nodes_shift {outer : List Ancestor} (ht : t.nodes = x :: outer) :
    (t.shift k).nodes = x.shift k :: outer.map (Ancestor.shift k) := by
  rw [shift, ht, List.map_cons]

@[simp] theorem inward_below : (t.below root).inward = t.inward ++ [root.toPathStep] := by
  rw [below]

@[simp] theorem outward?_shift : (t.shift k).outward? j = (t.outward? j).map (Ancestor.shift k) :=
  List.getElem?_map

theorem outward?_below : (t.below root).outward? j =
    if j < t.nodes.length then t.outward? j else if j = t.nodes.length then some root else none := by
  show (t.nodes ++ [root])[j]? = _
  split
  · next h => rw [List.getElem?_append_left h, outward?]
  split
  · next h =>
    rw [h, List.getElem?_append_right (Nat.le_refl _), Nat.sub_self]
    rfl
  · next h h' => exact List.getElem?_eq_none (by simp; omega)

theorem outward?_one {parent : Ancestor} {outer : List Ancestor} (ht : t.nodes = x :: parent :: outer) :
    (t.below root).outward? 1 = some parent := by
  show (t.nodes ++ [root])[1]? = _
  rw [ht]
  rfl

theorem take_drop_below {steps : Nat} (h : steps < t.nodes.length) :
    ((t.below root).nodes.drop 1).take steps = (t.nodes.drop 1).take steps := by
  rw [below, List.drop_append_of_le_length (by omega), List.take_append_of_le_length]
  rw [List.length_drop]
  omega

theorem findKind?_shift {kinds : List String} :
    (t.shift k).findKind? kinds 0 = (t.findKind? kinds 0).map (Ancestor.shift k) := by
  rw [findKind?, findKind?, shift, List.drop_zero, List.drop_zero, List.find?_map]
  rfl

theorem findKind?_below {kinds : List String} (h : kinds.contains root.kind = false) :
    (t.below root).findKind? kinds 0 = t.findKind? kinds 0 := by
  rw [findKind?, findKind?, below, List.drop_zero, List.drop_zero, List.find?_append,
    List.find?_singleton, if_neg (by rw [h]; exact Bool.false_ne_true), Option.or_none]

theorem mem_of_findKind? {kinds : List String} (h : t.findKind? kinds 0 = some x) : x ∈ t.nodes :=
  List.mem_of_mem_drop (List.mem_of_find?_eq_some h)

theorem enter_shift (d : Nat) : (t.shift k).enter d (x.shift k) = (t.enter d x).shift k := by
  rw [enter, enter, shift, shift, ← map_keep]
  rfl

/-- Entering below the root is entering the inner trail one level higher. -/
theorem enter_below {d : Nat} (h : 1 ≤ d) :
    (t.below root).enter d x = (t.enter (d - 1 : Nat) x).below root := by
  rw [enter, enter, below, below, keep_append_singleton h, keep_append_singleton h]
  rfl

theorem enter_empty (d : Int) (x : Ancestor) : Trail.enter {} d x = Trail.below x {} := by
  rw [enter, keep_nil, keep_nil]
  rfl

theorem enter_one (t' : Trail) :
    (t.below root).enter (1 : Nat) x = (t'.below root).enter (1 : Nat) x := by
  rw [enter, enter, below, below, keep_one, keep_one, keep_one, keep_one]

end Trail

namespace Visit

def shift (k : Nat) (v : Visit) : Visit := ⟨v.index + k, v.trail.shift k⟩

def below (root : Ancestor) (v : Visit) : Visit := ⟨v.index, v.trail.below root⟩

@[simp] theorem index_shift (k : Nat) (v : Visit) : (v.shift k).index = v.index + k := by
  rw [shift]

@[simp] theorem trail_shift (k : Nat) (v : Visit) : (v.shift k).trail = v.trail.shift k := by
  rw [shift]

@[simp] theorem index_below (root : Ancestor) (v : Visit) : (v.below root).index = v.index := by
  rw [below]

@[simp] theorem trail_below (root : Ancestor) (v : Visit) : (v.below root).trail = v.trail.below root := by
  rw [below]

/-- The visits of the nodes of a statement without the root, counted from its top. -/
def inner (s : Statement) : List Visit :=
  listFrom {} 1 (s.nodes.map fun n => { n with depth := n.depth - 1 })

variable {t : Trail} {root : Ancestor} {k i : Nat} {nodes : List FlatNode}

theorem listFrom_below (deep : ∀ n ∈ nodes, 1 ≤ n.depth) :
    listFrom ((t.shift k).below root) (i + k) nodes =
      (listFrom t i (nodes.map fun n => { n with depth := n.depth - 1 })).map
        fun v => (v.shift k).below root := by
  induction nodes generalizing t i with
  | nil => rfl
  | cons n rest ih =>
      have step : ((t.shift k).below root).enter n.depth ⟨⟨n.field, n.kind⟩, i + k⟩ =
          ((t.enter (n.depth - 1 : Nat) ⟨⟨n.field, n.kind⟩, i⟩).shift k).below root := by
        rw [Trail.enter_below (deep n List.mem_cons_self), ← Trail.enter_shift]
        rfl
      rw [List.map_cons, listFrom, listFrom, List.map_cons, step, show i + k + 1 = i + 1 + k by omega,
        ih fun m hm => deep m (List.mem_cons_of_mem n hm)]
      rfl

/-- Nodes that leave the root open are visited first, and the rest still below the root. -/
theorem listFrom_append (deep : ∀ n ∈ nodes, 1 ≤ n.depth) (rest : List FlatNode) :
    ∃ t' : Trail, listFrom (t.below root) i (nodes ++ rest) =
      listFrom (t.below root) i nodes ++ listFrom (t'.below root) (i + nodes.length) rest := by
  induction nodes generalizing t i with
  | nil => exact ⟨t, rfl⟩
  | cons n later ih =>
      obtain ⟨t', split⟩ := ih (t := t.enter (n.depth - 1 : Nat) ⟨⟨n.field, n.kind⟩, i⟩) (i := i + 1)
        fun m hm => deep m (List.mem_cons_of_mem n hm)
      refine ⟨t', ?_⟩
      rw [List.cons_append, listFrom, listFrom, Trail.enter_below (deep n List.mem_cons_self), split,
        List.length_cons, show i + 1 + later.length = i + (later.length + 1) by omega]
      rfl

/-- **The visits of a statement are its inner visits, moved and put below the root.** -/
theorem listFrom_statement (s : Statement) (t : Trail) (root : Ancestor) (k : Nat) :
    listFrom (t.below root) (1 + k) s.nodes = (inner s).map fun v => (v.shift k).below root := by
  have fresh : listFrom (t.below root) (1 + k) s.nodes =
      listFrom ((Trail.shift k {}).below root) (1 + k) s.nodes := by
    -- its top stands at the first level, so nothing of the trail before stays but the root
    rw [Statement.nodes, listFrom, listFrom, s.depth_head, Trail.enter_one (Trail.shift k {})]
  rw [fresh]
  exact listFrom_below s.one_le_depth

end Visit

/-! ## Where inner visits lie -/

/-- The trail lies among the nodes `1` to `n`, and no parameter on it is the first of them. -/
structure Trail.Inside (n : Nat) (t : Trail) : Prop where
  inStep : t.InStep
  bounds : ∀ x ∈ t.nodes, 1 ≤ x.index ∧ x.index ≤ n
  parameter : ∀ x ∈ t.nodes,
    (x.kind == "required_parameter" || x.kind == "optional_parameter") = true → 2 ≤ x.index

theorem Trail.Inside.enter {n : Nat} {t : Trail} (ht : t.Inside n) (d : Int) {x : Ancestor}
    (bounds : 1 ≤ x.index ∧ x.index ≤ n)
    (parameter : (x.kind == "required_parameter" || x.kind == "optional_parameter") = true → 2 ≤ x.index) :
    (t.enter d x).Inside n := by
  refine ⟨ht.inStep.enter d x, ?_, ?_⟩
  · intro y hy
    rcases List.mem_cons.mp hy with rfl | hy
    · exact bounds
    · exact ht.bounds y (mem_of_mem_keep hy)
  · intro y hy
    rcases List.mem_cons.mp hy with rfl | hy
    · exact parameter
    · exact ht.parameter y (mem_of_mem_keep hy)

theorem Trail.Inside.bounds_parent {n : Nat} {t : Trail} (ht : t.Inside n) {x parent : Ancestor}
    {outer : List Ancestor} (hp : t.nodes = x :: parent :: outer) :
    1 ≤ parent.index ∧ parent.index ≤ n := by
  refine ht.bounds parent ?_
  rw [hp]
  exact List.mem_cons_of_mem x List.mem_cons_self

namespace Visit

structure Inside (n : Nat) (v : Visit) : Prop where
  pos : 1 ≤ v.index
  le : v.index ≤ n
  trail : v.trail.Inside n

theorem inside_listFrom {n i : Nat} {t : Trail} {nodes : List FlatNode} (ht : t.Inside n) (hi : 2 ≤ i)
    (bound : i + nodes.length ≤ n + 1) : ∀ v ∈ listFrom t i nodes, v.Inside n := by
  induction nodes generalizing t i with
  | nil =>
      intro v hv
      cases hv
  | cons m rest ih =>
      rw [List.length_cons] at bound
      have entered := ht.enter m.depth (x := ⟨⟨m.field, m.kind⟩, i⟩)
        ⟨Nat.le_of_succ_le hi, by simp only; omega⟩ fun _ => hi
      intro v hv
      rcases List.mem_cons.mp hv with rfl | hv
      · exact ⟨Nat.le_of_succ_le hi, by simp only; omega, entered⟩
      · exact ih entered (by omega) (by omega) v hv

theorem inside_inner (s : Statement) : ∀ v ∈ inner s, v.Inside s.size := by
  have size : 1 ≤ s.size := Nat.le_add_left 1 s.body.length
  have entered (d : Int) : (Trail.enter {} d ⟨⟨s.head.field, s.head.kind⟩, 1⟩).Inside s.size := by
    refine Trail.Inside.enter ⟨Trail.inStep_empty, ?_, ?_⟩ d ⟨Nat.le_refl 1, size⟩ ?_
    · intro x hx
      cases hx
    · intro x hx
      cases hx
    · intro kind
      rcases Bool.or_eq_true_iff.mp kind with h | h
      · exact absurd (beq_iff_eq.mp h) s.kind_head.1
      · exact absurd (beq_iff_eq.mp h) s.kind_head.2
  intro v hv
  rcases List.mem_cons.mp hv with rfl | hv
  · exact ⟨Nat.le_refl 1, size, entered _⟩
  · refine inside_listFrom (entered _) (Nat.le_refl 2) ?_ v hv
    rw [List.length_map, Statement.size, Statement.nodes, List.length_cons]
    omega

end Visit

/-! ## Both visits yield the same actions -/

/-- **The root of a program yields no action.** -/
theorem Visit.actions_root {a : Arena} {i : Nat} {root : Ancestor} (hr : root.kind = "program") :
    Visit.actions a ⟨i, Trail.below root {}⟩ = [] := by
  refine List.eq_nil_iff_forall_not_mem.mpr fun action mem => ?_
  obtain ⟨group, hgroup, rule, hrule, pattern, hpattern, fits⟩ := exists_of_mem_actions mem
  have misses := (MarkRule.spares_root group hgroup rule hrule _ hpattern).2.1
  have none_fits : Pattern.matchesInward pattern.reverse [root.toPathStep] = false :=
    Pattern.matchesInward_singleton misses hr
  exact Bool.noConfusion (none_fits.symm.trans fits)

/-- Where a pattern asks for another node than the root around, that is a node of the inner trail. -/
theorem Trail.exists_parent {t : Trail} {root : Ancestor} {steps : List Step} (ht : t.InStep)
    (hr : root.kind = "program")
    (other : Pattern.insideOther steps = true)
    (fits : Pattern.matchesInward steps (t.below root).inward = true) :
    ∃ x parent outer, t.nodes = x :: parent :: outer := by
  obtain ⟨p, q, outer, path, hq⟩ := Pattern.exists_parent_of_matches other fits
  rw [inward_below, ht] at path
  rcases hnodes : t.nodes with _ | ⟨x, _ | ⟨parent, rest⟩⟩
  · rw [hnodes] at path
    cases path
  · rw [hnodes] at path
    cases path
    exact absurd hr hq
  · exact ⟨x, parent, rest, rfl⟩

theorem Visit.exists_parent {a : Arena} {v : Visit} {root : Ancestor} {action : MarkAction}
    (hv : v.trail.InStep) (hr : root.kind = "program") (mem : action ∈ (v.below root).actions a)
    (around : action.usesAround = true) : ∃ x parent outer, v.trail.nodes = x :: parent :: outer := by
  obtain ⟨group, hgroup, rule, hrule, pattern, hpattern, fits⟩ := exists_of_mem_actions mem
  have other := (MarkRule.spares_root group hgroup rule hrule _ hpattern).2.2 (Or.inl around)
  exact Trail.exists_parent hv hr other fits

theorem Guard.isOutermost_root {root root' : Ancestor} {k : Nat} (hr : root.kind = "program")
    (hr' : root'.kind = "program") (field : Option String) (nodes : List Ancestor) :
    isOutermost field (nodes.map (Ancestor.shift k) ++ [root]) = isOutermost field (nodes ++ [root']) := by
  induction nodes generalizing field with
  | nil =>
      simp only [List.map_nil, List.nil_append, isOutermost, hr, hr']
  | cons x rest ih =>
      rw [List.map_cons, List.cons_append, List.cons_append, isOutermost, isOutermost, ← ih x.field]
      rfl

namespace Placed

variable {a a' : Arena} {k n : Nat} (h : Placed a a' k n) {v : Visit} {root root' : Ancestor}

include h

theorem holds_nameless (hv : v.Inside n) :
    Guard.holds a ((v.shift k).below root) .nameless = Guard.holds a' (v.below root') .nameless := by
  show (!(a.children (v.index + k)).any _) = !(a'.children v.index).any _
  rw [h.any_children hv.pos hv.le]
  intro j h₁ h₂
  rw [h.kind h₁ h₂]

theorem holds_outermostChain (hv : v.Inside n) (hr : root.kind = "program") (hr' : root'.kind = "program") :
    Guard.holds a ((v.shift k).below root) .outermostChain =
      Guard.holds a' (v.below root') .outermostChain := by
  show Guard.isOutermost (a.field (v.index + k)) ((v.trail.nodes.map (Ancestor.shift k) ++ [root]).drop 1) =
    Guard.isOutermost (a'.field v.index) ((v.trail.nodes ++ [root']).drop 1)
  rw [h.field hv.pos hv.le]
  cases v.trail.nodes with
  | nil => rfl
  | cons x outer => exact Guard.isOutermost_root hr hr' _ outer

theorem holds_callbackPassed (hv : v.Inside n) {x parent : Ancestor} {outer : List Ancestor}
    (hp : v.trail.nodes = x :: parent :: outer) :
    Guard.holds a ((v.shift k).below root) .callbackPassed =
      Guard.holds a' (v.below root') .callbackPassed := by
  have bounds := hv.trail.bounds_parent hp
  simp only [Guard.holds, Visit.trail_below, Visit.trail_shift, Trail.outward?_one hp,
    Trail.outward?_one (Trail.nodes_shift hp)]
  exact h.any_children bounds.1 bounds.2 fun j h₁ h₂ => by rw [h.kind h₁ h₂]

/-- **A visit yields the same actions in both places.** -/
theorem actions (hv : v.Inside n) (hr : root.kind = "program") (hr' : root'.kind = "program") :
    ((v.shift k).below root).actions a = (v.below root').actions a' := by
  refine List.filterMap_congr fun group hgroup => ?_
  rw [Visit.actionOf?, Visit.actionOf?, ← List.head?_filterMap, ← List.head?_filterMap]
  refine congrArg List.head? (List.filterMap_congr fun rule hrule => ?_)
  have path : ((v.shift k).below root).trail.inward = v.trail.inward ++ [root.toPathStep] := by
    rw [Visit.trail_below, Visit.trail_shift, Trail.inward_below, Trail.inward_shift]
  refine Rule.choose_congr ?_ ?_
  · intro y hy
    rw [path, Visit.trail_below, Trail.inward_below]
    exact Pattern.matchesInward_root (MarkRule.spares_root group hgroup rule hrule y hy).1 hr hr' _
  · intro y hy fits g hg
    cases g with
    | nameless => exact h.holds_nameless hv
    | outermostChain => exact h.holds_outermostChain hv hr hr'
    | callbackPassed =>
        have other := (MarkRule.spares_root group hgroup rule hrule y hy).2.2 (Or.inr hg)
        rw [path, ← Trail.inward_below] at fits
        obtain ⟨x, parent, outer, hp⟩ := Trail.exists_parent hv.trail.inStep hr other fits
        exact h.holds_callbackPassed hv hp

end Placed

end SourceSurvey
