import Mathlib.Data.List.Find
import SourceSurvey.Proofs.Tree.Chain
import SourceSurvey.Proofs.Tree.Indexing

/-!
# Statements placed among others

A program is a root with statements below it, one after the other. Where a statement stands among others
its nodes are the nodes it has alone below a root, moved by the number of nodes before it (`Placed`).
Everything that is asked about a node of the statement — its kind, field and text, its children, the
access chain that starts at it — has the same answer in both places, up to that move.
-/

namespace SourceSurvey

/-- A subtree directly below the root: its top node and the nodes below it. The top node is no parameter,
which would be counted among its siblings. -/
structure Statement where
  head : FlatNode
  body : List FlatNode
  depth_head : head.depth = 1
  depth_body : ∀ n ∈ body, 2 ≤ n.depth
  kind_head : head.kind ≠ "required_parameter" ∧ head.kind ≠ "optional_parameter"

namespace Statement

def nodes (s : Statement) : List FlatNode := s.head :: s.body

def size (s : Statement) : Nat := s.nodes.length

theorem one_le_depth (s : Statement) : ∀ n ∈ s.nodes, 1 ≤ n.depth := by
  intro n hn
  rcases List.mem_cons.mp hn with rfl | hn
  · exact Nat.le_of_eq s.depth_head.symm
  · exact Nat.le_of_succ_le (s.depth_body n hn)

end Statement

/-- The nodes `1` to `n` of an arena stand in another one moved by `k`, as the same subtree. -/
structure Placed (a a' : Arena) (k n : Nat) : Prop where
  size : k + n < a.size
  size' : n < a'.size
  node : ∀ i, 1 ≤ i → i ≤ n → a.nodes.getD (i + k) default = a'.nodes.getD i default
  endOf : ∀ i, 1 ≤ i → i ≤ n → a.endOf (i + k) = a'.endOf i + k
  endOf_le : ∀ i, 1 ≤ i → i ≤ n → a'.endOf i ≤ n + 1
  parent : ∀ i, 2 ≤ i → i ≤ n →
    ∃ j, 1 ≤ j ∧ j ≤ n ∧ a'.parent? i = some j ∧ a.parent? (i + k) = some (j + k)

/-! ## Placing a statement -/

section Place

variable (root root' : FlatNode) (front back : List FlatNode) {s : Statement} {i : Nat}

theorem getD_depths (nodes : List FlatNode) (i : Nat) :
    (nodes.map FlatNode.depth).getD i 0 = (nodes.getD i default).depth :=
  List.getD_map nodes default FlatNode.depth

theorem getD_placed (h₁ : 1 ≤ i) (h₂ : i ≤ s.size) :
    (root :: (front ++ s.nodes ++ back)).getD (i + front.length) default =
      (root' :: s.nodes).getD i default := by
  obtain ⟨j, rfl⟩ : ∃ j, i = j + 1 := ⟨i - 1, by omega⟩
  have hj : j < s.nodes.length := h₂
  rw [show j + 1 + front.length = (j + front.length) + 1 by omega, List.getD_cons_succ,
    List.getD_cons_succ, List.append_assoc, List.getD_eq_getElem?_getD, List.getD_eq_getElem?_getD,
    List.getElem?_append_right (by omega), Nat.add_sub_cancel, List.getElem?_append_left hj]

theorem one_le_depth (h₁ : 1 ≤ i) (h₂ : i ≤ s.size) : 1 ≤ ((root' :: s.nodes).getD i default).depth := by
  obtain ⟨j, rfl⟩ : ∃ j, i = j + 1 := ⟨i - 1, by omega⟩
  have hj : j < s.nodes.length := h₂
  rw [List.getD_cons_succ, List.getD_eq_getElem _ _ hj]
  exact s.one_le_depth _ (List.getElem_mem hj)

theorem two_le_depth (h₁ : 2 ≤ i) (h₂ : i ≤ s.size) : 2 ≤ ((root' :: s.nodes).getD i default).depth := by
  obtain ⟨j, rfl⟩ : ∃ j, i = j + 2 := ⟨i - 2, by omega⟩
  have hj : j < s.body.length := Nat.lt_of_succ_lt_succ h₂
  show 2 ≤ (s.body.getD j default).depth
  rw [List.getD_eq_getElem _ _ hj]
  exact s.depth_body _ (List.getElem_mem hj)

theorem length_alone (s : Statement) : (root' :: s.nodes).length = s.size + 1 := rfl

theorem length_placed (s : Statement) :
    (root :: (front ++ s.nodes ++ back)).length = front.length + s.size + back.length + 1 := by
  rw [List.length_cons, List.length_append, List.length_append, Statement.size]

/-- What comes after a statement is a statement again, or nothing. -/
theorem depth_after (next : ∀ n ∈ back.head?, n.depth ≤ 1) :
    ((root :: (front ++ s.nodes ++ back)).getD (front.length + s.size + 1) default).depth ≤ 1 := by
  rw [List.getD_cons_succ, List.getD_eq_getElem?_getD,
    List.getElem?_append_right (by rw [List.length_append, Statement.size]), List.length_append,
    Statement.size, Nat.sub_self, ← List.head?_eq_getElem?]
  cases h : back.head? with
  | none => exact Nat.zero_le 1
  | some n => exact next n h

open Indexing

theorem getD_depths_placed (h₁ : 1 ≤ i) (h₂ : i ≤ s.size) :
    ((root :: (front ++ s.nodes ++ back)).map FlatNode.depth).getD (i + front.length) 0 =
      ((root' :: s.nodes).map FlatNode.depth).getD i 0 := by
  rw [getD_depths, getD_depths, getD_placed root root' front back h₁ h₂]

theorem isEnd_placed {e : Nat} (next : ∀ n ∈ back.head?, n.depth ≤ 1) (h₁ : 1 ≤ i) (h₂ : i ≤ s.size)
    (h : IsEnd ((root' :: s.nodes).map FlatNode.depth) i e) :
    IsEnd ((root :: (front ++ s.nodes ++ back)).map FlatNode.depth) (i + front.length)
      (e + front.length) := by
  obtain ⟨lt, le, deeper, stops⟩ := h
  rw [List.length_map, length_alone] at le stops
  refine ⟨by omega, ?_, ?_, ?_⟩
  · rw [List.length_map, length_placed]
    omega
  · intro m hm hme
    obtain ⟨m, rfl⟩ : ∃ m', m = m' + front.length := ⟨m - front.length, by omega⟩
    rw [getD_depths_placed root root' front back h₁ h₂,
      getD_depths_placed root root' front back (by omega) (by omega)]
    exact deeper m (by omega) (by omega)
  · intro _
    rw [getD_depths_placed root root' front back h₁ h₂]
    by_cases he : e ≤ s.size
    · rw [getD_depths_placed root root' front back (by omega) he]
      exact stops (by omega)
    · -- the subtree runs to the end of the statement, and what follows is not deeper than its top
      rw [show e + front.length = front.length + s.size + 1 by omega, getD_depths, getD_depths]
      exact Nat.le_trans (depth_after root front back next) (one_le_depth root' h₁ h₂)

theorem isParent_placed {p : Option Nat} (h₁ : 2 ≤ i) (h₂ : i ≤ s.size)
    (h : IsParent ((root' :: s.nodes).map FlatNode.depth) i p) :
    ∃ j, 1 ≤ j ∧ j ≤ s.size ∧ p = some j ∧
      IsParent ((root :: (front ++ s.nodes ++ back)).map FlatNode.depth) (i + front.length)
        (some (j + front.length)) := by
  -- the top of the statement is less deep, so the parent is not before it
  have top : ((root' :: s.nodes).map FlatNode.depth).getD 1 0 <
      ((root' :: s.nodes).map FlatNode.depth).getD i 0 := by
    rw [getD_depths, getD_depths]
    exact Nat.lt_of_lt_of_le (Nat.lt_succ_of_le (Nat.le_of_eq s.depth_head)) (two_le_depth root' h₁ h₂)
  cases p with
  | none =>
      have := h 1 h₁
      omega
  | some j =>
      obtain ⟨lt, less, between⟩ := h
      have hj : 1 ≤ j := by
        refine Nat.one_le_iff_ne_zero.mpr ?_
        rintro rfl
        have := between 1 Nat.one_pos h₁
        omega
      refine ⟨j, hj, by omega, rfl, by omega, ?_, ?_⟩
      · rw [getD_depths_placed root root' front back hj (by omega),
          getD_depths_placed root root' front back (by omega) h₂]
        exact less
      · intro m hm hmi
        obtain ⟨m, rfl⟩ : ∃ m', m = m' + front.length := ⟨m - front.length, by omega⟩
        rw [getD_depths_placed root root' front back (by omega) h₂,
          getD_depths_placed root root' front back (by omega) (by omega)]
        exact between m (by omega) (by omega)

/-- **A statement among others is placed as it stands alone.** -/
theorem placed_statement {back : List FlatNode} (s : Statement)
    (next : ∀ n ∈ back.head?, n.depth ≤ 1) :
    Placed (Arena.ofNodes (root :: (front ++ s.nodes ++ back))) (Arena.ofNodes (root' :: s.nodes))
      front.length s.size := by
  have total := length_placed root front back s
  have alone := length_alone root' s
  have ends : ∀ i, 1 ≤ i → i ≤ s.size → IsEnd ((root' :: s.nodes).map FlatNode.depth) i
      ((Arena.ofNodes (root' :: s.nodes)).endOf i) :=
    fun i _ h₂ => Arena.isEnd_endOf (by omega)
  refine ⟨?_, ?_, ?_, ?_, ?_, ?_⟩
  · show _ < (root :: (front ++ s.nodes ++ back)).toArray.size
    rw [List.size_toArray]
    omega
  · show _ < (root' :: s.nodes).toArray.size
    rw [List.size_toArray]
    omega
  · intro i h₁ h₂
    show (root :: (front ++ s.nodes ++ back)).toArray.getD _ _ = (root' :: s.nodes).toArray.getD _ _
    simpa only [Array.getD_eq_getD_getElem?, List.getElem?_toArray, List.getD_eq_getElem?_getD] using
      getD_placed root root' front back h₁ h₂
  · intro i h₁ h₂
    exact (Arena.isEnd_endOf (by omega)).unique (isEnd_placed root root' front back next h₁ h₂ (ends i h₁ h₂))
  · intro i h₁ h₂
    have := (ends i h₁ h₂).le
    rwa [List.length_map, alone] at this
  · intro i h₁ h₂
    obtain ⟨j, hj, hjs, hp, parent⟩ := isParent_placed root root' front back
      h₁ h₂ (Arena.isParent_parent? (show i < (root' :: s.nodes).length by omega))
    exact ⟨j, hj, hjs, hp, (Arena.isParent_parent? (by omega)).unique parent⟩

end Place

/-! ## What is asked about a placed node -/

theorem Arena.lt_of_mem_leap {a : Arena} {stop i j : Nat} (h : j ∈ a.leap stop i) : j < stop := by
  fun_induction Arena.leap a stop i with
  | case1 i hi ih =>
      rcases List.mem_cons.mp h with rfl | h
      · exact hi
      · exact ih h
  | case2 => cases h

namespace Placed

variable {a a' : Arena} {k n i : Nat} (h : Placed a a' k n)

include h

theorem kind (h₁ : 1 ≤ i) (h₂ : i ≤ n) : a.kind (i + k) = a'.kind i := by
  rw [Arena.kind, Arena.kind, h.node i h₁ h₂]

theorem field (h₁ : 1 ≤ i) (h₂ : i ≤ n) : a.field (i + k) = a'.field i := by
  rw [Arena.field, Arena.field, h.node i h₁ h₂]

theorem text (h₁ : 1 ≤ i) (h₂ : i ≤ n) : a.text (i + k) = a'.text i := by
  rw [Arena.text, Arena.text, h.node i h₁ h₂]

theorem leap {stop : Nat} (h₁ : 1 ≤ i) (hs : stop ≤ n + 1) :
    a.leap (stop + k) (i + k) = (a'.leap stop i).map (· + k) := by
  fun_induction Arena.leap a' stop i with
  | case1 i hi ih =>
      have next : max (a.endOf (i + k)) (i + k + 1) = max (a'.endOf i) (i + 1) + k := by
        rw [h.endOf i h₁ (by omega)]
        omega
      rw [Arena.leap, if_pos (by omega), next, ih (by omega), List.map_cons]
  | case2 i hi => rw [Arena.leap, if_neg (by omega), List.map_nil]

theorem children (h₁ : 1 ≤ i) (h₂ : i ≤ n) : a.children (i + k) = (a'.children i).map (· + k) := by
  rw [Arena.children, Arena.children, h.endOf i h₁ h₂, show i + k + 1 = i + 1 + k by omega]
  exact h.leap (by omega) (h.endOf_le i h₁ h₂)

theorem mem_children {j : Nat} (h₁ : 1 ≤ i) (h₂ : i ≤ n) (hj : j ∈ a'.children i) : i < j ∧ j ≤ n := by
  have below := Arena.lt_of_mem_leap hj
  have := h.endOf_le i h₁ h₂
  exact ⟨Arena.lt_of_mem_children hj, by omega⟩

theorem find?_children {p p' : Nat → Bool} (h₁ : 1 ≤ i) (h₂ : i ≤ n)
    (hp : ∀ j, 1 ≤ j → j ≤ n → p (j + k) = p' j) :
    (a.children (i + k)).find? p = ((a'.children i).find? p').map (· + k) := by
  rw [h.children h₁ h₂, List.find?_map]
  congr 1
  refine List.find?_congr fun j hj => ?_
  obtain ⟨hij, hjn⟩ := h.mem_children h₁ h₂ hj
  exact hp j (by omega) hjn

theorem any_children {p p' : Nat → Bool} (h₁ : 1 ≤ i) (h₂ : i ≤ n)
    (hp : ∀ j, 1 ≤ j → j ≤ n → p (j + k) = p' j) :
    (a.children (i + k)).any p = (a'.children i).any p' := by
  rw [h.children h₁ h₂, List.any_map, Bool.eq_iff_iff, List.any_eq_true, List.any_eq_true]
  refine exists_congr fun j => and_congr_right fun hj => ?_
  obtain ⟨hij, hjn⟩ := h.mem_children h₁ h₂ hj
  rw [Function.comp_apply, hp j (by omega) hjn]

theorem find?_kind (q : String → Bool) (h₁ : 1 ≤ i) (h₂ : i ≤ n) :
    (a.children (i + k)).find? (fun j => q (a.kind j)) =
      ((a'.children i).find? fun j => q (a'.kind j)).map (· + k) :=
  h.find?_children h₁ h₂ fun _ hj hjn => by rw [h.kind hj hjn]

theorem childByField? (f : String) (h₁ : 1 ≤ i) (h₂ : i ≤ n) :
    a.childByField? (i + k) f = (a'.childByField? i f).map (· + k) :=
  h.find?_children h₁ h₂ fun _ hj hjn => by rw [h.field hj hjn]

theorem childOfKind? (kind : String) (h₁ : 1 ≤ i) (h₂ : i ≤ n) :
    a.childOfKind? (i + k) kind = (a'.childOfKind? i kind).map (· + k) :=
  h.find?_kind (· == kind) h₁ h₂

theorem bounds_of_find? {p : Nat → Bool} {j : Nat} (h₁ : 1 ≤ i) (h₂ : i ≤ n)
    (hj : (a'.children i).find? p = some j) : i < j ∧ j ≤ n :=
  h.mem_children h₁ h₂ (List.mem_of_find?_eq_some hj)

theorem chainStep {chain chain' : Nat → String} (h₁ : 1 ≤ i) (h₂ : i ≤ n)
    (hc : ∀ j, i < j → j ≤ n → chain (j + k) = chain' j) :
    a.chainStep chain (i + k) = a'.chainStep chain' i := by
  unfold Arena.chainStep
  rw [h.kind h₁ h₂, h.text h₁ h₂, h.childByField? _ h₁ h₂, h.childByField? _ h₁ h₂,
    h.childByField? _ h₁ h₂]
  split
  · rw [h.children h₁ h₂, List.map_map]
    congr 1
    refine List.map_congr_left fun j hj => ?_
    obtain ⟨hij, hjn⟩ := h.mem_children h₁ h₂ hj
    rw [Function.comp_apply, h.kind (by omega) hjn, h.text (by omega) hjn, hc j hij hjn]
  split
  · cases hj : a'.childByField? i "function" with
    | none => rfl
    | some j =>
        obtain ⟨hij, hjn⟩ := h.bounds_of_find? h₁ h₂ hj
        simp only [Option.map_some, hc j hij hjn]
  split
  · cases hj : a'.childByField? i "object" with
    | none => rfl
    | some j =>
        obtain ⟨hij, hjn⟩ := h.bounds_of_find? h₁ h₂ hj
        simp only [Option.map_some, hc j hij hjn]
        cases hm : a'.childByField? i "index" with
        | none => rfl
        | some m =>
            obtain ⟨him, hmn⟩ := h.bounds_of_find? h₁ h₂ hm
            simp only [Option.map_some, h.text (Nat.le_of_lt (Nat.lt_of_le_of_lt h₁ him)) hmn]
  split
  · rw [h.find?_kind (fun c => c != "(" && c != ")") h₁ h₂]
    cases hj : (a'.children i).find? fun j => a'.kind j != "(" && a'.kind j != ")" with
    | none => rfl
    | some j =>
        obtain ⟨hij, hjn⟩ := h.bounds_of_find? h₁ h₂ hj
        simp only [Option.map_some, hc j hij hjn]
  split
  · rw [h.find?_kind (fun c => c != "!") h₁ h₂]
    cases hj : (a'.children i).find? fun j => a'.kind j != "!" with
    | none => rfl
    | some j =>
        obtain ⟨hij, hjn⟩ := h.bounds_of_find? h₁ h₂ hj
        simp only [Option.map_some, hc j hij hjn]
  · rfl

theorem chainText {i : Nat} (h₁ : 1 ≤ i) (h₂ : i ≤ n) : a.chainText (i + k) = a'.chainText i := by
  have := h.size
  have := h.size'
  rw [Arena.chainText_eq_chainStep (by omega), Arena.chainText_eq_chainStep (by omega)]
  exact h.chainStep h₁ h₂ fun j hij hjn => chainText (by omega) hjn
termination_by n - i

end Placed

end SourceSurvey
