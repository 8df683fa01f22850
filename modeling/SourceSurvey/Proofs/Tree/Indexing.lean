import Mathlib.Data.List.GetD
import SourceSurvey.Tree.Arena

/-!
# What the indexing pass finds

The pass over the depths of a node list keeps a stack of open nodes. Seen from outside, it finds for
every node the first later node that is not deeper (`IsEnd`) and the last earlier node that is less deep
(`IsParent`), whatever the depths are.

- `IsOpen` — after `k` nodes, a node is open if everything since has been deeper.
- `Reached` — the invariant of the pass: the stack holds the open nodes, innermost first; the end of a
  closed node and the parent of every node so far are the right ones.
- `isEnd_endOf`, `isParent_parent?` — the outcome, as it is seen in the arena.
-/

namespace SourceSurvey

namespace Indexing

/-- `j` is the first node after `i` that is not deeper, or the end of the list. -/
structure IsEnd (depths : List Nat) (i j : Nat) : Prop where
  lt : i < j
  le : j ≤ depths.length
  deeper : ∀ m, i < m → m < j → depths.getD i 0 < depths.getD m 0
  stops : j < depths.length → depths.getD j 0 ≤ depths.getD i 0

/-- The answer is the last node before `i` that is less deep, or none. -/
def IsParent (depths : List Nat) (i : Nat) : Option Nat → Prop
  | some j => j < i ∧ depths.getD j 0 < depths.getD i 0 ∧
      ∀ m, j < m → m < i → depths.getD i 0 ≤ depths.getD m 0
  | none => ∀ m, m < i → depths.getD i 0 ≤ depths.getD m 0

variable {depths : List Nat} {i j k : Nat}

theorem IsEnd.unique (hj : IsEnd depths i j) (hk : IsEnd depths i k) : j = k := by
  rcases Nat.lt_trichotomy j k with h | h | h
  · have deeper := hk.deeper j hj.lt h
    have stops := hj.stops (Nat.lt_of_lt_of_le h hk.le)
    omega
  · exact h
  · have deeper := hj.deeper k hk.lt h
    have stops := hk.stops (Nat.lt_of_lt_of_le h hj.le)
    omega

theorem IsParent.unique : ∀ {p q : Option Nat}, IsParent depths i p → IsParent depths i q → p = q
  | some j, some k, ⟨hj, dj, betweenj⟩, ⟨hk, dk, betweenk⟩ => by
      rcases Nat.lt_trichotomy j k with h | h | h
      · have := betweenj k h hk
        omega
      · rw [h]
      · have := betweenk j h hj
        omega
  | some j, none, ⟨hj, dj, _⟩, hq => absurd (hq j hj) (Nat.not_le_of_lt dj)
  | none, some k, hp, ⟨hk, dk, _⟩ => absurd (hp k hk) (Nat.not_le_of_lt dk)
  | none, none, _, _ => rfl

/-! ## Open nodes -/

/-- After `k` nodes, everything since node `j` has been deeper. -/
def IsOpen (depths : List Nat) (k j : Nat) : Prop :=
  j < k ∧ ∀ m, j < m → m < k → depths.getD j 0 < depths.getD m 0

theorem isOpen_succ : IsOpen depths (k + 1) j ↔
    j = k ∨ IsOpen depths k j ∧ depths.getD j 0 < depths.getD k 0 := by
  constructor
  · rintro ⟨hj, deeper⟩
    rcases Nat.lt_or_eq_of_le (Nat.le_of_lt_succ hj) with h | h
    · exact Or.inr ⟨⟨h, fun m hm hk => deeper m hm (Nat.lt_succ_of_lt hk)⟩, deeper k h (Nat.lt_succ_self k)⟩
    · exact Or.inl h
  · rintro (rfl | ⟨⟨hj, deeper⟩, hd⟩)
    · exact ⟨Nat.lt_succ_self _, fun m hm hk => absurd (Nat.le_of_lt_succ hk) (Nat.not_le_of_lt hm)⟩
    · refine ⟨Nat.lt_succ_of_lt hj, fun m hm hk => ?_⟩
      rcases Nat.lt_or_eq_of_le (Nat.le_of_lt_succ hk) with h | rfl
      · exact deeper m hm h
      · exact hd

/-- From every node on there is an open node that is not deeper. -/
theorem exists_isOpen (depths : List Nat) {i : Nat} (hi : i < k) :
    ∃ j, i ≤ j ∧ IsOpen depths k j ∧ depths.getD j 0 ≤ depths.getD i 0 := by
  by_cases h : ∀ m, i < m → m < k → depths.getD i 0 < depths.getD m 0
  · exact ⟨i, Nat.le_refl i, ⟨hi, h⟩, Nat.le_refl _⟩
  · simp only [not_forall, Nat.not_lt] at h
    obtain ⟨m, him, hmk, hd⟩ := h
    obtain ⟨j, hmj, hopen, hj⟩ := exists_isOpen depths hmk
    exact ⟨j, by omega, hopen, Nat.le_trans hj hd⟩
termination_by k - i

/-! ## Closing -/

section Close

variable {d : Nat} {l : List (Nat × Nat)} {ends : Array Nat}

theorem size_snd_close : (close i d l ends).2.size = ends.size := by
  induction l generalizing ends with
  | nil => rfl
  | cons x l ih =>
      rw [close]
      split
      · rw [ih, Array.size_setIfInBounds]
      · rfl

/-- Of a stack whose depths fall outwards, closing leaves the nodes that are less deep. -/
theorem fst_close (sorted : l.Pairwise fun x y => y.2 < x.2) :
    (close i d l ends).1 = l.filter fun x => decide (x.2 < d) := by
  induction l generalizing ends with
  | nil => rfl
  | cons x l ih =>
      obtain ⟨outer, sorted⟩ := List.pairwise_cons.mp sorted
      rw [close]
      split
      · next h =>
        rw [List.filter_cons_of_neg (by simpa using h)]
        exact ih sorted
      · next h =>
        rw [eq_comm, List.filter_eq_self]
        intro y hy
        rcases List.mem_cons.mp hy with rfl | hy
        · simpa using h
        · have := outer y hy
          simp only [decide_eq_true_eq]
          omega

theorem getD_setIfInBounds (m v : Nat) :
    (ends.setIfInBounds j v).getD m 0 = if j = m ∧ j < ends.size then v else ends.getD m 0 := by
  rw [Array.getD_eq_getD_getElem?, Array.getD_eq_getD_getElem?, Array.getElem?_setIfInBounds]
  by_cases h : j = m
  · subst h
    by_cases hj : j < ends.size
    · simp [hj]
    · simp [hj]
  · simp [h]

theorem snd_close_of_kept {m : Nat} (h : ∀ x ∈ l, d ≤ x.2 → x.1 ≠ m) :
    (close i d l ends).2.getD m 0 = ends.getD m 0 := by
  induction l generalizing ends with
  | nil => rfl
  | cons x l ih =>
      rw [close]
      split
      · next hd =>
        rw [ih fun y hy => h y (List.mem_cons_of_mem _ hy), getD_setIfInBounds,
          if_neg fun hx => h x List.mem_cons_self hd hx.1]
      · rfl

theorem snd_close_of_closed {m c : Nat} (sorted : l.Pairwise fun x y => y.2 < x.2)
    (mem : (m, c) ∈ l) (hc : d ≤ c) (hm : m < ends.size) :
    (close i d l ends).2.getD m 0 = i := by
  induction l generalizing ends c with
  | nil => cases mem
  | cons x l ih =>
      obtain ⟨outer, sorted⟩ := List.pairwise_cons.mp sorted
      have hx : d ≤ x.2 := by
        rcases List.mem_cons.mp mem with rfl | mem
        · exact hc
        · exact Nat.le_trans hc (Nat.le_of_lt (outer _ mem))
      rw [close, if_pos hx]
      by_cases later : ∃ y ∈ l, d ≤ y.2 ∧ y.1 = m
      · obtain ⟨⟨m', c'⟩, hy, hd, rfl⟩ := later
        exact ih sorted hy hd (by rwa [Array.size_setIfInBounds])
      · have here : x = (m, c) := by
          rcases List.mem_cons.mp mem with rfl | mem
          · rfl
          · exact absurd ⟨_, mem, hc, rfl⟩ later
        rw [snd_close_of_kept fun y hy hd hym => later ⟨y, hy, hd, hym⟩, getD_setIfInBounds, here,
          if_pos ⟨rfl, hm⟩]

end Close

/-! ## The pass -/

/-- Where the pass stands after `k` nodes. -/
structure Reached (depths : List Nat) (k : Nat) (s : Indexing) : Prop where
  size_ends : s.ends.size = depths.length
  size_parents : s.parents.size = k
  sorted : s.openNodes.Pairwise fun x y => y.1 < x.1
  mem_openNodes : ∀ j d, (j, d) ∈ s.openNodes ↔ IsOpen depths k j ∧ d = depths.getD j 0
  ends_open : ∀ j, j < depths.length → (k ≤ j ∨ IsOpen depths k j) → s.ends.getD j 0 = depths.length
  ends_closed : ∀ j, j < k → ¬ IsOpen depths k j → IsEnd depths j (s.ends.getD j 0)
  parents : ∀ j, j < k → IsParent depths j (s.parents.getD j none)

theorem Reached.start (depths : List Nat) :
    Reached depths 0 { ends := Array.replicate depths.length depths.length } where
  size_ends := Array.size_replicate
  size_parents := rfl
  sorted := List.Pairwise.nil
  mem_openNodes := by
    intro j d
    constructor
    · intro h
      cases h
    · rintro ⟨⟨h, -⟩, -⟩
      cases h
  ends_open := by
    intro j hj _
    rw [Array.getD_eq_getD_getElem?, Array.getElem?_replicate, if_pos hj]
    rfl
  ends_closed := fun _ h => nomatch h
  parents := fun _ h => nomatch h

variable {s : Indexing}

/-- On the stack the depths fall outwards, as the indices do. -/
theorem Reached.sorted_depths (h : Reached depths k s) : s.openNodes.Pairwise fun x y => y.2 < x.2 := by
  refine h.sorted.imp_of_mem ?_
  rintro ⟨i, c⟩ ⟨j, d⟩ hi hj hlt
  obtain ⟨⟨hik, -⟩, rfl⟩ := (h.mem_openNodes i c).mp hi
  obtain ⟨⟨-, deeper⟩, rfl⟩ := (h.mem_openNodes j d).mp hj
  exact deeper i hlt hik

/-- The innermost node that stays open when node `k` comes is its parent. -/
theorem Reached.isParent (h : Reached depths k s) :
    IsParent depths k
      ((s.openNodes.filter fun x => decide (x.2 < depths.getD k 0)).head?.map Prod.fst) := by
  -- any earlier node that is less deep has an open node from it on that is less deep, too
  have stays : ∀ m, m < k → depths.getD m 0 < depths.getD k 0 →
      ∃ x ∈ s.openNodes.filter fun x => decide (x.2 < depths.getD k 0), m ≤ x.1 := by
    intro m hm hd
    obtain ⟨j, hmj, hopen, hj⟩ := exists_isOpen depths hm
    refine ⟨(j, depths.getD j 0), List.mem_filter.mpr ⟨(h.mem_openNodes _ _).mpr ⟨hopen, rfl⟩, ?_⟩, hmj⟩
    exact decide_eq_true (Nat.lt_of_le_of_lt hj hd)
  have sorted := h.sorted.filter fun x => decide (x.2 < depths.getD k 0)
  have mem : ∀ x ∈ s.openNodes.filter (fun x => decide (x.2 < depths.getD k 0)),
      x.1 < k ∧ depths.getD x.1 0 < depths.getD k 0 := by
    rintro ⟨j, d⟩ hx
    obtain ⟨hx, hd⟩ := List.mem_filter.mp hx
    obtain ⟨⟨hj, -⟩, rfl⟩ := (h.mem_openNodes j d).mp hx
    exact ⟨hj, of_decide_eq_true hd⟩
  generalize s.openNodes.filter (fun x => decide (x.2 < depths.getD k 0)) = left at stays sorted mem
  cases left with
  | nil =>
      intro m hm
      refine Nat.le_of_not_lt fun hd => ?_
      obtain ⟨x, hx, -⟩ := stays m hm hd
      cases hx
  | cons x left =>
      obtain ⟨hx, hd⟩ := mem x List.mem_cons_self
      refine ⟨hx, hd, fun m hxm hm => Nat.le_of_not_lt fun hd => ?_⟩
      obtain ⟨y, hy, hmy⟩ := stays m hm hd
      have hyx : y.1 ≤ x.1 := by
        rcases List.mem_cons.mp hy with rfl | hy
        · exact Nat.le_refl _
        · exact Nat.le_of_lt ((List.pairwise_cons.mp sorted).1 y hy)
      omega

theorem add_eq (s : Indexing) (d : Nat) :
    s.add d =
      { ends := (close s.parents.size d s.openNodes s.ends).2
        parents := s.parents.push ((close s.parents.size d s.openNodes s.ends).1.head?.map Prod.fst)
        openNodes := (s.parents.size, d) :: (close s.parents.size d s.openNodes s.ends).1 } := rfl

/-- **The pass takes in one more node.** -/
theorem Reached.add (h : Reached depths k s) (hk : k < depths.length) :
    Reached depths (k + 1) (s.add (depths.getD k 0)) := by
  have closed : ∀ j, (∃ x ∈ s.openNodes, depths.getD k 0 ≤ x.2 ∧ x.1 = j) →
      IsOpen depths k j ∧ depths.getD k 0 ≤ depths.getD j 0 := by
    rintro j ⟨⟨j, d⟩, hx, hd, rfl⟩
    obtain ⟨hopen, rfl⟩ := (h.mem_openNodes j d).mp hx
    exact ⟨hopen, hd⟩
  rw [add_eq, h.size_parents, fst_close h.sorted_depths]
  refine ⟨?_, ?_, ?_, ?_, ?_, ?_, ?_⟩
  · rw [size_snd_close, h.size_ends]
  · rw [Array.size_push, h.size_parents]
  · refine List.pairwise_cons.mpr ⟨?_, h.sorted.filter _⟩
    rintro ⟨j, d⟩ hx
    exact ((h.mem_openNodes j d).mp (List.mem_filter.mp hx).1).1.1
  · intro j d
    rw [isOpen_succ, List.mem_cons, List.mem_filter, h.mem_openNodes, Prod.mk.injEq, decide_eq_true_eq]
    constructor
    · rintro (⟨rfl, rfl⟩ | ⟨⟨hopen, rfl⟩, hd⟩)
      · exact ⟨Or.inl rfl, rfl⟩
      · exact ⟨Or.inr ⟨hopen, hd⟩, rfl⟩
    · rintro ⟨rfl | ⟨hopen, hd⟩, rfl⟩
      · exact Or.inl ⟨rfl, rfl⟩
      · exact Or.inr ⟨⟨hopen, rfl⟩, hd⟩
  · intro j hj hopen
    have before : k ≤ j ∨ IsOpen depths k j := by
      rcases hopen with hkj | hopen
      · exact Or.inl (Nat.le_of_succ_le hkj)
      · rcases isOpen_succ.mp hopen with rfl | ⟨hopen, -⟩
        · exact Or.inl (Nat.le_refl _)
        · exact Or.inr hopen
    rw [snd_close_of_kept ?_]
    · exact h.ends_open j hj before
    · intro x hx hd hxj
      obtain ⟨⟨hjk, -⟩, hd⟩ := closed j ⟨x, hx, hd, hxj⟩
      rcases hopen with hkj | hopen
      · omega
      · rcases isOpen_succ.mp hopen with rfl | ⟨-, hlt⟩
        · exact Nat.lt_irrefl _ hjk
        · omega
  · intro j hj hclosed
    rw [isOpen_succ, not_or, not_and, Nat.not_lt] at hclosed
    have hjk : j < k := by omega
    by_cases hopen : IsOpen depths k j
    · have hd := hclosed.2 hopen
      rw [snd_close_of_closed h.sorted_depths ((h.mem_openNodes _ _).mpr ⟨hopen, rfl⟩) hd
        (by rw [h.size_ends]; omega)]
      exact ⟨hjk, Nat.le_of_lt hk, hopen.2, fun _ => hd⟩
    · rw [snd_close_of_kept fun x hx hd hxj => hopen (closed j ⟨x, hx, hd, hxj⟩).1]
      exact h.ends_closed j hjk hopen
  · intro j hj
    rw [Array.getD_eq_getD_getElem?, Array.getElem?_push, h.size_parents]
    by_cases hjk : j = k
    · rw [if_pos hjk, hjk]
      exact h.isParent
    · rw [if_neg hjk, ← Array.getD_eq_getD_getElem?]
      exact h.parents j (by omega)

theorem reached_take (depths : List Nat) (hk : k ≤ depths.length) :
    Reached depths k
      ((depths.take k).foldl Indexing.add { ends := Array.replicate depths.length depths.length }) := by
  induction k with
  | zero => exact Reached.start depths
  | succ k ih =>
      have step := (ih (Nat.le_of_succ_le hk)).add hk
      rw [List.take_succ_eq_append_getElem hk, List.foldl_append]
      rwa [List.getD_eq_getElem _ _ hk] at step

theorem reached_run (depths : List Nat) : Reached depths depths.length (run depths) := by
  have h := reached_take depths (Nat.le_refl depths.length)
  rwa [List.take_length] at h

end Indexing

namespace Arena

open Indexing

variable {nodes : List FlatNode} {i : Nat}

/-- The subtree of a node ends at the first later node that is not deeper. -/
theorem isEnd_endOf (hi : i < nodes.length) :
    IsEnd (nodes.map FlatNode.depth) i ((ofNodes nodes).endOf i) := by
  have h := reached_run (nodes.map FlatNode.depth)
  have hi : i < (nodes.map FlatNode.depth).length := by rwa [List.length_map]
  by_cases hopen : IsOpen (nodes.map FlatNode.depth) (nodes.map FlatNode.depth).length i
  · have hend : (ofNodes nodes).endOf i = (nodes.map FlatNode.depth).length :=
      h.ends_open i hi (Or.inr hopen)
    rw [hend]
    exact ⟨hi, Nat.le_refl _, hopen.2, fun h => absurd h (Nat.lt_irrefl _)⟩
  · exact h.ends_closed i hi hopen

/-- The parent of a node is the last earlier node that is less deep. -/
theorem isParent_parent? (hi : i < nodes.length) :
    IsParent (nodes.map FlatNode.depth) i ((ofNodes nodes).parent? i) :=
  (reached_run (nodes.map FlatNode.depth)).parents i (by rwa [List.length_map])

end Arena

end SourceSurvey
