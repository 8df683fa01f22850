import Mathlib.Data.Nat.Init
import SourceSurvey.Outline

/-!
# Compressed levels

Items stand one after the other, each at a level. An item stands below an earlier one if its level and the levels of
all items between are greater (`Levels.above`). Compressing the levels gives every item the number of items that it
stands below (`Levels.compressLevels_eq`), and keeps which item stands below which (`Levels.mem_above_iff`).
-/

namespace SourceSurvey.Levels

variable {level : Nat → Int} {items done rest : List Nat} {i j m : Nat}

/-- The earlier items that item `i` stands below, in order. -/
def above (level : Nat → Int) (items : List Nat) (i : Nat) : List Nat :=
  items.filter fun j => j < i ∧ ∀ m ∈ items, j < m → m ≤ i → level j < level m

theorem mem_above : j ∈ above level items i ↔
    j ∈ items ∧ j < i ∧ ∀ m ∈ items, j < m → m ≤ i → level j < level m := by
  rw [above, List.mem_filter, decide_eq_true_eq]

/-! ## The open items -/

/-- Of the items so far, those that a next one may stand below, innermost first. -/
def pending (level : Nat → Int) (done : List Nat) : List Nat :=
  done.reverse.filter fun j => ∀ m ∈ done, j < m → level j < level m

/-- The next item closes those that are not at a smaller level. -/
theorem pending_append_singleton (last : ∀ j ∈ done, j < i) :
    pending level (done ++ [i]) = i :: (pending level done).filter fun j => level j < level i := by
  have innermost : ∀ m ∈ done ++ [i], i < m → level i < level m := by
    intro m hm less
    rcases List.mem_append.mp hm with earlier | same
    · exact absurd (last m earlier) (Nat.not_lt_of_lt less)
    · exact absurd (List.mem_singleton.mp same) (Nat.ne_of_gt less)
  rw [pending, List.reverse_append, List.reverse_singleton, List.singleton_append, List.filter_cons,
    if_pos (decide_eq_true innermost), pending, List.filter_filter]
  refine congrArg (List.cons i) (List.filter_congr fun j hj => ?_)
  rw [← Bool.decide_and, decide_eq_decide, List.forall_mem_append]
  constructor
  · rintro ⟨before, next⟩
    exact ⟨next i List.mem_cons_self (last j (List.mem_reverse.mp hj)), before⟩
  · rintro ⟨next, before⟩
    refine ⟨before, fun m hm _ => ?_⟩
    rwa [List.mem_singleton.mp hm]

theorem pairwise_pending (sorted : done.Pairwise (· < ·)) :
    ((pending level done).map level).Pairwise (· > ·) := by
  rw [List.pairwise_map]
  apply ((List.pairwise_reverse.mpr sorted).filter _).imp_of_mem
  intro j m hj hm less
  obtain ⟨mem, -⟩ := List.mem_filter.mp hj
  obtain ⟨-, opened⟩ := List.mem_filter.mp hm
  exact of_decide_eq_true opened j (List.mem_reverse.mp mem) less

/-- One step of the compression: what is not at a smaller level is closed. -/
theorem compressFrom_cons {openLevels : List Int} (sorted : openLevels.Pairwise (· > ·)) (x : Int) (l : List Int) :
    compressFrom openLevels (x :: l) =
      (openLevels.filter (· < x)).length :: compressFrom (x :: openLevels.filter (· < x)) l := by
  have closed : (if (openLevels.dropWhile fun y => x < y).head? = some x then openLevels.dropWhile fun y => x < y
      else x :: openLevels.dropWhile fun y => x < y) = x :: openLevels.filter (· < x) := by
    induction openLevels with
    | nil => rfl
    | cons y outer ih =>
        obtain ⟨smaller, rest⟩ := List.pairwise_cons.mp sorted
        rcases Int.lt_trichotomy x y with less | rfl | greater
        · have passed : ¬ y < x := Int.not_lt.mpr (Int.le_of_lt less)
          simp only [List.dropWhile_cons, List.filter_cons, less, passed, decide_true, decide_false, if_true,
            Bool.false_eq_true, if_false]
          exact ih rest
        · have all : ∀ z ∈ outer, decide (z < x) = true := fun z hz => decide_eq_true (smaller z hz)
          simp only [List.dropWhile_cons, List.filter_cons, Int.lt_irrefl, decide_false, Bool.false_eq_true, if_false,
            List.head?_cons, if_true, List.filter_eq_self.mpr all]
        · have all : ∀ z ∈ outer, decide (z < x) = true :=
            fun z hz => decide_eq_true (Int.lt_trans (smaller z hz) greater)
          have kept : ¬ x < y := Int.not_lt.mpr (Int.le_of_lt greater)
          have new : ¬ some y = some x := fun same => Int.ne_of_lt greater (Option.some.inj same)
          simp only [List.dropWhile_cons, List.filter_cons, kept, greater, new, decide_true, decide_false, if_true,
            Bool.false_eq_true, if_false, List.head?_cons, List.filter_eq_self.mpr all]
  rw [compressFrom, closed, List.length_cons, Nat.add_sub_cancel]

theorem above_eq (sorted : (done ++ i :: rest).Pairwise (· < ·)) : above level (done ++ i :: rest) i =
    ((pending level done).filter fun j => level j < level i).reverse := by
  obtain ⟨-, later, before⟩ := List.pairwise_append.mp sorted
  have later := (List.pairwise_cons.mp later).1
  have none : (i :: rest).filter (fun j => decide (j < i ∧
      ∀ m ∈ done ++ i :: rest, j < m → m ≤ i → level j < level m)) = [] := by
    refine List.filter_eq_nil_iff.mpr fun j hj below => ?_
    have less := (of_decide_eq_true below).1
    rcases List.mem_cons.mp hj with rfl | mem
    · exact Nat.lt_irrefl j less
    · exact Nat.lt_asymm less (later j mem)
  rw [above, List.filter_append, none, List.append_nil, pending, List.filter_filter, ← List.filter_reverse,
    List.reverse_reverse]
  refine List.filter_congr fun j hj => ?_
  rw [← Bool.decide_and, decide_eq_decide]
  constructor
  · rintro ⟨less, below⟩
    refine ⟨below i (by simp) less (Nat.le_refl i), fun m hm next => ?_⟩
    exact below m (List.mem_append_left _ hm) next (Nat.le_of_lt (before m hm i List.mem_cons_self))
  · rintro ⟨smaller, opened⟩
    refine ⟨before j hj i List.mem_cons_self, fun m hm next upTo => ?_⟩
    rcases List.mem_append.mp hm with hm | hm
    · exact opened m hm next
    · rcases List.mem_cons.mp hm with rfl | hm
      · exact smaller
      · exact absurd (later m hm) (Nat.not_lt_of_le upTo)

theorem compressFrom_pending (sorted : (done ++ rest).Pairwise (· < ·)) :
    compressFrom ((pending level done).map level) (rest.map level) =
      rest.map fun i => (above level (done ++ rest) i).length := by
  induction rest generalizing done with
  | nil => rfl
  | cons i rest ih =>
      have last : ∀ j ∈ done, j < i := fun j hj =>
        (List.pairwise_append.mp sorted).2.2 j hj i List.mem_cons_self
      have open_ : ((pending level done).map level).Pairwise (· > ·) :=
        pairwise_pending (List.pairwise_append.mp sorted).1
      have smaller : ((pending level done).map level).filter (· < level i) =
          ((pending level done).filter fun j => level j < level i).map level := List.filter_map
      have next : done ++ i :: rest = done ++ [i] ++ rest := by rw [List.append_assoc, List.singleton_append]
      rw [List.map_cons, List.map_cons, compressFrom_cons open_, smaller, List.length_map, above_eq sorted,
        List.length_reverse, ← List.map_cons, ← pending_append_singleton last, next]
      rw [next] at sorted
      rw [ih sorted]

/-- **The compressed level of an item is the number of items that it stands below.** -/
theorem compressLevels_eq (sorted : items.Pairwise (· < ·)) :
    compressLevels (items.map level) = items.map fun i => (above level items i).length := by
  have run : compressFrom ((pending level []).map level) (items.map level) =
      items.map fun i => (above level ([] ++ items) i).length := compressFrom_pending sorted
  exact run

/-! ## Who stands below whom -/

theorem above_of_mem_above (h : j ∈ above level items i) :
    above level items j = (above level items i).filter (· < j) := by
  obtain ⟨-, less, below⟩ := mem_above.mp h
  rw [above, above, List.filter_filter]
  refine List.filter_congr fun x hx => ?_
  rw [← Bool.decide_and, decide_eq_decide]
  constructor
  · rintro ⟨before, outer⟩
    refine ⟨before, Nat.lt_trans before less, fun m hm next upTo => ?_⟩
    rcases Nat.lt_or_ge j m with beyond | within
    · exact Int.lt_trans (outer j (mem_above.mp h).1 before (Nat.le_refl j)) (below m hm beyond upTo)
    · exact outer m hm next within
  · rintro ⟨before, -, outer⟩
    exact ⟨before, fun m hm next upTo => outer m hm next (Nat.le_trans upTo (Nat.le_of_lt less))⟩

theorem length_above_lt (h : j ∈ above level items i) :
    (above level items j).length < (above level items i).length := by
  rw [above_of_mem_above h, List.length_filter_lt_length_iff_exists]
  exact ⟨j, h, by simp⟩

/-- The first item after another that is not at a greater level stands below no more than that does. -/
theorem length_above_le (before : j < m) (le : level m ≤ level j) (hm : m ∈ items)
    (first : ∀ x ∈ items, j < x → x < m → level j < level x) :
    (above level items m).length ≤ (above level items j).length := by
  rw [above, above, ← List.countP_eq_length_filter, ← List.countP_eq_length_filter]
  apply List.countP_mono_left
  intro x hx outer
  obtain ⟨less, outer⟩ := of_decide_eq_true outer
  apply decide_eq_true
  rcases Nat.lt_trichotomy x j with earlier | rfl | later
  · exact ⟨earlier, fun y hy next upTo => outer y hy next (Nat.le_trans upTo (Nat.le_of_lt before))⟩
  · exact absurd (outer m hm before (Nat.le_refl m)) (Int.not_lt.mpr le)
  · -- an item between the two would be at a smaller level than both
    have between := Int.lt_trans (first x hx later less) (outer m hm less (Nat.le_refl m))
    exact absurd between (Int.not_lt.mpr le)

/-- **Compressed levels keep who stands below whom.** -/
theorem mem_above_iff (hj : j ∈ items) : j ∈ above level items i ↔ j < i ∧ ∀ m ∈ items, j < m → m ≤ i →
    (above level items j).length < (above level items m).length := by
  constructor
  · intro h
    obtain ⟨-, less, below⟩ := mem_above.mp h
    refine ⟨less, fun m hm next upTo => length_above_lt ?_⟩
    exact mem_above.mpr ⟨hj, next, fun x hx after le => below x hx after (Nat.le_trans le upTo)⟩
  · rintro ⟨less, greater⟩
    refine mem_above.mpr ⟨hj, less, fun m => ?_⟩
    induction m using Nat.strong_induction_on with
    | h m ih =>
        intro hm next upTo
        refine Int.not_le.mp fun exception => ?_
        have le := length_above_le next exception hm fun x hx after within =>
          ih x within hx after (Nat.le_trans (Nat.le_of_lt within) upTo)
        exact Nat.not_le_of_lt (greater m hm next upTo) le

end SourceSurvey.Levels
