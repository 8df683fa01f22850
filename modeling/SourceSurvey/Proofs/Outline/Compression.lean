import Mathlib.Data.List.Nodup
import Mathlib.Data.List.Perm.Subperm
import SourceSurvey.Proofs.Outline.Levels

/-!
# The rule of compressed levels

Compressed levels are found with the levels of the open items at hand. They follow a rule that does not mention these:
an item with nothing at a smaller level before it is at level 0, and every other one is one level below the nearest
earlier item at a smaller level (`Levels.compressLevels_nearest`). So they start at 0, rise by one at most, and
compressing them once more changes nothing.
-/

namespace SourceSurvey.Levels

variable {level : Nat → Int} {items : List Nat} {i j : Nat}

/-! ## Items above the next one -/

theorem above_eq_nil (hi : i ∈ items) (lowest : ∀ j ∈ items, j < i → level i ≤ level j) :
    above level items i = [] := by
  refine List.eq_nil_iff_forall_not_mem.mpr fun j hj => ?_
  obtain ⟨mem, less, below⟩ := mem_above.mp hj
  exact Int.not_lt.mpr (lowest j mem less) (below i hi less (Nat.le_refl i))

/-- **An item stands below the nearest earlier one at a smaller level and below what that stands below.** -/
theorem length_above_of_nearest (sorted : items.Pairwise (· < ·)) (hj : j ∈ items) (hi : i ∈ items) (less : j < i)
    (smaller : level j < level i) (between : ∀ m ∈ items, j < m → m < i → level i ≤ level m) :
    (above level items i).length = (above level items j).length + 1 := by
  have mem : j ∈ above level items i := by
    refine mem_above.mpr ⟨hj, less, fun m hm next upTo => ?_⟩
    rcases Nat.eq_or_lt_of_le upTo with rfl | within
    · exact smaller
    · exact Int.lt_of_lt_of_le smaller (between m hm next within)
  -- an item after `j` and above `i` would be at a smaller level than `i`, and nearer
  have innermost : ∀ x ∈ above level items i, (!decide (x < j)) = (x == j) := by
    intro x hx
    obtain ⟨hx, before, below⟩ := mem_above.mp hx
    have upTo : x ≤ j := Nat.not_lt.mp fun next =>
      Int.not_lt.mpr (between x hx next before) (below i hi before (Nat.le_refl i))
    rw [Bool.eq_iff_iff, Bool.not_eq_true', decide_eq_false_iff_not, beq_iff_eq]
    omega
  have once : (above level items i).count j = 1 :=
    List.count_eq_one_of_mem ((sorted.imp Nat.ne_of_lt).filter _) mem
  rw [List.length_eq_length_filter_add (fun x => decide (x < j)), ← above_of_mem_above mem,
    List.filter_congr innermost, List.filter_beq, List.length_replicate, once]

/-- What an item stands below is the item before it, or above that one too. -/
theorem length_above_succ_le (sorted : items.Pairwise (· < ·)) (i : Nat) :
    (above level items (i + 1)).length ≤ (above level items i).length + 1 := by
  have distinct : (above level items (i + 1)).Nodup := (sorted.imp Nat.ne_of_lt).filter _
  have among : above level items (i + 1) ⊆ i :: above level items i := by
    intro x hx
    obtain ⟨mem, before, below⟩ := mem_above.mp hx
    rcases Nat.eq_or_lt_of_le (Nat.le_of_lt_succ before) with rfl | less
    · exact List.mem_cons_self
    · refine List.mem_cons_of_mem i (mem_above.mpr ⟨mem, less, fun m hm next upTo => ?_⟩)
      exact below m hm next (Nat.le_succ_of_le upTo)
  exact (distinct.subperm among).length_le

/-- The compressed levels put every item below the same others. -/
theorem above_compressed (level : Nat → Int) (items : List Nat) (i : Nat) :
    above (fun j => ((above level items j).length : Int)) items i = above level items i := by
  refine List.filter_congr fun j hj => ?_
  have kept : j ∈ above level items i ↔ _ := mem_above_iff hj
  rw [mem_above] at kept
  rw [decide_eq_decide]
  simpa only [hj, true_and, Int.ofNat_lt] using kept.symm

/-! ## Lists of levels -/

variable {levels : List Int}

def levelAt (levels : List Int) (i : Nat) : Int :=
  levels.getD i 0

/-- Place `j` is the nearest before place `i` that is at a smaller level. -/
structure NearestSmaller (levels : List Int) (j i : Nat) : Prop where
  before : j < i
  smaller : levelAt levels j < levelAt levels i
  between : ∀ m, j < m → m < i → levelAt levels i ≤ levelAt levels m

/-- The number of earlier places that a place of a list stands below. -/
def compressedAt (levels : List Int) (i : Nat) : Nat :=
  (above (levelAt levels) (List.range levels.length) i).length

theorem map_levelAt (levels : List Int) : (List.range levels.length).map (levelAt levels) = levels := by
  apply List.ext_getElem
  · rw [List.length_map, List.length_range]
  · intro i h _
    rw [List.length_map, List.length_range] at h
    simp [levelAt, h]

theorem compressLevels_eq_compressedAt (levels : List Int) :
    compressLevels levels = (List.range levels.length).map (compressedAt levels) := by
  have counted : compressLevels ((List.range levels.length).map (levelAt levels)) = _ :=
    compressLevels_eq List.pairwise_lt_range
  rwa [map_levelAt] at counted

theorem length_compressLevels (levels : List Int) : (compressLevels levels).length = levels.length := by
  rw [compressLevels_eq_compressedAt, List.length_map, List.length_range]

theorem getElem?_compressLevels (h : i < levels.length) :
    (compressLevels levels)[i]? = some (compressedAt levels i) := by
  rw [compressLevels_eq_compressedAt, List.getElem?_map, List.getElem?_range h, Option.map_some]

/-! ## The rule and what follows from it -/

theorem compressedAt_eq_zero (h : i < levels.length) (lowest : ∀ j < i, levelAt levels i ≤ levelAt levels j) :
    compressedAt levels i = 0 := by
  rw [compressedAt, above_eq_nil (List.mem_range.mpr h) fun j _ => lowest j, List.length_nil]

theorem compressedAt_of_nearest (h : i < levels.length) (nearest : NearestSmaller levels j i) :
    compressedAt levels i = compressedAt levels j + 1 :=
  length_above_of_nearest List.pairwise_lt_range (List.mem_range.mpr (Nat.lt_trans nearest.before h))
    (List.mem_range.mpr h) nearest.before nearest.smaller fun m _ => nearest.between m

theorem head?_compressLevels {first : Nat} (h : first ∈ (compressLevels levels).head?) : first = 0 := by
  rw [List.head?_eq_getElem?] at h
  have nonempty : 0 < levels.length := by
    rw [← length_compressLevels]
    exact (List.getElem?_eq_some_iff.mp h).1
  rw [getElem?_compressLevels nonempty] at h
  obtain rfl := Option.some.inj h
  exact compressedAt_eq_zero nonempty fun j hj => absurd hj (Nat.not_lt_zero j)

theorem isChain_compressLevels (levels : List Int) : (compressLevels levels).IsChain fun x y => y ≤ x + 1 := by
  refine List.isChain_iff_getElem.mpr fun i h => ?_
  have next : i + 1 < levels.length := by rwa [length_compressLevels] at h
  rw [(List.getElem_eq_iff _).mpr (getElem?_compressLevels (Nat.lt_of_succ_lt next)),
    (List.getElem_eq_iff _).mpr (getElem?_compressLevels next)]
  exact length_above_succ_le List.pairwise_lt_range i

theorem compressLevels_compressLevels (levels : List Int) :
    compressLevels ((compressLevels levels).map Int.ofNat) = compressLevels levels := by
  rw [compressLevels_eq_compressedAt levels, List.map_map]
  refine (compressLevels_eq List.pairwise_lt_range).trans (List.map_congr_left fun i _ => ?_)
  exact congrArg List.length (above_compressed (levelAt levels) (List.range levels.length) i)

/-- **A compressed level is one more than that of the nearest earlier item at a smaller level**, and 0 if there is no
such item. So compressed levels start at 0 and rise by one at most, and compressing them leaves them as they are. -/
theorem compressLevels_nearest (levels : List Int) : (compressLevels levels).length = levels.length ∧
    (∀ i < levels.length,
      ((∀ j < i, levelAt levels i ≤ levelAt levels j) → (compressLevels levels)[i]? = some 0) ∧
      ∀ j, NearestSmaller levels j i → ∃ outer, (compressLevels levels)[j]? = some outer ∧
        (compressLevels levels)[i]? = some (outer + 1)) ∧
    (∀ first ∈ (compressLevels levels).head?, first = 0) ∧
    (compressLevels levels).IsChain (fun x y => y ≤ x + 1) ∧
    compressLevels ((compressLevels levels).map Int.ofNat) = compressLevels levels := by
  refine ⟨length_compressLevels levels, fun i h => ⟨fun lowest => ?_, fun j nearest => ?_⟩,
    fun first => head?_compressLevels, isChain_compressLevels levels, compressLevels_compressLevels levels⟩
  · rw [getElem?_compressLevels h, compressedAt_eq_zero h lowest]
  · refine ⟨compressedAt levels j, getElem?_compressLevels (Nat.lt_trans nearest.before h), ?_⟩
    rw [getElem?_compressLevels h, compressedAt_of_nearest h nearest]

/-- The nearest smaller level before the last one is the third, and before that there is none smaller. -/
theorem compressLevels_nearest_fallen : NearestSmaller [3, 9, -2, 5, 7, 7, 4] 2 6 ∧
    (∀ j < 2, levelAt [3, 9, -2, 5, 7, 7, 4] 2 ≤ levelAt [3, 9, -2, 5, 7, 7, 4] j) ∧
    (compressLevels [3, 9, -2, 5, 7, 7, 4])[6]? = some 1 := by
  have between : ∀ m < 6, 2 < m → levelAt [3, 9, -2, 5, 7, 7, 4] 6 ≤ levelAt [3, 9, -2, 5, 7, 7, 4] m := by decide
  have nearest : NearestSmaller [3, 9, -2, 5, 7, 7, 4] 2 6 :=
    ⟨by decide, by decide, fun m after before => between m before after⟩
  have lowest : ∀ j < 2, levelAt [3, 9, -2, 5, 7, 7, 4] 2 ≤ levelAt [3, 9, -2, 5, 7, 7, 4] j := by decide
  obtain ⟨-, rule, -⟩ := compressLevels_nearest [3, 9, -2, 5, 7, 7, 4]
  obtain ⟨outer, third, last⟩ := (rule 6 (by decide)).2 2 nearest
  rw [(rule 2 (by decide)).1 lowest] at third
  obtain rfl := Option.some.inj third
  exact ⟨nearest, lowest, last⟩

end SourceSurvey.Levels
