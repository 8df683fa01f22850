import Mathlib.Data.Set.Card
import SourceSurvey.Proofs.Tree.Constructs

/-!
# How deep constructs are nested

A construct is open at a place in a node list if it opens before and does not close before it. The level of
the place is the number of constructs that are open there. Passing an opening end raises the level by one,
passing a closing end lowers it by one, and nothing else changes it. As constructs are nested, just the same
ones are open before a construct as after it (`Construct.openBefore_eq`).
-/

namespace SourceSurvey

namespace Arena

/-- The opening ends of the constructs that are open before node `k`. -/
def openBefore (a : Arena) (k : Nat) : Set Nat :=
  { i | i < k ∧ ∃ host j, a.Construct host i j ∧ k ≤ j }

noncomputable def level (a : Arena) (k : Nat) : Nat := (a.openBefore k).ncard

theorem finite_openBefore (a : Arena) (k : Nat) : (a.openBefore k).Finite :=
  (Set.finite_lt_nat k).subset fun _ h => h.1

theorem level_zero (a : Arena) : a.level 0 = 0 := by
  rw [level, Set.ncard_eq_zero (a.finite_openBefore 0), Set.eq_empty_iff_forall_notMem]
  rintro i ⟨before, -⟩
  exact Nat.not_lt_zero i before

variable {nodes : List FlatNode} {host i j k k' : Nat} (bracketed : (ofNodes nodes).Bracketed)

theorem Delimits.not_both {host' : Nat} (d : (ofNodes nodes).Delimits .opening host i)
    (d' : (ofNodes nodes).Delimits .closing host' i) : False := by
  cases (d.same_host d').1

theorem level_succ_of_other (other : ∀ side host, ¬ (ofNodes nodes).Delimits side host k) :
    (ofNodes nodes).level (k + 1) = (ofNodes nodes).level k := by
  refine congrArg Set.ncard (Set.ext fun i => ?_)
  constructor
  · rintro ⟨before, host, j, c, after⟩
    refine ⟨Nat.lt_of_le_of_ne (Nat.le_of_lt_succ before) ?_, host, j, c, Nat.le_of_lt after⟩
    rintro rfl
    exact other _ _ c.1
  · rintro ⟨before, host, j, c, after⟩
    refine ⟨Nat.lt_succ_of_lt before, host, j, c, Nat.lt_of_le_of_ne after ?_⟩
    rintro rfl
    exact other _ _ c.2

theorem level_eq_of_silent (le : k ≤ k')
    (silent : ∀ m, k ≤ m → m < k' → ∀ side host, ¬ (ofNodes nodes).Delimits side host m) :
    (ofNodes nodes).level k' = (ofNodes nodes).level k := by
  induction k', le using Nat.le_induction with
  | base => rfl
  | succ m le ih =>
      rw [level_succ_of_other (silent m le (Nat.lt_succ_self m))]
      exact ih fun x hk hx => silent x hk (Nat.lt_succ_of_lt hx)

include bracketed

/-- **Passing an opening end raises the level by one.** -/
theorem level_succ_of_opening (d : (ofNodes nodes).Delimits .opening host k) :
    (ofNodes nodes).level (k + 1) = (ofNodes nodes).level k + 1 := by
  have opened : (ofNodes nodes).openBefore (k + 1) = insert k ((ofNodes nodes).openBefore k) := by
    apply Set.ext
    intro i
    constructor
    · rintro ⟨before, host', j, c, after⟩
      rcases Nat.lt_or_eq_of_le (Nat.le_of_lt_succ before) with less | rfl
      · exact Or.inr ⟨less, host', j, c, Nat.le_of_lt after⟩
      · exact Or.inl rfl
    · rintro (rfl | ⟨before, host', j, c, after⟩)
      · obtain ⟨l, r, less, c⟩ := d.exists_construct bracketed
        obtain rfl := d.unique bracketed c.1
        exact ⟨Nat.lt_succ_self i, host, r, c, less⟩
      · refine ⟨Nat.lt_succ_of_lt before, host', j, c, Nat.lt_of_le_of_ne after ?_⟩
        rintro rfl
        exact d.not_both c.2
  rw [level, opened, Set.ncard_insert_of_notMem _ ((ofNodes nodes).finite_openBefore k)]
  · rfl
  · rintro ⟨before, -⟩
    exact Nat.lt_irrefl k before

/-- **Passing a closing end lowers the level by one.** -/
theorem level_of_closing (d : (ofNodes nodes).Delimits .closing host k) :
    (ofNodes nodes).level (k + 1) + 1 = (ofNodes nodes).level k := by
  obtain ⟨l, r, less, c⟩ := d.exists_construct bracketed
  obtain rfl := d.unique bracketed c.2
  have pending : l ∈ (ofNodes nodes).openBefore k := ⟨less, host, k, c, Nat.le_refl k⟩
  have closed : (ofNodes nodes).openBefore (k + 1) = (ofNodes nodes).openBefore k \ {l} := by
    apply Set.ext
    intro i
    constructor
    · rintro ⟨before, host', j, c', after⟩
      refine ⟨⟨Nat.lt_of_le_of_ne (Nat.le_of_lt_succ before) ?_, host', j, c', Nat.le_of_lt after⟩, ?_⟩
      · rintro rfl
        exact c'.1.not_both d
      · -- the construct of `l` closes at `k`, not later
        rintro rfl
        obtain ⟨-, rfl⟩ := c.1.same_host c'.1
        obtain rfl := d.unique bracketed c'.2
        exact Nat.lt_irrefl k after
    · rintro ⟨⟨before, host', j, c', after⟩, other⟩
      refine ⟨Nat.lt_succ_of_lt before, host', j, c', Nat.lt_of_le_of_ne after ?_⟩
      rintro rfl
      obtain ⟨-, rfl⟩ := d.same_host c'.2
      exact other (c'.1.unique bracketed c.1)
  rw [level, closed]
  exact Set.ncard_sdiff_singleton_add_one pending ((ofNodes nodes).finite_openBefore k)

/-- **The same constructs are open before a construct and after it.** -/
theorem Construct.openBefore_eq (c : (ofNodes nodes).Construct host i j) :
    (ofNodes nodes).openBefore (j + 1) = (ofNodes nodes).openBefore i := by
  have less := c.lt bracketed
  apply Set.ext
  intro x
  constructor
  · rintro ⟨before, host', y, c', after⟩
    refine ⟨?_, host', y, c', Nat.le_trans (Nat.le_of_lt less) (Nat.le_of_lt after)⟩
    rcases Nat.lt_trichotomy x i with first | rfl | later
    · exact first
    · obtain ⟨-, rfl⟩ := c.1.same_host c'.1
      obtain rfl := c.2.unique bracketed c'.2
      exact absurd after (Nat.lt_irrefl j)
    · -- what opens between the ends closes there
      have inside : x < j := by
        refine Nat.lt_of_le_of_ne (Nat.le_of_lt_succ before) ?_
        rintro rfl
        exact c'.1.not_both c.2
      exact absurd (c.apart bracketed c' later inside) (Nat.not_lt_of_lt after)
  · rintro ⟨before, host', y, c', after⟩
    refine ⟨Nat.lt_succ_of_lt (Nat.lt_trans before less), host', y, c', ?_⟩
    have beyond : i < y := by
      refine Nat.lt_of_le_of_ne after ?_
      rintro rfl
      exact c.1.not_both c'.2
    exact c'.apart bracketed c before beyond

end Arena

end SourceSurvey
