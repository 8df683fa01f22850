import SourceSurvey.Proofs.Tree.Chain

/-!
# Texts without blanks

A text is solid if it holds no blank. Solid texts are put together to solid texts, so an access chain is
solid as soon as the dots in it are (`Arena.isSolid_chainText`): names and indices are freed of blanks where
they are taken over, and all else in a chain is punctuation.
-/

namespace SourceSurvey

namespace Text

def IsSolid (s : String) : Prop := s.toList.any isBlank = false

instance (s : String) : Decidable (IsSolid s) := inferInstanceAs (Decidable (_ = false))

theorem isSolid_iff {s : String} : IsSolid s ↔ ∀ c ∈ s.toList, isBlank c = false := by
  rw [IsSolid, List.any_eq_false]
  exact forall₂_congr fun c _ => by rw [Bool.not_eq_true]

variable {s t : String}

theorem IsSolid.append (hs : IsSolid s) (ht : IsSolid t) : IsSolid (s ++ t) := by
  rw [IsSolid, String.toList_append, List.any_append, hs, ht]
  rfl

theorem isSolid_join {parts : List String} (h : ∀ p ∈ parts, IsSolid p) : IsSolid (String.join parts) := by
  rw [isSolid_iff, String.toList_join]
  intro c hc
  obtain ⟨p, hp, mem⟩ := List.mem_flatMap.mp hc
  exact isSolid_iff.mp (h p hp) c mem

theorem isSolid_compact (s : String) : IsSolid (compact s) := by
  rw [isSolid_iff, toList_compact]
  intro c hc
  exact (Bool.not_eq_true' _).mp (List.mem_filter.mp hc).2

theorem IsSolid.dropWhile (h : IsSolid s) (p : Char → Bool) :
    IsSolid (String.ofList (s.toList.dropWhile p)) := by
  rw [isSolid_iff, String.toList_ofList]
  intro c hc
  exact isSolid_iff.mp h c ((List.dropWhile_sublist p).subset hc)

theorem isSolid_toString (n : Nat) : IsSolid (toString n) := by
  rw [isSolid_iff]
  intro c hc
  have digit : c.isDigit = true := by
    rw [Nat.toString_eq_repr, Nat.repr, String.toList_ofList] at hc
    exact Nat.isDigit_of_mem_toDigits (by decide) (by decide) hc
  have range := Bool.and_eq_true_iff.mp digit
  have low : 48 ≤ c.toNat := of_decide_eq_true range.1
  have high : c.toNat ≤ 57 := of_decide_eq_true range.2
  simp only [isBlank, Bool.or_eq_false_iff, Bool.and_eq_false_iff, decide_eq_false_iff_not, beq_eq_false_iff_ne]
  omega

end Text

/-! ## Access chains -/

namespace Arena

open Text

variable {a : Arena} {i : Nat}

/-- **A chain of solid parts is solid.** -/
theorem isSolid_chainStep {chain : Nat → String} (dots : ∀ j, a.kind j ∈ dotKinds → IsSolid (a.text j))
    (inner : ∀ j ∈ a.children i, IsSolid (chain j)) : IsSolid (a.chainStep chain i) := by
  have found {p : Nat → Bool} {j : Nat} (h : (a.children i).find? p = some j) : IsSolid (chain j) :=
    inner j (List.mem_of_find?_eq_some h)
  unfold chainStep
  split
  · refine isSolid_join ?_
    intro part hp
    obtain ⟨j, hj, rfl⟩ := List.mem_map.mp hp
    split
    · next dot => exact dots j (List.contains_iff_mem.mp dot)
    · exact inner j hj
  split
  · split
    · next callee h => exact (found h).append (by decide)
    · decide
  split
  · split
    · next object h =>
      refine (((found h).append (by decide)).append ?_).append (by decide)
      split
      · exact isSolid_compact _
      · decide
    · decide
  split
  · split
    · next inside h => exact (IsSolid.append (by decide) (found h)).append (by decide)
    · decide
  split
  · split
    · next inside h => exact (found h).append (by decide)
    · decide
  split
  · exact isSolid_compact _
  · decide

/-- **An access chain holds no blank if its dots hold none.** -/
theorem isSolid_chainText (dots : ∀ j, a.kind j ∈ dotKinds → IsSolid (a.text j)) (i : Nat) :
    IsSolid (a.chainText i) := by
  -- children come later, so the induction is on the number of nodes that are left
  induction left : a.size - i using Nat.strongRecOn generalizing i with
  | ind n ih =>
      by_cases present : i < a.size
      · rw [chainText_eq_chainStep present]
        refine isSolid_chainStep dots fun j hj => ?_
        have later := lt_of_mem_children hj
        exact ih (a.size - j) (by omega) j rfl
      · rw [chainText, if_neg present]
        decide

end Arena

end SourceSurvey
