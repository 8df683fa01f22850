import SourceSurvey.Text.Utf8

/-!
# Characters before a byte offset
-/

namespace SourceSurvey.Text.Utf8

variable {b : UInt8} {c : Char} {l : List Char} {n : Nat}

theorem le_of_mem_utf8EncodeChar (hc : 0x7F < c.toNat) (h : b ∈ String.utf8EncodeChar c) : 0x80 ≤ b.toNat := by
  have high : ∀ m k : Nat, 0x80 ≤ k → m + k < 0x100 → 0x80 ≤ (UInt8.ofNat (m + k)).toNat := by
    intro m k hk fits
    rw [UInt8.toNat_ofNat', Nat.mod_eq_of_lt fits]
    exact Nat.le_trans hk (Nat.le_add_left k m)
  have several : ¬ c.val.toNat ≤ 0x7F := Nat.not_le.mpr hc
  rw [String.utf8EncodeChar, if_neg several] at h
  split at h
  · simp only [List.mem_cons, List.not_mem_nil, or_false] at h
    rcases h with rfl | rfl <;> exact high _ _ (by decide) (by omega)
  · split at h
    · simp only [List.mem_cons, List.not_mem_nil, or_false] at h
      rcases h with rfl | rfl | rfl <;> exact high _ _ (by decide) (by omega)
    · simp only [List.mem_cons, List.not_mem_nil, or_false] at h
      rcases h with rfl | rfl | rfl | rfl <;> exact high _ _ (by decide) (by omega)

/-- How many characters end at or before a byte offset. -/
def charsBefore : List Char → Nat → Nat
  | [], _ => 0
  | c :: rest, n => if c.utf8Size ≤ n then charsBefore rest (n - c.utf8Size) + 1 else 0

theorem charsBefore_le (l : List Char) (n : Nat) : charsBefore l n ≤ l.length := by
  induction l generalizing n with
  | nil => exact Nat.le_refl 0
  | cons c rest ih =>
      rw [charsBefore]
      split
      · exact Nat.succ_le_succ (ih _)
      · exact Nat.zero_le _

theorem utf8EncodeChar_ascii (hc : c.toNat ≤ 0x7F) : String.utf8EncodeChar c = [UInt8.ofNat c.toNat] := by
  rw [String.utf8EncodeChar]
  exact if_pos hc

theorem count_utf8EncodeChar (c : Char) : (String.utf8EncodeChar c).count 0x0A = [c].count '\n' := by
  by_cases hc : c.toNat ≤ 0x7F
  · rw [utf8EncodeChar_ascii hc, List.count_singleton, List.count_singleton]
    have same : (UInt8.ofNat c.toNat == 0x0A) = (c == '\n') := by
      rw [Bool.eq_iff_iff, beq_iff_eq, beq_iff_eq, ← UInt8.toNat_inj, UInt8.toNat_ofNat',
        Nat.mod_eq_of_lt (by omega), ← Char.toNat_inj]
      rfl
    rw [same]
  · have none : (0x0A : UInt8) ∉ String.utf8EncodeChar c := by
      intro h
      exact absurd (le_of_mem_utf8EncodeChar (Nat.not_le.mp hc) h) (by decide)
    have other : '\n' ∉ [c] := by
      rw [List.mem_singleton]
      rintro rfl
      exact hc (by decide)
    rw [List.count_eq_zero_of_not_mem none, List.count_eq_zero_of_not_mem other]

theorem count_take_utf8EncodeChar (hn : n < c.utf8Size) : ((String.utf8EncodeChar c).take n).count 0x0A = 0 := by
  by_cases hc : c.toNat ≤ 0x7F
  · have one : c.utf8Size = 1 := Char.utf8Size_eq_one_iff.mpr hc
    obtain rfl : n = 0 := by omega
    rfl
  · rw [List.count_eq_zero]
    intro h
    exact absurd (le_of_mem_utf8EncodeChar (Nat.not_le.mp hc) (List.mem_of_mem_take h)) (by decide)

/-- **The line feeds among the bytes before an offset are those of the characters before it.** -/
theorem count_take_encode (s : String) (n : Nat) :
    ((encode s).take n).count 0x0A = (s.toList.take (charsBefore s.toList n)).count '\n' := by
  rw [encode]
  induction s.toList generalizing n with
  | nil => simp
  | cons c rest ih =>
      rw [List.flatMap_cons, charsBefore, List.take_append, List.count_append, String.length_utf8EncodeChar]
      split
      · next fits =>
        have whole : (String.utf8EncodeChar c).take n = String.utf8EncodeChar c :=
          List.take_of_length_le (by rwa [String.length_utf8EncodeChar])
        rw [whole, ih, count_utf8EncodeChar, ← List.count_append]
        rfl
      · next cut =>
        rw [count_take_utf8EncodeChar (Nat.not_le.mp cut), Nat.sub_eq_zero_of_le (Nat.le_of_not_le cut)]
        rfl

end SourceSurvey.Text.Utf8
