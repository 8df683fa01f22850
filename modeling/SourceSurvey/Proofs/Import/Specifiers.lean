import SourceSurvey.Import.Specifiers

/-!
# Specifiers are never empty

However a form leads to its specifier, in the end it is quoted, and between the quotes there is at least
one character (`ne_empty_of_mem_specifiers`).
-/

namespace SourceSurvey

namespace ImportForm

variable {l : List Char} {s : Specifier}

theorem chars_quoted? (h : quoted? l = some s) : s.chars ≠ [] := by
  unfold quoted? at h
  split at h
  · next q l =>
    dsimp only at h
    split at h
    · split at h
      · next all =>
        cases h
        simp only [Bool.and_eq_true, Bool.not_eq_true', List.isEmpty_eq_false_iff] at all
        exact all.2
      · cases h
    · cases h
  · cases h

theorem chars_fromQuoted? (h : fromQuoted? l = some s) : s.chars ≠ [] := by
  obtain ⟨rest, -, quoted⟩ := Option.bind_eq_some_iff.mp h
  exact chars_quoted? quoted

theorem chars_clause? (h : clause? l = some s) : s.chars ≠ [] := by
  unfold clause? at h
  dsimp only at h
  split at h
  · exact chars_quoted? h
  · cases h

theorem chars_renamed? (h : renamed? l = some s) : s.chars ≠ [] := by
  obtain ⟨l₁, -, h⟩ := Option.bind_eq_some_iff.mp h
  obtain ⟨l₂, -, h⟩ := Option.bind_eq_some_iff.mp h
  obtain ⟨l₃, -, h⟩ := Option.bind_eq_some_iff.mp h
  dsimp only at h
  split at h
  · cases h
  split at h
  · next found =>
    cases h
    exact chars_fromQuoted? found
  split at h
  · exact chars_quoted? h
  · cases h

theorem chars_reexport? (h : reexport? l = some s) : s.chars ≠ [] := by
  unfold reexport? at h
  split at h
  · split at h
    · next found =>
      cases h
      exact chars_renamed? found
    · exact chars_fromQuoted? h
  · split at h
    · exact chars_fromQuoted? h
    · cases h
  · cases h

theorem chars_parenthesized? (h : parenthesized? l = some s) : s.chars ≠ [] := by
  unfold parenthesized? at h
  split at h
  · obtain ⟨inner, quoted, h⟩ := Option.bind_eq_some_iff.mp h
    have some_char := chars_quoted? quoted
    split at h
    · cases h
      exact some_char
    · cases h
  · cases h

theorem chars_read? {form : ImportForm} (h : form.read? l = some s) : s.chars ≠ [] := by
  obtain ⟨rest, -, h⟩ := Option.bind_eq_some_iff.mp h
  cases form with
  | clause => exact chars_clause? h
  | effect => exact chars_quoted? h
  | reexport => exact chars_reexport? h
  | require | dynamic => exact chars_parenthesized? h

theorem ne_empty_of_mem_findFrom {form : ImportForm} {offset : Nat} {boundary : Bool} {found : Nat × String}
    (h : found ∈ form.findFrom offset boundary l) : found.2 ≠ "" := by
  fun_induction findFrom form offset boundary l with
  | case1 => cases h
  | case2 offset boundary c l s read length skipped ih =>
      rcases List.mem_cons.mp h with rfl | h
      · have chars : s.chars ≠ [] := by
          split at read
          · exact chars_read? read
          · cases read
        intro empty
        exact chars (String.ofList_eq_empty_iff.mp empty)
      · exact ih h
  | case3 offset boundary c l _ ih => exact ih h

end ImportForm

theorem mem_of_mem_eraseDupsBy {α : Type} {r : α → α → Bool} {a : α} {l : List α}
    (h : a ∈ l.eraseDupsBy r) : a ∈ l := by
  have loop : ∀ (l kept : List α), a ∈ List.eraseDupsBy.loop r l kept → a ∈ l ∨ a ∈ kept := by
    intro l
    induction l with
    | nil =>
        intro kept h
        exact Or.inr (List.mem_reverse.mp h)
    | cons b rest ih =>
        intro kept h
        rw [List.eraseDupsBy.loop] at h
        split at h
        · exact (ih kept h).imp_left (List.mem_cons_of_mem b)
        · rcases ih (b :: kept) h with h | h
          · exact Or.inl (List.mem_cons_of_mem b h)
          · rcases List.mem_cons.mp h with rfl | h
            · exact Or.inl List.mem_cons_self
            · exact Or.inr h
  exact (loop l [] h).resolve_right List.not_mem_nil

theorem ne_empty_of_mem_specifiers {source specifier : String} (h : specifier ∈ specifiers source) :
    specifier ≠ "" := by
  obtain ⟨found, mem, rfl⟩ := List.mem_map.mp h
  rw [locateSpecifiers, List.mem_mergeSort] at mem
  obtain ⟨form, -, read⟩ := List.mem_flatMap.mp (mem_of_mem_eraseDupsBy mem)
  exact ImportForm.ne_empty_of_mem_findFrom read

end SourceSurvey
