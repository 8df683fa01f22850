import Mathlib.Data.List.Basic
import SourceSurvey.Marking.Markings

/-!
# Markings laid over others

While a statement is walked through after others, the marks are those of the earlier statements with the
marks of this one laid over them, moved to its place (`Markings.overlay`). The nodes of interest, the
bindings and the components of the statement join the earlier ones. Nothing that is known inside the
statement leads out of it (`Markings.Enclosed`), so what is written to or read from the whole is written
to or read from the statement alone: `Mirrors` is kept by every basic write.
-/

namespace SourceSurvey

/-- The mark with its link `k` places further on. -/
def Mark.shift (k : Nat) (m : Mark) : Mark := { m with link := m.link.map (· + k) }

namespace Markings

variable {s : Markings} {i j k n : Nat} {f g : Mark → Mark}

/-! ## Writing a mark -/

theorem size_change : (s.change i f).marks.size = s.marks.size :=
  Array.size_modify

theorem mark_eq : s.mark j = s.marks[j]?.getD {} :=
  Array.getD_eq_getD_getElem?

theorem mark_change (hi : i < s.marks.size) :
    (s.change i f).mark j = if i = j then f (s.mark j) else s.mark j := by
  rw [mark_eq, mark_eq]
  show ((s.marks.modify i f)[j]?).getD {} = _
  rw [Array.getElem?_modify]
  split
  · next h =>
    subst h
    rw [Array.getElem?_eq_getElem hi]
    rfl
  · rfl

/-! ## Markings that keep to some nodes -/

/-- Everything that is known is known about the nodes `1` to `n`, and leads to them. -/
structure Enclosed (n : Nat) (s : Markings) : Prop where
  size : n < s.marks.size
  outside : ∀ i, i < 1 ∨ n < i → s.mark i = {}
  links : ∀ i j, (s.mark i).link = some j → 1 ≤ j ∧ j ≤ n
  attended : ∀ i ∈ s.attended, 1 ≤ i ∧ i ≤ n
  bindings : ∀ b ∈ s.bindings, 1 ≤ b.1 ∧ b.1 ≤ n
  components : ∀ i ∈ s.components, 1 ≤ i ∧ i ≤ n

theorem size_init (size : Nat) : (init size).marks.size = size :=
  Array.size_replicate

theorem lt_size_init (n : Nat) : 0 + n < (init (n + 1)).marks.size := by
  rw [size_init, Nat.zero_add]
  exact Nat.lt_succ_self n

theorem mark_init (size i : Nat) : (init size).mark i = {} := by
  rw [mark_eq]
  show (Array.replicate size ({} : Mark))[i]?.getD {} = {}
  rw [Array.getElem?_replicate]
  split <;> rfl

theorem enclosed_init {size : Nat} (h : n < size) : (init size).Enclosed n where
  size := by rwa [size_init]
  outside := fun i _ => mark_init size i
  links := by
    intro i j hij
    rw [mark_init] at hij
    cases hij
  attended := by
    intro i hi
    cases hi
  bindings := by
    intro b hb
    cases hb
  components := by
    intro i hi
    cases hi

theorem Enclosed.change (hs : s.Enclosed n) (h₁ : 1 ≤ i) (h₂ : i ≤ n)
    (hf : ∀ m j, (f m).link = some j → m.link = some j ∨ 1 ≤ j ∧ j ≤ n) : (s.change i f).Enclosed n where
  size := by
    rw [size_change]
    exact hs.size
  outside := by
    intro j hj
    rw [mark_change (Nat.lt_of_le_of_lt h₂ hs.size), if_neg (by omega), hs.outside j hj]
  links := by
    intro j l hl
    rw [mark_change (Nat.lt_of_le_of_lt h₂ hs.size)] at hl
    split at hl
    · rcases hf _ _ hl with h | h
      · exact hs.links j l h
      · exact h
    · exact hs.links j l hl
  attended := hs.attended
  bindings := hs.bindings
  components := hs.components

theorem Enclosed.attend (hs : s.Enclosed n) (h₁ : 1 ≤ i) (h₂ : i ≤ n) (category : Category)
    (note label : String) : (s.attend i category note label).Enclosed n := by
  have changed := hs.change (f := fun m => { m with category := some category, note, label }) h₁ h₂
    fun _ _ h => Or.inl h
  refine { changed with attended := ?_ }
  intro j hj
  simp only [Markings.attend] at hj
  split at hj
  · exact changed.attended j hj
  · rcases List.mem_cons.mp hj with rfl | hj
    · exact ⟨h₁, h₂⟩
    · exact changed.attended j hj

/-! ## Laying markings over others -/

/-- The markings of a statement laid over earlier ones, where the statement comes after `k` nodes. -/
def overlay (before : Markings) (k : Nat) (s : Markings) : Markings where
  marks := before.marks.mapIdx fun j m =>
    if k < j ∧ j < k + s.marks.size then (s.mark (j - k)).shift k else m
  attended := s.attended.map (· + k) ++ before.attended
  bindings := s.bindings.map (fun b => (b.1 + k, b.2)) ++ before.bindings
  components := before.components ++ s.components.map (· + k)

variable {before : Markings}

theorem size_overlay : (before.overlay k s).marks.size = before.marks.size := by
  rw [overlay, Array.size_mapIdx]

theorem mark_overlay : (before.overlay k s).mark j =
    if j < before.marks.size ∧ k < j ∧ j < k + s.marks.size then (s.mark (j - k)).shift k
    else before.mark j := by
  have at_j := mark_eq (s := before) (j := j)
  rw [mark_eq, overlay, Array.getElem?_mapIdx]
  by_cases hj : j < before.marks.size
  · rw [Array.getElem?_eq_getElem hj] at at_j ⊢
    simp only [at_j, hj, true_and, Option.map_some, Option.getD_some]
  · rw [Array.getElem?_eq_none (Nat.le_of_not_lt hj)] at at_j ⊢
    rw [if_neg (fun h => hj h.1), at_j]
    rfl

theorem overlay_change (h₁ : 1 ≤ i) (h₂ : i < s.marks.size) (hf : ∀ m, f (m.shift k) = (g m).shift k) :
    (before.overlay k s).change (i + k) f = before.overlay k (s.change i g) := by
  have marks : (before.overlay k s).marks.modify (i + k) f = (before.overlay k (s.change i g)).marks := by
    refine Array.ext (by simp [overlay]) ?_
    intro j hj hj'
    simp only [overlay, Array.getElem_modify, Array.getElem_mapIdx, size_change, mark_change h₂]
    -- node `i + k` of the whole is node `i` of the statement; every other node is left
    by_cases at_i : i + k = j
    · rw [if_pos at_i, if_pos (by omega), if_pos (by omega), if_pos (by omega), hf]
    · rw [if_neg at_i]
      split
      · rw [if_neg (by omega)]
      · rfl
  show Markings.mk _ _ _ _ = Markings.mk _ _ _ _
  rw [marks]
  rfl

theorem overlay_init (hb : before.Enclosed k) (size : Nat) : before.overlay k (init size) = before := by
  have marks : (before.overlay k (init size)).marks = before.marks := by
    refine Array.ext (by simp [overlay]) ?_
    intro j hj hj'
    simp only [overlay, Array.getElem_mapIdx, mark_init]
    split
    · next h =>
      have blank := hb.outside j (Or.inr h.1)
      rw [mark_eq, Array.getElem?_eq_getElem hj', Option.getD_some] at blank
      exact blank.symm
    · rfl
  show Markings.mk (before.overlay k (init size)).marks _ _ (before.components ++ []) = _
  rw [marks, List.append_nil]
  rfl

theorem bounds_map_add {l l' : List Nat} (hl : ∀ i ∈ l, 1 ≤ i ∧ i ≤ n) (hl' : ∀ i ∈ l', 1 ≤ i ∧ i ≤ k)
    (hi : i ∈ l.map (· + k) ∨ i ∈ l') : 1 ≤ i ∧ i ≤ k + n := by
  rcases hi with hi | hi
  · obtain ⟨j, hj, rfl⟩ := List.mem_map.mp hi
    have := hl j hj
    omega
  · have := hl' i hi
    omega

theorem Enclosed.overlay (hb : before.Enclosed k) (hs : s.Enclosed n) (room : k + n < before.marks.size) :
    (before.overlay k s).Enclosed (k + n) where
  size := by rwa [size_overlay]
  outside := by
    intro i hi
    rw [mark_overlay]
    split
    · rw [hs.outside (i - k) (by omega)]
      rfl
    · exact hb.outside i (by omega)
  links := by
    intro i j hij
    rw [mark_overlay] at hij
    split at hij
    · obtain ⟨l, hl, rfl⟩ := Option.map_eq_some_iff.mp hij
      have := hs.links (i - k) l hl
      omega
    · have := hb.links i j hij
      omega
  attended := fun _ hi => bounds_map_add hs.attended hb.attended (List.mem_append.mp hi)
  bindings := by
    intro b hb'
    rcases List.mem_append.mp hb' with hb' | hb'
    · obtain ⟨l, hl, rfl⟩ := List.mem_map.mp hb'
      have := hs.bindings l hl
      simp only
      omega
    · have := hb.bindings b hb'
      omega
  components := fun _ hi => bounds_map_add hs.components hb.components (List.mem_append.mp hi).symm

theorem pairwise_mergeSort (l : List Nat) : (l.mergeSort fun i j => decide (i ≤ j)).Pairwise (· ≤ ·) := by
  refine (List.pairwise_mergeSort ?_ ?_ l).imp of_decide_eq_true
  · intro a b c
    simp only [decide_eq_true_eq]
    exact Nat.le_trans
  · intro a b
    simp only [Bool.or_eq_true, decide_eq_true_eq]
    exact Nat.le_total a b

/-- Sorting the shifted numbers together with smaller ones sorts both apart. -/
theorem mergeSort_map_add {l l' : List Nat} (small : ∀ j ∈ l', j ≤ k) :
    (l.map (· + k) ++ l').mergeSort (fun i j => decide (i ≤ j)) =
      l'.mergeSort (fun i j => decide (i ≤ j)) ++
        (l.mergeSort fun i j => decide (i ≤ j)).map (· + k) := by
  refine List.Perm.eq_of_pairwise (fun _ _ _ _ => Nat.le_antisymm) (pairwise_mergeSort _) ?_ ?_
  · refine List.pairwise_append.mpr ⟨pairwise_mergeSort l', ?_, ?_⟩
    · exact (pairwise_mergeSort l).map _ fun _ _ h => Nat.add_le_add_right h k
    · intro i hi j hj
      obtain ⟨m, -, rfl⟩ := List.mem_map.mp hj
      have := small i (List.mem_mergeSort.mp hi)
      omega
  · refine (List.mergeSort_perm _ _).trans (List.perm_append_comm.trans ?_)
    exact (List.mergeSort_perm l' _).symm.append ((List.mergeSort_perm l _).symm.map _)

/-! ## Mirrored markings -/

/-- The markings `s` are `s'`, which keep to the nodes `1` to `n`, laid over earlier ones. -/
structure Mirrors (before : Markings) (k n : Nat) (s s' : Markings) : Prop where
  front : before.Enclosed k
  inside : s'.Enclosed n
  room : k + n < before.marks.size
  overlay : s = before.overlay k s'

theorem Enclosed.lookup_eq_none (hs : s.Enclosed n) (hi : i < 1 ∨ n < i) : s.bindings.lookup i = none := by
  refine List.lookup_eq_none_iff.mpr fun b hb => ?_
  have := hs.bindings b hb
  rw [bne_iff_ne]
  omega

theorem contains_map_add (l : List Nat) : (l.map (· + k)).contains (i + k) = l.contains i := by
  rw [Bool.eq_iff_iff, List.contains_iff_mem, List.contains_iff_mem, List.mem_map]
  exact ⟨fun ⟨j, hj, h⟩ => (Nat.add_right_cancel h) ▸ hj, fun hi => ⟨i, hi, rfl⟩⟩

theorem contains_eq_false {l : List Nat} (hl : ∀ j ∈ l, 1 ≤ j ∧ j ≤ k) (h₁ : 1 ≤ i) :
    l.contains (i + k) = false := by
  rw [← Bool.not_eq_true, List.contains_iff_mem]
  intro hi
  have := hl _ hi
  omega

def Mirrored (before : Markings) (k n : Nat) (r r' : Except MissingPattern Markings) : Prop :=
  ∃ s s', r = .ok s ∧ r' = .ok s' ∧ Mirrors before k n s s'

namespace Mirrors

variable {s' : Markings} (h : Mirrors before k n s s')

include h

theorem ok : Mirrored before k n (.ok s) (.ok s') :=
  ⟨s, s', rfl, rfl, h⟩

theorem mark (h₁ : 1 ≤ i) (h₂ : i ≤ n) : s.mark (i + k) = (s'.mark i).shift k := by
  have := h.inside.size
  have := h.room
  rw [h.overlay, mark_overlay, if_pos (by omega), Nat.add_sub_cancel]

theorem mark_zero : s.mark 0 = {} := by
  rw [h.overlay, mark_overlay, if_neg (by omega)]
  exact h.front.outside 0 (Or.inl Nat.one_pos)

theorem mark_zero' : s'.mark 0 = {} :=
  h.inside.outside 0 (Or.inl Nat.one_pos)

theorem change (h₁ : 1 ≤ i) (h₂ : i ≤ n) (hf : ∀ m, f (m.shift k) = (g m).shift k)
    (hl : ∀ m j, (g m).link = some j → m.link = some j ∨ 1 ≤ j ∧ j ≤ n) :
    Mirrors before k n (s.change (i + k) f) (s'.change i g) where
  front := h.front
  inside := h.inside.change h₁ h₂ hl
  room := h.room
  overlay := by rw [h.overlay, overlay_change h₁ (Nat.lt_of_le_of_lt h₂ h.inside.size) hf]

theorem link (h₁ : 1 ≤ i) (h₂ : i ≤ n) (hj : 1 ≤ j ∧ j ≤ n) :
    Mirrors before k n (s.change (i + k) fun m => { m with link := some (j + k) })
      (s'.change i fun m => { m with link := some j }) := by
  refine h.change h₁ h₂ (fun _ => rfl) fun _ l hl => Or.inr ?_
  obtain rfl := Option.some.inj hl
  exact hj

theorem path (h₁ : 1 ≤ i) (h₂ : i ≤ n) (path : Option String) :
    Mirrors before k n (s.change (i + k) fun m => { m with path }) (s'.change i fun m => { m with path }) :=
  h.change h₁ h₂ (fun _ => rfl) fun _ _ => Or.inl

theorem exported (h₁ : 1 ≤ i) (h₂ : i ≤ n) (exported : Bool) :
    Mirrors before k n (s.change (i + k) fun m => { m with exported })
      (s'.change i fun m => { m with exported }) :=
  h.change h₁ h₂ (fun _ => rfl) fun _ _ => Or.inl

theorem attend (h₁ : 1 ≤ i) (h₂ : i ≤ n) (category : Category) (note label : String) :
    Mirrors before k n (s.attend (i + k) category note label) (s'.attend i category note label) where
  front := h.front
  inside := h.inside.attend h₁ h₂ category note label
  room := h.room
  overlay := by
    have known : s.attended.contains (i + k) = s'.attended.contains i := by
      rw [h.overlay, Markings.overlay, List.contains_append, contains_map_add,
        contains_eq_false h.front.attended h₁, Bool.or_false]
    have changed : Mirrors before k n
        (s.change (i + k) fun m => { m with category := some category, note, label })
        (s'.change i fun m => { m with category := some category, note, label }) :=
      h.change h₁ h₂ (fun _ => rfl) fun _ _ => Or.inl
    show { s.change (i + k) _ with
      attended := if s.attended.contains (i + k) then s.attended else (i + k) :: s.attended } = _
    rw [known, changed.overlay, h.overlay]
    show _ = before.overlay k { s'.change i _ with
      attended := if s'.attended.contains i then s'.attended else i :: s'.attended }
    split
    · rfl
    · rfl

theorem lookup (h₁ : 1 ≤ i) : s.bindings.lookup (i + k) = s'.bindings.lookup i := by
  have same (b : Nat × Binding) : (i + k == b.1 + k) = (i == b.1) := by
    rw [Bool.eq_iff_iff, beq_iff_eq, beq_iff_eq, Nat.add_right_cancel_iff]
  rw [h.overlay, Markings.overlay, List.lookup_append, h.front.lookup_eq_none (by omega), Option.or_none,
    List.lookup_eq_findSome?, List.findSome?_map, List.lookup_eq_findSome?]
  simp only [Function.comp_def, same]

theorem lookup_zero : s.bindings.lookup 0 = none := by
  have enclosed := h.front.overlay h.inside h.room
  rw [h.overlay]
  exact enclosed.lookup_eq_none (by omega)

theorem lookup_zero' : s'.bindings.lookup 0 = none :=
  h.inside.lookup_eq_none (by omega)

theorem bind (h₁ : 1 ≤ i) (h₂ : i ≤ n) (b : Binding) :
    Mirrors before k n { s with bindings := (i + k, b) :: s.bindings }
      { s' with bindings := (i, b) :: s'.bindings } where
  front := h.front
  inside := by
    refine { h.inside with bindings := ?_ }
    intro b' hb'
    rcases List.mem_cons.mp hb' with rfl | hb'
    · exact ⟨h₁, h₂⟩
    · exact h.inside.bindings b' hb'
  room := h.room
  overlay := by
    rw [h.overlay]
    rfl

theorem addComponent (h₁ : 1 ≤ i) (h₂ : i ≤ n) :
    Mirrors before k n
      { s with components := if s.components.contains (i + k) then s.components
          else s.components ++ [i + k] }
      { s' with components := if s'.components.contains i then s'.components
          else s'.components ++ [i] } where
  front := h.front
  inside := by
    refine { h.inside with components := ?_ }
    intro j hj
    simp only at hj
    split at hj
    · exact h.inside.components j hj
    · rcases List.mem_append.mp hj with hj | hj
      · exact h.inside.components j hj
      · obtain rfl := List.mem_singleton.mp hj
        exact ⟨h₁, h₂⟩
  room := h.room
  overlay := by
    have known : s.components.contains (i + k) = s'.components.contains i := by
      rw [h.overlay, Markings.overlay, List.contains_append, contains_map_add,
        contains_eq_false h.front.components h₁, Bool.false_or]
    rw [known, h.overlay]
    split
    · rfl
    · have last : (before.overlay k s').components ++ [i + k] =
          before.components ++ (s'.components ++ [i]).map (· + k) := by
        rw [Markings.overlay, List.append_assoc, List.map_append, List.map_singleton]
      rw [last]
      rfl

/-- **The nodes of interest come in order, so those of the statement come after the earlier ones.** -/
theorem attention : s.attention = before.attention ++ s'.attention.map (· + k) := by
  have earlier : ∀ i ∈ before.attended.mergeSort (fun i j => decide (i ≤ j)),
      (s.mark i).label = (before.mark i).label := by
    intro i hi
    have bounds := h.front.attended i (List.mem_mergeSort.mp hi)
    rw [h.overlay, mark_overlay, if_neg (by omega)]
  have own : ∀ i ∈ s'.attended.mergeSort (fun i j => decide (i ≤ j)),
      (s.mark (i + k)).label = (s'.mark i).label := by
    intro i hi
    have bounds := h.inside.attended i (List.mem_mergeSort.mp hi)
    rw [h.mark bounds.1 bounds.2]
    rfl
  have order : s.attended.mergeSort (fun i j => decide (i ≤ j)) =
      before.attended.mergeSort (fun i j => decide (i ≤ j)) ++
        (s'.attended.mergeSort fun i j => decide (i ≤ j)).map (· + k) := by
    rw [h.overlay]
    exact mergeSort_map_add fun j hj => (h.front.attended j hj).2
  rw [Markings.attention, Markings.attention, Markings.attention, order, List.filter_append,
    List.filter_map]
  congr 1
  · exact List.filter_congr fun i hi => by rw [earlier i hi]
  · exact congrArg _ (List.filter_congr fun i hi => by rw [Function.comp_apply, own i hi])

end Mirrors

end Markings

end SourceSurvey
