import SourceSurvey.Proofs.Marking.Inner
import SourceSurvey.Proofs.Marking.Overlay

/-!
# What an action reads

An action on a node of a statement reads marks, bindings and texts of that statement. They are the same
where the statement stands among others and where it stands alone. The root of the program is the one node
outside that an action can come to see; it is never marked and never bound, so an action that asks about
it learns nothing.
-/

namespace SourceSurvey

/-! ## Looking outwards -/

/-- What is `j` steps outwards: a node of the statement, the root, or nothing, and the same in both
places. -/
theorem Trail.outward?_cases (t : Trail) (root root' : Ancestor) (k j : Nat) :
    (∃ x ∈ t.nodes, j < t.nodes.length ∧ (t.below root').outward? j = some x ∧
      ((t.shift k).below root).outward? j = some (x.shift k)) ∨
    (j = t.nodes.length ∧ (t.below root').outward? j = some root' ∧
      ((t.shift k).below root).outward? j = some root) ∨
    (t.nodes.length < j ∧ (t.below root').outward? j = none ∧
      ((t.shift k).below root).outward? j = none) := by
  have length : (t.shift k).nodes.length = t.nodes.length := List.length_map _
  rw [outward?_below, outward?_below, length, outward?_shift]
  rcases Nat.lt_trichotomy j t.nodes.length with h | h | h
  · refine Or.inl ⟨t.nodes[j], List.getElem_mem h, h, ?_, ?_⟩
    · rw [if_pos h]
      exact List.getElem?_eq_getElem h
    · rw [if_pos h, outward?, List.getElem?_eq_getElem h]
      rfl
  · refine Or.inr (Or.inl ⟨h, ?_, ?_⟩)
    · rw [if_neg (by omega), if_pos h]
    · rw [if_neg (by omega), if_pos h]
  · refine Or.inr (Or.inr ⟨h, ?_, ?_⟩)
    · rw [if_neg (by omega), if_neg (by omega)]
    · rw [if_neg (by omega), if_neg (by omega)]

namespace Markings.Mirrors

variable {before s s' : Markings} {k n : Nat} (m : Mirrors before k n s s') {root root' : Ancestor}
  (hr : root.IsRoot) (hr' : root'.IsRoot)

include m hr hr'

theorem isExported {t : Trail} (ht : t.Inside n) (steps : Nat) :
    s.isExported ((t.shift k).below root) steps = s'.isExported (t.below root') steps := by
  have same (x : Ancestor) (hx : x ∈ t.nodes) :
      (s.mark (x.shift k).index).exported = (s'.mark x.index).exported := by
    have bounds := ht.bounds x hx
    rw [Ancestor.index_shift, m.mark bounds.1 bounds.2]
    rfl
  unfold Markings.isExported
  rcases t.outward?_cases root root' k steps with ⟨x, hx, -, alone, placed⟩ | ⟨h, alone, placed⟩ |
    ⟨-, alone, placed⟩
  · simp only [alone, placed, same x hx]
    congr 1
    rcases t.outward?_cases root root' k (steps + 1) with ⟨y, hy, -, alone, placed⟩ | ⟨-, alone, placed⟩ |
      ⟨-, alone, placed⟩
    · simp only [alone, placed, same y hy]
      rfl
    · simp only [alone, placed, hr.kind, hr'.kind]
      rfl
    · simp only [alone, placed]
  · -- the statement is the root itself, and there is nothing around it
    rcases t.outward?_cases root root' k (steps + 1) with ⟨y, hy, further, -⟩ | ⟨further, -⟩ |
      ⟨-, beyond, beyond'⟩
    · omega
    · omega
    · simp only [alone, placed, beyond, beyond', hr.index, hr'.index, m.mark_zero, m.mark_zero']
  · simp only [alone, placed]

omit hr in
theorem lt_of_isExported {t : Trail} {steps : Nat} (exported : s'.isExported (t.below root') steps = true) :
    steps < t.nodes.length := by
  unfold Markings.isExported at exported
  rcases t.outward?_cases root' root' 0 steps with ⟨x, -, inner, -⟩ | ⟨h, alone, -⟩ | ⟨-, alone, -⟩
  · exact inner
  · rcases t.outward?_cases root' root' 0 (steps + 1) with ⟨y, -, further, -⟩ | ⟨further, -⟩ |
      ⟨-, beyond, -⟩
    · omega
    · omega
    · simp only [alone, beyond, hr'.index, m.mark_zero', Bool.or_false, Bool.false_eq_true] at exported
  · simp only [alone, Bool.false_eq_true] at exported

omit hr hr' in
theorem foldl_exported {xs : List Ancestor} (hx : ∀ x ∈ xs, 1 ≤ x.index ∧ x.index ≤ n) :
    Mirrors before k n
      ((xs.map (Ancestor.shift k)).foldl (fun s x => s.change x.index fun m => { m with exported := true }) s)
      (xs.foldl (fun s x => s.change x.index fun m => { m with exported := true }) s') := by
  induction xs generalizing s s' with
  | nil => exact m
  | cons x rest ih =>
      have bounds := hx x List.mem_cons_self
      refine ih (m.exported bounds.1 bounds.2 true) ?_
      intro y hy
      exact hx y (List.mem_cons_of_mem x hy)

theorem hostName? {nodes : List Ancestor} (hx : ∀ x ∈ nodes, 1 ≤ x.index ∧ x.index ≤ n) :
    s.hostName? (nodes.map (Ancestor.shift k) ++ [root]) =
      (s'.hostName? (nodes ++ [root'])).map (· + k) := by
  have named : namedHosts.contains "program" = false := by decide
  have nameless : namelessHosts.contains "program" = false := by decide
  have link (x : Ancestor) (bounds : 1 ≤ x.index ∧ x.index ≤ n) :
      (s.mark (x.shift k).index).link = (s'.mark x.index).link.map (· + k) := by
    rw [Ancestor.index_shift, m.mark bounds.1 bounds.2]
    rfl
  induction nodes with
  | nil =>
      simp only [List.map_nil, List.nil_append, Markings.hostName?, hr.kind, hr'.kind, named, nameless,
        Bool.false_eq_true, if_false, Option.map_none]
  | cons x rest ih =>
      have later := ih fun y hy => hx y (List.mem_cons_of_mem x hy)
      simp only [List.map_cons, List.cons_append, Markings.hostName?, Ancestor.kind_shift]
      split
      · exact link x (hx x List.mem_cons_self)
      split
      · cases rest with
        | nil =>
            simp only [List.map_nil, List.nil_append, hr.kind, hr'.kind]
            rfl
        | cons y outer =>
            simp only [List.map_cons, List.cons_append, Ancestor.kind_shift]
            split
            · exact link y (hx y (List.mem_cons_of_mem x List.mem_cons_self))
            · rfl
      · exact later

end Markings.Mirrors

theorem Markings.exists_link_of_hostName? {s : Markings} {nodes : List Ancestor} {j : Nat}
    (h : s.hostName? nodes = some j) : ∃ i, (s.mark i).link = some j := by
  fun_induction Markings.hostName? s nodes with
  | case1 => cases h
  | case2 host outer named => exact ⟨host.index, h⟩
  | case3 host named nameless declarator outer kind => exact ⟨declarator.index, h⟩
  | case4 => cases h
  | case5 => cases h
  | case6 host outer named nameless ih => exact ih h

/-! ## Texts that actions read -/

namespace Placed

variable {a a' : Arena} {k n i : Nat} (h : Placed a a' k n)

include h

theorem tagLabel (h₁ : 1 ≤ i) (h₂ : i ≤ n) (note : String) :
    MarkAction.tagLabel a (i + k) note = MarkAction.tagLabel a' i note := by
  rw [MarkAction.tagLabel, MarkAction.tagLabel, h.kind h₁ h₂, h.chainText h₁ h₂, h.text h₁ h₂]

theorem text_of_find? {p : Nat → Bool} {j : Nat} (h₁ : 1 ≤ i) (h₂ : i ≤ n)
    (found : (a'.children i).find? p = some j) : a.text (j + k) = a'.text j := by
  obtain ⟨hij, hjn⟩ := h.bounds_of_find? h₁ h₂ found
  exact h.text (by omega) hjn

/-- The name below which the fields of a parameter are shown. Its place among its siblings counts, so the
parent of the parameter must lie in the statement. -/
theorem parameterName (h₁ : 2 ≤ i) (h₂ : i ≤ n) :
    SourceSurvey.parameterName a (i + k) = SourceSurvey.parameterName a' i := by
  obtain ⟨p, hp, hpn, alone, placed⟩ := h.parent i h₁ h₂
  have siblings : (a.children (p + k)).filter (fun j => Text.endsWith "_parameter" (a.kind j)) =
      ((a'.children p).filter fun j => Text.endsWith "_parameter" (a'.kind j)).map (· + k) := by
    rw [h.children hp hpn, List.filter_map]
    refine congrArg _ (List.filter_congr fun j hj => ?_)
    obtain ⟨hpj, hjn⟩ := h.mem_children hp hpn hj
    rw [Function.comp_apply, h.kind (by omega) hjn]
  have position (l : List Nat) : (l.map (· + k)).findIdx? (· == i + k) = l.findIdx? (· == i) := by
    rw [List.findIdx?_map]
    congr 1
    funext j
    rw [Function.comp_apply, Bool.eq_iff_iff, beq_iff_eq, beq_iff_eq, Nat.add_right_cancel_iff]
  unfold SourceSurvey.parameterName
  simp only [alone, placed, siblings, position, h.childOfKind? "type_annotation" (Nat.le_of_succ_le h₁) h₂]
  cases found : a'.childOfKind? i "type_annotation" with
  | none => rfl
  | some t => simp only [Option.map_some, h.text_of_find? (Nat.le_of_succ_le h₁) h₂ found]

variable {v : Visit} {root root' : Ancestor} {before s s' : Markings}

theorem fieldName (hv : v.Inside n) {x parent : Ancestor} {outer : List Ancestor}
    (hp : v.trail.nodes = x :: parent :: outer) :
    MarkAction.fieldName a ((v.shift k).below root) = MarkAction.fieldName a' (v.below root') := by
  have bounds := hv.trail.bounds_parent hp
  simp only [MarkAction.fieldName, Visit.index_below, Visit.index_shift, Visit.trail_below,
    Visit.trail_shift, Trail.outward?_one hp, Trail.outward?_one (Trail.nodes_shift hp),
    Ancestor.index_shift, h.text hv.pos hv.le, h.field hv.pos hv.le,
    h.childByField? "key" bounds.1 bounds.2]
  cases found : a'.childByField? parent.index "key" with
  | none => rfl
  | some key => simp only [Option.map_some, h.text_of_find? bounds.1 bounds.2 found]

/-- **The place where an object pattern stands gives it the same binding in both places.** -/
theorem bindingOf (hv : v.Inside n) (m : Markings.Mirrors before k n s s') (hr : root.IsRoot)
    (hr' : root'.IsRoot) : ∃ b, MarkAction.bindingOf a ((v.shift k).below root) s = .ok b ∧
      MarkAction.bindingOf a' (v.below root') s' = .ok b := by
  unfold MarkAction.bindingOf
  simp only [Visit.index_below, Visit.index_shift, Visit.trail_below, Visit.trail_shift,
    h.field hv.pos hv.le, m.isExported hr hr' hv.trail]
  rcases v.trail.outward?_cases root root' k 1 with ⟨parent, hp, inner, alone, placed⟩ |
    ⟨-, alone, placed⟩ | ⟨-, alone, placed⟩
  · have bounds := hv.trail.bounds parent hp
    simp only [alone, placed, Ancestor.kind_shift, Ancestor.index_shift]
    by_cases parameter : (parent.kind == "required_parameter" || parent.kind == "optional_parameter") = true
    · rw [if_pos parameter, if_pos parameter,
        h.parameterName (hv.trail.parameter parent hp parameter) bounds.2]
      exact ⟨_, rfl, rfl⟩
    rw [if_neg parameter, if_neg parameter]
    by_cases declared : (parent.kind == "variable_declarator" && a'.field v.index == some "name") = true
    · rw [if_pos declared, if_pos declared, h.childByField? "value" bounds.1 bounds.2]
      cases found : a'.childByField? parent.index "value" with
      | none => exact ⟨_, rfl, rfl⟩
      | some value =>
          simp only [Option.map_some, h.text_of_find? bounds.1 bounds.2 found]
          exact ⟨_, rfl, rfl⟩
    rw [if_neg declared, if_neg declared]
    by_cases nested : (parent.kind == "pair_pattern" && a'.field v.index == some "value") = true
    · -- something is around the pair, be it the root
      rw [if_pos nested, if_pos nested]
      rcases v.trail.outward?_cases root root' k 2 with ⟨around, ha, -, alone, placed⟩ |
        ⟨-, alone, placed⟩ | ⟨beyond, -, -⟩
      · have around_pos := (hv.trail.bounds around ha).1
        simp only [alone, placed, Ancestor.index_shift, m.lookup around_pos,
          h.childByField? "key" bounds.1 bounds.2]
        cases s'.bindings.lookup around.index with
        | none => exact ⟨_, rfl, rfl⟩
        | some outer =>
            cases found : a'.childByField? parent.index "key" with
            | none => exact ⟨_, rfl, rfl⟩
            | some key =>
                simp only [Option.map_some, h.text_of_find? bounds.1 bounds.2 found]
                exact ⟨_, rfl, rfl⟩
      · simp only [alone, placed, hr.index, hr'.index, m.lookup_zero, m.lookup_zero']
        exact ⟨_, rfl, rfl⟩
      · omega
    rw [if_neg nested, if_neg nested]
    exact ⟨_, rfl, rfl⟩
  · simp only [alone, placed, hr.kind, hr'.kind]
    exact ⟨_, rfl, rfl⟩
  · simp only [alone, placed]
    exact ⟨_, rfl, rfl⟩

end Placed

end SourceSurvey
