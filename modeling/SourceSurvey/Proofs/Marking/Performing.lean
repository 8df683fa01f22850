import SourceSurvey.Proofs.Marking.Locality

/-!
# Actions keep to their statement

An action on a node of a statement writes on nodes of that statement only, and what it writes depends on
nothing outside. So it does the same where the statement stands among others and where it stands alone:
performed in both places, it keeps the markings mirrored (`Placed.perform`). In particular it never fails.
-/

namespace SourceSurvey

namespace Placed

open MarkAction Markings

variable {a a' : Arena} {k n : Nat} (h : Placed a a' k n) {v : Visit} (hv : v.Inside n)
  {root root' : Ancestor} {before s s' : Markings} (m : Mirrors before k n s s')
  (resolve : Option (String → Option String))

include hv m

/-! ## Imports -/

section Imports

include h

theorem perform_importStatement :
    Mirrored before k n (importStatement.perform a resolve ((v.shift k).below root) s)
      (importStatement.perform a' resolve (v.below root') s') := by
  simp only [perform, Visit.index_below, Visit.index_shift, h.childByField? "source" hv.pos hv.le,
    h.childOfKind? "import_require_clause" hv.pos hv.le]
  cases direct : a'.childByField? v.index "source" with
  | some j =>
      have bounds := h.bounds_of_find? hv.pos hv.le direct
      exact ((m.link hv.pos hv.le ⟨by omega, bounds.2⟩).attend hv.pos hv.le _ _ _).ok
  | none =>
      cases clause : a'.childOfKind? v.index "import_require_clause" with
      | none => exact (m.attend hv.pos hv.le _ _ _).ok
      | some c =>
          have inside := h.bounds_of_find? hv.pos hv.le clause
          have pos : 1 ≤ c := by omega
          simp only [Option.map_none, Option.map_some, Option.bind_some, h.childByField? "source" pos inside.2]
          cases required : a'.childByField? c "source" with
          | none => exact (m.attend hv.pos hv.le _ _ _).ok
          | some j =>
              have bounds := h.bounds_of_find? pos inside.2 required
              exact ((m.link hv.pos hv.le ⟨by omega, bounds.2⟩).attend hv.pos hv.le _ _ _).ok

variable (hr : root.IsRoot) (hr' : root'.IsRoot)

include hr hr'

theorem perform_importName (note : String) :
    Mirrored before k n ((importName note).perform a resolve ((v.shift k).below root) s)
      ((importName note).perform a' resolve (v.below root') s') := by
  have other : ["import_statement"].contains "program" = false := by decide
  simp only [perform, Visit.index_below, Visit.index_shift, Visit.trail_below, Visit.trail_shift,
    h.text hv.pos hv.le, Trail.findKind?_below (hr.kind ▸ other), Trail.findKind?_below (hr'.kind ▸ other),
    Trail.findKind?_shift]
  cases found : v.trail.findKind? ["import_statement"] 0 with
  | none => exact (m.attend hv.pos hv.le _ _ _).ok
  | some statement =>
      have bounds := hv.trail.bounds statement (Trail.mem_of_findKind? found)
      exact ((m.link hv.pos hv.le bounds).attend hv.pos hv.le _ _ _).ok

theorem perform_importPath :
    Mirrored before k n (importPath.perform a resolve ((v.shift k).below root) s)
      (importPath.perform a' resolve (v.below root') s') := by
  have other : ["import_statement"].contains "program" = false := by decide
  simp only [perform, Visit.index_below, Visit.index_shift, Visit.trail_below, Visit.trail_shift,
    h.text hv.pos hv.le, Trail.findKind?_below (hr.kind ▸ other), Trail.findKind?_below (hr'.kind ▸ other),
    Trail.findKind?_shift]
  cases resolve with
  | none => exact (m.attend hv.pos hv.le _ _ _).ok
  | some find =>
      have own := m.path hv.pos hv.le (find (specifierOf (a'.text v.index)))
      cases found : v.trail.findKind? ["import_statement"] 0 with
      | none => exact (own.attend hv.pos hv.le _ _ _).ok
      | some statement =>
          have bounds := hv.trail.bounds statement (Trail.mem_of_findKind? found)
          exact ((own.path bounds.1 bounds.2 _).attend hv.pos hv.le _ _ _).ok

end Imports

/-! ## Declarations and exports -/

section Around

variable {x parent : Ancestor} {outer : List Ancestor} (hp : v.trail.nodes = x :: parent :: outer)

include hp

theorem perform_exportKeyword :
    Mirrored before k n (exportKeyword.perform a resolve ((v.shift k).below root) s)
      (exportKeyword.perform a' resolve (v.below root') s') := by
  have inside : ∀ y ∈ [x, parent], 1 ≤ y.index ∧ y.index ≤ n := by
    intro y hy
    refine hv.trail.bounds y ?_
    rw [hp]
    exact List.mem_append_left outer hy
  simp only [perform, Visit.trail_below, Visit.trail_shift, Trail.below, Trail.nodes_shift hp, hp]
  exact (m.foldl_exported inside).ok

/-- The function and the declarator around it are in the statement, and so is the name that the declarator
is linked with. -/
theorem perform_functionValue (note : String) :
    Mirrored before k n ((functionValue note).perform a resolve ((v.shift k).below root) s)
      ((functionValue note).perform a' resolve (v.below root') s') := by
  have around := hv.trail.bounds_parent hp
  simp only [perform, Visit.trail_below, Visit.trail_shift, Trail.outward?_one hp,
    Trail.outward?_one (Trail.nodes_shift hp), Ancestor.index_shift, m.mark around.1 around.2, Mark.shift]
  cases linked : (s'.mark parent.index).link with
  | none => exact m.ok
  | some name =>
      have bounds := m.inside.links _ _ linked
      simp only [Option.map_some]
      refine Mirrors.ok (m.change bounds.1 bounds.2 ?_ ?_)
      · intro mark
        rfl
      · intro mark j hj
        exact Or.inl hj

variable (hr : root.IsRoot) (hr' : root'.IsRoot)

include h hr hr'

theorem perform_declaredName (category : Category) (note : String) (steps : Nat) :
    Mirrored before k n ((declaredName category note steps).perform a resolve ((v.shift k).below root) s)
      ((declaredName category note steps).perform a' resolve (v.below root') s') := by
  have around := hv.trail.bounds_parent hp
  have linked := m.link around.1 around.2 ⟨hv.pos, hv.le⟩
  simp only [perform, Visit.index_below, Visit.index_shift, Visit.trail_below, Visit.trail_shift,
    Trail.outward?_one hp, Trail.outward?_one (Trail.nodes_shift hp), Ancestor.index_shift,
    h.text hv.pos hv.le, linked.isExported hr hr' hv.trail]
  generalize exported : Markings.isExported _ (v.trail.below root') steps = e
  cases e with
  | false => exact ((linked.exported hv.pos hv.le false).attend hv.pos hv.le _ _ _).ok
  | true =>
      have inner := linked.lt_of_isExported hr' exported
      have inside : ∀ y ∈ (v.trail.nodes.drop 1).take steps, 1 ≤ y.index ∧ y.index ≤ n :=
        fun y hy => hv.trail.bounds y (List.mem_of_mem_drop (List.mem_of_mem_take hy))
      have inner' : steps < (v.trail.shift k).nodes.length := by rwa [Trail.shift, List.length_map]
      rw [Trail.take_drop_below inner, Trail.take_drop_below inner', Trail.shift, ← List.map_drop,
        ← List.map_take]
      exact (((linked.foldl_exported inside).exported hv.pos hv.le true).attend hv.pos hv.le _ _ _).ok

end Around

/-! ## Components and object patterns -/

section Components

variable (hr : root.IsRoot) (hr' : root'.IsRoot)

include h hr hr'

theorem perform_returnedComponent (note : String) :
    Mirrored before k n ((returnedComponent note).perform a resolve ((v.shift k).below root) s)
      ((returnedComponent note).perform a' resolve (v.below root') s') := by
  have attended := m.attend hv.pos hv.le .component note (MarkAction.tagLabel a' v.index note)
  simp only [perform, Visit.index_below, Visit.index_shift, Visit.trail_below, Visit.trail_shift,
    h.tagLabel hv.pos hv.le, Trail.below, Trail.shift, attended.hostName? hr hr' hv.trail.bounds]
  generalize host : Markings.hostName? _ (v.trail.nodes ++ [root']) = name
  cases name with
  | none => exact attended.ok
  | some name =>
      obtain ⟨i, linked⟩ := Markings.exists_link_of_hostName? host
      have bounds := attended.inside.links i name linked
      exact ((attended.link hv.pos hv.le bounds).addComponent bounds.1 bounds.2).ok

theorem perform_objectPattern :
    Mirrored before k n (objectPattern.perform a resolve ((v.shift k).below root) s)
      (objectPattern.perform a' resolve (v.below root') s') := by
  obtain ⟨b, placed, alone⟩ := h.bindingOf hv m hr hr'
  simp only [perform, placed, alone, Visit.index_below, Visit.index_shift]
  cases b with
  | none => exact m.ok
  | some b => exact (m.bind hv.pos hv.le b).ok

/-- The root has no binding, so a pattern that has one lies in the statement. -/
theorem perform_patternField {x parent : Ancestor} {outer : List Ancestor}
    (hp : v.trail.nodes = x :: parent :: outer) (steps : Nat) :
    Mirrored before k n ((patternField steps).perform a resolve ((v.shift k).below root) s)
      ((patternField steps).perform a' resolve (v.below root') s') := by
  have name : MarkAction.fieldName a ((v.shift k).below root) = MarkAction.fieldName a' (v.below root') :=
    h.fieldName hv hp
  simp only [perform, Visit.index_below, Visit.index_shift, Visit.trail_below, Visit.trail_shift, name]
  rcases v.trail.outward?_cases root root' k steps with ⟨pattern, hx, -, alone, placed⟩ |
    ⟨-, alone, placed⟩ | ⟨-, alone, placed⟩
  · have bounds := hv.trail.bounds pattern hx
    simp only [alone, placed, Option.bind_some, Ancestor.index_shift, m.lookup bounds.1]
    cases s'.bindings.lookup pattern.index with
    | none => exact m.ok
    | some b => exact ((m.exported hv.pos hv.le b.exported).attend hv.pos hv.le _ _ _).ok
  · simp only [alone, placed, Option.bind_some, hr.index, hr'.index, m.lookup_zero, m.lookup_zero']
    exact m.ok
  · simp only [alone, placed, Option.bind_none]
    exact m.ok

end Components

/-! ## Every action -/

include h

/-- **Performed in both places, an action of a visit keeps the markings mirrored.** -/
theorem perform (hr : root.IsRoot) (hr' : root'.IsRoot) {action : MarkAction}
    (mem : action ∈ (v.below root').actions a') :
    Mirrored before k n (action.perform a resolve ((v.shift k).below root) s)
      (action.perform a' resolve (v.below root') s') := by
  have text := h.text hv.pos hv.le
  have parent := Visit.exists_parent hv.trail.inStep hr'.kind mem
  cases action with
  | importStatement => exact h.perform_importStatement hv m resolve
  | importName note => exact h.perform_importName hv m resolve hr hr' note
  | importPath => exact h.perform_importPath hv m resolve hr hr'
  | declaredName category note steps =>
      obtain ⟨x, parent, outer, hp⟩ := parent rfl
      exact h.perform_declaredName hv m resolve hp hr hr' category note steps
  | call field note =>
      simp only [MarkAction.perform, Visit.index_below, Visit.index_shift, h.childByField? field hv.pos hv.le]
      cases found : a'.childByField? v.index field with
      | none => exact (m.attend hv.pos hv.le _ _ _).ok
      | some callee =>
          obtain ⟨after, le⟩ := h.bounds_of_find? hv.pos hv.le found
          have pos : 1 ≤ callee := by omega
          simp only [Option.map_some, h.chainText pos le]
          exact (m.attend hv.pos hv.le _ _ _).ok
  | component note =>
      simp only [MarkAction.perform, Visit.index_below, Visit.index_shift, h.tagLabel hv.pos hv.le]
      exact (m.attend hv.pos hv.le _ _ _).ok
  | returnedComponent note => exact h.perform_returnedComponent hv m resolve hr hr' note
  | propertyChain =>
      simp only [MarkAction.perform, Visit.index_below, Visit.index_shift, h.chainText hv.pos hv.le]
      exact (m.attend hv.pos hv.le _ _ _).ok
  | objectPattern => exact h.perform_objectPattern hv m resolve hr hr'
  | patternField steps =>
      obtain ⟨x, parent, outer, hp⟩ := parent rfl
      exact h.perform_patternField hv m resolve hr hr' hp steps
  | functionValue note =>
      obtain ⟨x, parent, outer, hp⟩ := parent rfl
      exact perform_functionValue hv m resolve hp note
  | exportKeyword =>
      obtain ⟨x, parent, outer, hp⟩ := parent rfl
      exact perform_exportKeyword hv m resolve hp
  | exportName note =>
      simp only [MarkAction.perform, Visit.index_below, Visit.index_shift, text]
      exact ((m.exported hv.pos hv.le true).attend hv.pos hv.le _ _ _).ok
  | parameter | punctuation | objectProperty | comment =>
      simp only [MarkAction.perform, Visit.index_below, Visit.index_shift, text]
      exact (m.attend hv.pos hv.le _ _ _).ok

end Placed

end SourceSurvey
