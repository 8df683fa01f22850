import SourceSurvey.Proofs.Marking.Choice
import SourceSurvey.Proofs.Tree.Ancestry
import SourceSurvey.Proofs.Tree.Declarations

/-!
# Where actions are performed

In a tree a pattern without optional steps asks for kinds and fields of a node and of its parents
(`Visit.matchesInward_iff`). The actions that deal with exports, names and destructured fields are read off
the table of rules: each is performed at the places that its patterns describe and, as no earlier rule of
its group comes in between, at all of them.
-/

namespace SourceSurvey

/-! ## Patterns and parents -/

namespace Pattern

variable {s : Step} {steps : List Step} {p q : PathStep} {path : List PathStep}

theorem matchesInward_cons (hs : s.isOptional = false) :
    matchesInward (s :: steps) (p :: path) = true ↔ s.accepts p = true ∧ matchesInward steps path = true := by
  rw [matchesInward, hs, Bool.false_and, Bool.or_false, Bool.and_eq_true]

/-- Steps, from the innermost outwards, that the kinds of the two innermost nodes do not rule out. -/
def admits (inner outer : String) : List Step → Bool
  | [] => true
  | [s] => s.isOptional || !s.excludes inner
  | s :: t :: _ => s.isOptional || !s.excludes inner && (t.isOptional || !t.excludes outer)

theorem excludes_eq_false (h : s.accepts p = true) : s.excludes p.kind = false := by
  cases excluded : s.excludes p.kind with
  | false => rfl
  | true =>
      rw [Step.accepts_eq_false excluded] at h
      cases h

theorem admits_of_matchesInward (fits : matchesInward steps (p :: q :: path) = true) :
    admits p.kind q.kind steps = true := by
  cases steps with
  | nil => rfl
  | cons s outer =>
      cases hs : s.isOptional with
      | true => cases outer <;> simp [admits, hs]
      | false =>
          obtain ⟨inner, fits⟩ := (matchesInward_cons hs).mp fits
          cases outer with
          | nil => simp [admits, excludes_eq_false inner]
          | cons t outer =>
              cases ht : t.isOptional with
              | true => simp [admits, excludes_eq_false inner, ht]
              | false =>
                  have around := ((matchesInward_cons ht).mp fits).1
                  simp [admits, excludes_eq_false inner, excludes_eq_false around]

end Pattern

/-- The steps, from the innermost outwards, accept node `i`, its parent and so on. -/
def Arena.Fits (a : Arena) : List Step → Nat → Prop
  | [], _ => True
  | [s], i => s.accepts (a.ancestor i).toPathStep = true
  | s :: t :: outer, i => s.accepts (a.ancestor i).toPathStep = true ∧
      ∃ p, a.parent? i = some p ∧ Fits a (t :: outer) p

/-- The statement stands so many steps outwards from node `i`, and between the two there is at most its
declarator. -/
def Arena.StatementAt (a : Arena) (i steps statement : Nat) : Prop :=
  (a.lineage i)[steps]? = some statement ∧ ∀ j ∈ ((a.lineage i).drop 1).take steps,
    j = statement ∨ a.kind j = "variable_declarator" ∧ a.parent? j = some statement

namespace Arena

variable {nodes : List FlatNode} {i d statement : Nat}

theorem statementAt_one (around : (ofNodes nodes).parent? i = some statement) :
    (ofNodes nodes).StatementAt i 1 statement := by
  refine ⟨by simp [getElem?_lineage_succ, getElem?_lineage_zero, around], ?_⟩
  intro j hj
  rw [lineage_of_parent? around, lineage_eq statement] at hj
  exact Or.inl (List.mem_singleton.mp hj)

theorem statementAt_two (around : (ofNodes nodes).parent? i = some d)
    (host : (ofNodes nodes).kind d = "variable_declarator")
    (outer : (ofNodes nodes).parent? d = some statement) : (ofNodes nodes).StatementAt i 2 statement := by
  refine ⟨by simp [getElem?_lineage_succ, getElem?_lineage_zero, around, outer], ?_⟩
  intro j hj
  rw [lineage_of_parent? around, lineage_of_parent? outer, lineage_eq statement] at hj
  rcases List.mem_pair.mp hj with rfl | rfl
  · exact Or.inr ⟨host, outer⟩
  · exact Or.inl rfl

end Arena

namespace Step

variable {a : Arena} {i : Nat} {f k : String} {ks : List String}

@[simp] theorem accepts_kind : (kind k).accepts (a.ancestor i).toPathStep = true ↔ a.kind i = k := by
  simp [accepts, kind, Arena.ancestor]

@[simp] theorem accepts_under_kind : (under f (kind k)).accepts (a.ancestor i).toPathStep = true ↔
    a.kind i = k ∧ a.field i = some f := by
  simp [accepts, kind, under, Arena.ancestor]

@[simp] theorem accepts_oneOf : (oneOf ks).accepts (a.ancestor i).toPathStep = true ↔ a.kind i ∈ ks := by
  simp [accepts, oneOf, Arena.ancestor]

@[simp] theorem accepts_under_oneOf : (under f (oneOf ks)).accepts (a.ancestor i).toPathStep = true ↔
    a.kind i ∈ ks ∧ a.field i = some f := by
  simp [accepts, oneOf, under, Arena.ancestor]

@[simp] theorem accepts_under_any :
    (under f { kinds := none }).accepts (a.ancestor i).toPathStep = true ↔ a.field i = some f := by
  simp [accepts, under, Arena.ancestor]

end Step

namespace Visit

open Arena MarkAction

variable {nodes : List FlatNode} {v : Visit} (shaped : TreeShaped nodes) (hv : v ∈ list nodes)

include shaped hv in
theorem inward_eq : v.trail.inward =
    ((ofNodes nodes).lineage v.index).map fun i => ((ofNodes nodes).ancestor i).toPathStep := by
  rw [inStep_list hv, trail_eq shaped hv, List.map_map]
  rfl

theorem matchesInward_lineage {s : Step} {outer : List Step} (firm : ∀ t ∈ s :: outer, t.isOptional = false)
    (i : Nat) : Pattern.matchesInward (s :: outer)
        (((ofNodes nodes).lineage i).map fun i => ((ofNodes nodes).ancestor i).toPathStep) = true ↔
      (ofNodes nodes).Fits (s :: outer) i := by
  induction outer generalizing s i with
  | nil =>
      rw [lineage_eq, List.map_cons, Pattern.matchesInward_cons (firm s List.mem_cons_self)]
      simp [Fits, Pattern.matchesInward]
  | cons t outer ih =>
      have next := ih fun u hu => firm u (List.mem_cons_of_mem s hu)
      rw [lineage_eq, List.map_cons, Pattern.matchesInward_cons (firm s List.mem_cons_self), Fits]
      cases (ofNodes nodes).parent? i with
      | none => simp [Pattern.matchesInward, firm t (by simp)]
      | some p => simp [next p]

include hv in
theorem accepts_of_matchesInward {s : Step} {outer : List Step} (firm : s.isOptional = false)
    (fits : Pattern.matchesInward (s :: outer) v.trail.inward = true) :
    s.accepts ((ofNodes nodes).ancestor v.index).toPathStep = true := by
  obtain ⟨-, around, trail, -⟩ := exists_outer hv
  rw [inStep_list hv, trail, List.map_cons] at fits
  exact ((Pattern.matchesInward_cons firm).mp fits).1

include shaped hv

/-- **A pattern without optional steps fits a visit if it accepts the node and its parents.** -/
theorem matchesInward_iff {steps : List Step} (firm : steps ≠ [] ∧ ∀ t ∈ steps, t.isOptional = false) :
    Pattern.matchesInward steps v.trail.inward = true ↔ (ofNodes nodes).Fits steps v.index := by
  obtain ⟨s, outer, rfl⟩ := List.exists_cons_of_ne_nil firm.1
  rw [inward_eq shaped hv]
  exact matchesInward_lineage firm.2 v.index

end Visit

/-! ## The table of rules -/

def MarkAction.isDeclaredName : MarkAction → Bool
  | declaredName .. => true
  | _ => false

/-- The action deals with exports, names or destructured fields. -/
def MarkAction.isSpecial : MarkAction → Bool
  | declaredName .. => true
  | objectPattern => true
  | patternField _ => true
  | functionValue _ => true
  | exportKeyword => true
  | exportName _ => true
  | _ => false

theorem MarkAction.exists_declaredName {action : MarkAction} (h : action.isDeclaredName = true) :
    ∃ category note steps, action = declaredName category note steps := by
  cases action with
  | declaredName category note steps => exact ⟨category, note, steps, rfl⟩
  | _ => cases h

namespace MarkRule

open Step MarkAction

/-- All alternatives, whatever rule they belong to, with their steps from the innermost outwards. -/
def table : List (List Step × MarkAction) :=
  groups.flatten.flatMap fun rule => rule.alternatives.map fun y => (y.1.reverse, y.2)

/-- The actions that may be performed on a node of one kind directly inside of one of another kind. -/
def offers (inner outer : String) : List MarkAction :=
  (table.filter fun y => Pattern.admits inner outer y.1).map Prod.snd

/-- The alternatives with such an action. -/
def places : List (List Step × MarkAction) :=
  [ ([under "name" (kind "identifier"), kind "variable_declarator"], declaredName .variableName "variable" 2),
    ([under "name" (kind "identifier"), oneOf Arena.functionKinds], declaredName .functionName "function" 1),
    ([under "name" { kinds := none }, kind "method_definition"], declaredName .functionName "method" 1),
    ([under "name" (oneOf ["type_identifier", "identifier"]), oneOf Arena.classKinds],
      declaredName .className "class" 1),
    ([kind "object_pattern"], objectPattern),
    ([kind "shorthand_property_identifier_pattern", kind "object_pattern"], patternField 1),
    ([under "left" (kind "shorthand_property_identifier_pattern"), kind "object_assignment_pattern",
      kind "object_pattern"], patternField 2),
    ([under "value" (kind "identifier"), kind "pair_pattern", kind "object_pattern"], patternField 2),
    ([under "value" (kind "arrow_function"), kind "variable_declarator"], functionValue "arrow-bound"),
    ([under "value" (oneOf ["function_expression", "function", "generator_function"]),
      kind "variable_declarator"], functionValue "function-bound"),
    ([kind "export", kind "export_statement"], exportKeyword),
    ([under "alias" (kind "identifier"), kind "export_specifier", kind "export_clause",
      kind "export_statement"], exportName "export-alias"),
    ([under "name" (kind "identifier"), kind "export_specifier", kind "export_clause",
      kind "export_statement"], exportName "export-name"),
    ([under "value" (kind "identifier"), kind "export_statement"], exportName "export-default") ]

theorem filter_isSpecial_table : table.filter (fun y => y.2.isSpecial) = places := by
  decide

theorem firm_places : ∀ y ∈ places, y.1 ≠ [] ∧ ∀ t ∈ y.1, t.isOptional = false := by
  decide

theorem mem_table {group : List MarkRule} {rule : MarkRule} {pattern : Pattern} {action : MarkAction}
    (hgroup : group ∈ groups) (hrule : rule ∈ group) (mem : (pattern, action) ∈ rule.alternatives) :
    (pattern.reverse, action) ∈ table :=
  List.mem_flatMap.mpr ⟨rule, List.mem_flatten.mpr ⟨group, hgroup, hrule⟩,
    List.mem_map.mpr ⟨(pattern, action), mem, rfl⟩⟩

end MarkRule

namespace Visit

open Arena MarkAction MarkRule

section Table

variable {a : Arena} {v : Visit} {action : MarkAction}

theorem exists_steps (h : action ∈ v.actions a) :
    ∃ steps, (steps, action) ∈ table ∧ Pattern.matchesInward steps v.trail.inward = true := by
  obtain ⟨group, hgroup, rule, hrule, pattern, mem, fits⟩ := exists_of_mem_actions h
  exact ⟨pattern.reverse, mem_table hgroup hrule mem, fits⟩

theorem exists_place (h : action ∈ v.actions a) (special : action.isSpecial = true) :
    ∃ steps, (steps, action) ∈ places ∧ Pattern.matchesInward steps v.trail.inward = true := by
  obtain ⟨steps, listed, fits⟩ := exists_steps h
  rw [← filter_isSpecial_table]
  exact ⟨steps, List.mem_filter.mpr ⟨listed, special⟩, fits⟩

theorem exists_granted {group : List MarkRule} (hgroup : group ∈ groups) {rule : MarkRule}
    (hrule : rule ∈ group) (granted : rule.guard.all (Guard.holds a v) = true) {y : Pattern × MarkAction}
    (hy : y ∈ rule.alternatives) (fits : Pattern.matchesInward y.1.reverse v.trail.inward = true) :
    ∃ rule' ∈ group, ∃ z ∈ rule'.alternatives, z.2 ∈ v.actions a := by
  cases chosen : actionOf? a v group with
  | none =>
      have refused := List.findSome?_eq_none_iff.mp chosen rule hrule
      rw [Rule.choose_eq_find?, Option.map_eq_none_iff, List.find?_eq_none] at refused
      have := refused y hy
      rw [fits, granted] at this
      exact absurd rfl this
  | some action =>
      obtain ⟨rule', hrule', chosen'⟩ := List.exists_of_findSome?_eq_some chosen
      obtain ⟨pattern, mem, -⟩ := Rule.exists_of_choose chosen'
      exact ⟨rule', hrule', (pattern, action), mem, List.mem_filterMap.mpr ⟨group, hgroup, chosen⟩⟩

theorem exists_action {group : List MarkRule} (hgroup : group ∈ groups) {rule : MarkRule}
    (hrule : rule ∈ group) (unguarded : rule.guard = none) {y : Pattern × MarkAction}
    (hy : y ∈ rule.alternatives) (fits : Pattern.matchesInward y.1.reverse v.trail.inward = true) :
    ∃ rule' ∈ group, ∃ z ∈ rule'.alternatives, z.2 ∈ v.actions a :=
  exists_granted hgroup hrule (by rw [unguarded]; rfl) hy fits

end Table

/-! ## Object patterns at any depth -/

section Anywhere

variable {nodes : List FlatNode} {v : Visit} (hv : v ∈ list nodes)

include hv

theorem exists_inward : ∃ outer, v.trail.inward =
    ⟨(ofNodes nodes).field v.index, (ofNodes nodes).kind v.index⟩ :: outer := by
  obtain ⟨-, outer, trail, -⟩ := exists_outer hv
  exact ⟨outer.map Ancestor.toPathStep, by rw [inStep_list hv, trail]; rfl⟩

theorem place_of_objectPattern (h : objectPattern ∈ v.actions (ofNodes nodes)) :
    (ofNodes nodes).kind v.index = "object_pattern" := by
  obtain ⟨steps, place, fits⟩ := exists_place h rfl
  obtain rfl : steps = [Step.kind "object_pattern"] := by simpa [places] using place
  exact Step.accepts_kind.mp (accepts_of_matchesInward hv rfl fits)

/-- Every object pattern is bound: no earlier rule of the group names its kind. -/
theorem objectPattern_mem_actions (kind : (ofNodes nodes).kind v.index = "object_pattern") :
    objectPattern ∈ v.actions (ofNodes nodes) := by
  obtain ⟨outer, inward⟩ := exists_inward hv
  refine List.mem_filterMap.mpr ⟨parameters, by simp [groups], ?_⟩
  rw [actionOf?, inward, kind]
  rfl

end Anywhere

variable {nodes : List FlatNode} {v : Visit} (shaped : TreeShaped nodes) (hv : v ∈ list nodes)
  {action : MarkAction} {i p : Nat}

include shaped hv

theorem mem_offers (h : action ∈ v.actions (ofNodes nodes))
    (around : (ofNodes nodes).parent? v.index = some p) :
    action ∈ offers ((ofNodes nodes).kind v.index) ((ofNodes nodes).kind p) := by
  obtain ⟨steps, mem, fits⟩ := exists_steps h
  rw [inward_eq shaped hv, lineage_eq, around, Option.map_some, Option.getD_some, lineage_eq p] at fits
  have admitted := Pattern.admits_of_matchesInward fits
  exact List.mem_map.mpr ⟨(steps, action), List.mem_filter.mpr ⟨mem, admitted⟩, rfl⟩

theorem fits_of_mem_actions (h : action ∈ v.actions (ofNodes nodes)) (special : action.isSpecial = true) :
    ∃ steps, (steps, action) ∈ places ∧ (ofNodes nodes).Fits steps v.index := by
  obtain ⟨steps, place, fits⟩ := exists_place h special
  exact ⟨steps, place, (matchesInward_iff shaped hv (firm_places _ place)).mp fits⟩

/-! ## From the action to the place -/

theorem place_of_exportKeyword (h : exportKeyword ∈ v.actions (ofNodes nodes)) :
    (ofNodes nodes).kind v.index = "export" ∧
      ∃ x, (ofNodes nodes).parent? v.index = some x ∧ (ofNodes nodes).kind x = "export_statement" := by
  obtain ⟨steps, place, fits⟩ := fits_of_mem_actions shaped hv h rfl
  obtain rfl : steps = [Step.kind "export", Step.kind "export_statement"] := by simpa [places] using place
  simpa [Fits] using fits

theorem place_of_exportName {note : String} (h : exportName note ∈ v.actions (ofNodes nodes)) :
    (ofNodes nodes).kind v.index = "identifier" ∧ ∃ p, (ofNodes nodes).parent? v.index = some p ∧
      (ofNodes nodes).kind p ∈ ["export_specifier", "export_statement"] := by
  obtain ⟨steps, place, fits⟩ := fits_of_mem_actions shaped hv h rfl
  obtain ⟨rfl, rfl⟩ | ⟨rfl, rfl⟩ | ⟨rfl, rfl⟩ := by simpa [places] using place
  all_goals
    obtain ⟨⟨kind, -⟩, p, around, host⟩ := by simpa [Fits] using fits
    exact ⟨kind, p, around, by simp [host]⟩

theorem place_of_functionValue {note : String} (h : functionValue note ∈ v.actions (ofNodes nodes)) :
    ∃ d, v.trail.outward? 1 = some ((ofNodes nodes).ancestor d) ∧
      (ofNodes nodes).kind d = "variable_declarator" := by
  obtain ⟨steps, place, fits⟩ := fits_of_mem_actions shaped hv h rfl
  obtain ⟨rfl, rfl⟩ | ⟨rfl, rfl⟩ := by simpa [places] using place
  all_goals
    obtain ⟨-, d, around, host⟩ := fits
    exact ⟨d, by rw [outward?_one_eq shaped hv, around]; rfl, by simpa [Fits] using host⟩

theorem place_of_patternField {steps : Nat} (h : patternField steps ∈ v.actions (ofNodes nodes)) :
    ∃ pattern, (ofNodes nodes).FieldOf v.index pattern ∧
      v.trail.outward? steps = some ((ofNodes nodes).ancestor pattern) := by
  obtain ⟨path, place, fits⟩ := fits_of_mem_actions shaped hv h rfl
  obtain ⟨rfl, rfl⟩ | ⟨rfl, rfl⟩ | ⟨rfl, rfl⟩ := by simpa [places] using place
  · obtain ⟨kind, pattern, around, object⟩ := by simpa [Fits] using fits
    refine ⟨pattern, .shorthand kind around object, ?_⟩
    rw [outward?_one_eq shaped hv, around]
    rfl
  · obtain ⟨⟨kind, field⟩, q, around, host, pattern, outer, object⟩ := by simpa [Fits] using fits
    refine ⟨pattern, .defaulted kind field around host outer object, ?_⟩
    rw [outward?_two_eq shaped hv, around, Option.bind_some, outer]
    rfl
  · obtain ⟨⟨kind, field⟩, q, around, host, pattern, outer, object⟩ := by simpa [Fits] using fits
    refine ⟨pattern, .paired kind field around host outer object, ?_⟩
    rw [outward?_two_eq shaped hv, around, Option.bind_some, outer]
    rfl

/-- A name is declared by its rule, with the steps to its statement. -/
theorem place_of_declaredName (g : (ofNodes nodes).Grammatical) {category : Category} {note : String}
    {steps : Nat} (h : declaredName category note steps ∈ v.actions (ofNodes nodes)) :
    ∃ statement, (ofNodes nodes).Names v.index statement ∧
      (ofNodes nodes).StatementAt v.index steps statement := by
  obtain ⟨path, place, fits⟩ := fits_of_mem_actions shaped hv h rfl
  obtain ⟨rfl, rfl, rfl, rfl⟩ | ⟨rfl, rfl, rfl, rfl⟩ | ⟨rfl, rfl, rfl, rfl⟩ | ⟨rfl, rfl, rfl, rfl⟩ := by
    simpa [places] using place
  · obtain ⟨⟨kind, field⟩, d, around, host⟩ := by simpa [Fits] using fits
    obtain ⟨statement, outer, -⟩ := g.declarator d host
    exact ⟨statement, .ofVariable kind field around host outer, statementAt_two around host outer⟩
  · obtain ⟨⟨kind, field⟩, statement, around, host⟩ := by simpa [Fits] using fits
    exact ⟨statement, .ofFunction kind field around host, statementAt_one around⟩
  · obtain ⟨field, statement, around, host⟩ := by simpa [Fits] using fits
    exact ⟨statement, .ofMethod field around host, statementAt_one around⟩
  · obtain ⟨⟨kind, field⟩, statement, around, host⟩ := by simpa [Fits] using fits
    exact ⟨statement, .ofClass (by simpa using kind) field around host, statementAt_one around⟩

/-! ## From the place to the action -/

/-- An alternative without a guard fits the node, and the kinds let nothing else happen to it. -/
theorem mem_actions_of_offers {group : List MarkRule} (hgroup : group ∈ groups) {rule : MarkRule}
    (hrule : rule ∈ group) (unguarded : rule.guard = none) {pattern : Pattern}
    (hy : (pattern, action) ∈ rule.alternatives)
    (firm : pattern.reverse ≠ [] ∧ ∀ t ∈ pattern.reverse, t.isOptional = false)
    (fits : (ofNodes nodes).Fits pattern.reverse v.index)
    (around : (ofNodes nodes).parent? v.index = some p)
    (only : offers ((ofNodes nodes).kind v.index) ((ofNodes nodes).kind p) = [action]) :
    action ∈ v.actions (ofNodes nodes) ∧ ∀ action' ∈ v.actions (ofNodes nodes), action' = action := by
  have all : ∀ action' ∈ v.actions (ofNodes nodes), action' = action := by
    intro action' mem
    have offered := mem_offers shaped hv mem around
    rw [only] at offered
    exact List.mem_singleton.mp offered
  refine ⟨?_, all⟩
  obtain ⟨rule', -, z, -, mem⟩ := exists_action (a := ofNodes nodes) hgroup hrule unguarded hy
    ((matchesInward_iff shaped hv firm).mpr fits)
  exact all _ mem ▸ mem

theorem exportKeyword_mem_actions {x : Nat} (kind : (ofNodes nodes).kind v.index = "export")
    (around : (ofNodes nodes).parent? v.index = some x)
    (host : (ofNodes nodes).kind x = "export_statement") :
    exportKeyword ∈ v.actions (ofNodes nodes) := by
  have group : exports ∈ groups := by simp [groups]
  refine (mem_actions_of_offers shaped hv group List.mem_cons_self rfl List.mem_cons_self (by decide)
    ?_ around ?_).1
  · simp [Fits, kind, around, host]
  · rw [kind, host]
    decide

theorem patternField_mem_actions {pattern : Nat} (h : (ofNodes nodes).FieldOf v.index pattern) :
    ∃ steps, patternField steps ∈ v.actions (ofNodes nodes) ∧
      ∀ action ∈ v.actions (ofNodes nodes), action = patternField steps := by
  have group : parameters ∈ groups := by simp [groups]
  have last : parameters[3]? = some _ := rfl
  have rule := List.mem_of_getElem? last
  cases h with
  | shorthand kind around object =>
      refine ⟨1, mem_actions_of_offers shaped hv group rule rfl List.mem_cons_self (by decide) ?_ around ?_⟩
      · simp [Fits, kind, around, object]
      · rw [kind, object]
        decide
  | defaulted kind field around host outer object =>
      refine ⟨2, mem_actions_of_offers shaped hv group rule rfl
        (List.mem_cons_of_mem _ List.mem_cons_self) (by decide) ?_ around ?_⟩
      · simp [Fits, kind, field, around, host, outer, object]
      · rw [kind, host]
        decide
  | paired kind field around host outer object =>
      refine ⟨2, mem_actions_of_offers shaped hv group rule rfl
        (List.mem_cons_of_mem _ (List.mem_cons_of_mem _ List.mem_cons_self)) (by decide) ?_ around ?_⟩
      · simp [Fits, kind, field, around, host, outer, object]
      · rw [kind, host]
        decide

/-- The rules for names only declare names, so one that fits leads to such an action. -/
theorem exists_declaredName {group : List MarkRule} (hgroup : group ∈ [names, classNames]) {rule : MarkRule}
    (hrule : rule ∈ group) (unguarded : rule.guard = none) {pattern : Pattern}
    (hy : (pattern, action) ∈ rule.alternatives)
    (firm : pattern.reverse ≠ [] ∧ ∀ t ∈ pattern.reverse, t.isOptional = false)
    (fits : (ofNodes nodes).Fits pattern.reverse v.index) :
    ∃ category note steps, declaredName category note steps ∈ v.actions (ofNodes nodes) := by
  have listed : ∀ group ∈ [names, classNames], group ∈ groups := by simp [groups]
  have only : ∀ group ∈ [names, classNames], ∀ rule ∈ group, ∀ z ∈ rule.alternatives,
      z.2.isDeclaredName = true := by decide
  obtain ⟨rule', hrule', z, hz, mem⟩ := exists_action (a := ofNodes nodes) (listed _ hgroup) hrule unguarded
    hy ((matchesInward_iff shaped hv firm).mpr fits)
  obtain ⟨category, note, steps, same⟩ :=
    MarkAction.exists_declaredName (only _ hgroup rule' hrule' z hz)
  exact ⟨category, note, steps, same ▸ mem⟩

theorem declaredName_mem_actions {statement : Nat} (h : (ofNodes nodes).Names v.index statement) :
    ∃ category note steps, declaredName category note steps ∈ v.actions (ofNodes nodes) := by
  have first : names ∈ [names, classNames] := List.mem_cons_self
  have second : classNames ∈ [names, classNames] := List.mem_cons_of_mem _ List.mem_cons_self
  cases h with
  | ofVariable kind field around host _ =>
      refine exists_declaredName shaped hv first List.mem_cons_self rfl List.mem_cons_self (by decide) ?_
      simp [Fits, kind, field, around, host]
  | ofFunction kind field around host =>
      refine exists_declaredName shaped hv first (List.mem_cons_of_mem _ List.mem_cons_self) rfl
        List.mem_cons_self (by decide) ?_
      exact ⟨Step.accepts_under_kind.mpr ⟨kind, field⟩, _, around, Step.accepts_oneOf.mpr host⟩
  | ofMethod field around host =>
      refine exists_declaredName shaped hv first (List.mem_cons_of_mem _ List.mem_cons_self) rfl
        (List.mem_cons_of_mem _ List.mem_cons_self) (by decide) ?_
      simp [Fits, field, around, host]
  | ofClass kind field around host =>
      refine exists_declaredName shaped hv second List.mem_cons_self rfl List.mem_cons_self (by decide) ?_
      exact ⟨Step.accepts_under_oneOf.mpr ⟨kind, field⟩, _, around, Step.accepts_oneOf.mpr host⟩

end Visit

end SourceSurvey
