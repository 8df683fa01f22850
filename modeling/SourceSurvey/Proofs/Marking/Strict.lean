import SourceSurvey.Proofs.Marking.Writes
import SourceSurvey.Proofs.Tree.Strict

/-!
# The strict walk

A walk that takes nothing for granted: a node that an action or a guard needs around the visited one has to
be there, every index has to be one of the list, and every search has to come to its end. Only where the walk
itself is prepared to find nothing may there be nothing. Whatever the depths of the nodes are, a rule chooses
its action without missing anything (`Strict.chosen_eq`), and the texts and names that actions put together
are found; the binding of an object pattern alone can miss what it asks for, and does so where it does on the
walk (`Strict.bindingOf_eq`).
-/

namespace SourceSurvey

def Missing.ofPattern (e : MissingPattern) : Missing := .pattern e.node

namespace Strict

def around (v : Visit) (k : Nat) : Except Missing Ancestor :=
  match v.trail.outward? k with
  | some x => pure x
  | none => throw (.around v.index k)

/-! ## Guards and rules -/

def holds (a : Arena) (v : Visit) : Guard → Except Missing Bool
  | .nameless => do
    let inner ← children a v.index
    return !inner.any fun c => tagKinds.contains c.node.kind
  | .outermostChain => do
    let node ← entry a.nodes v.index
    return Guard.isOutermost node.field (v.trail.nodes.drop 1)
  | .callbackPassed => do
    let arguments ← around v 1
    let inner ← children a arguments.index
    return inner.any fun c => callbackKinds.contains c.node.kind

/-- The action of the first alternative that fits and is let through; only where one fits the guard is asked. -/
def choose (granted : Except Missing Bool) (path : List PathStep) :
    List (Pattern × MarkAction) → Except Missing (Option MarkAction)
  | [] => pure none
  | (pattern, action) :: rest =>
    if Pattern.matchesInward pattern.reverse path then do
      if ← granted then return some action else choose granted path rest
    else choose granted path rest

def chosen (a : Arena) (v : Visit) (rule : MarkRule) : Except Missing (Option MarkAction) :=
  let granted := match rule.guard with
    | some g => holds a v g
    | none => pure true
  choose granted v.trail.inward rule.alternatives

/-! ## Actions -/

def siblings (a : Arena) (parameter : Nat) : Except Missing (List Found) := do
  match ← entry a.parents parameter with
  | some formal =>
    let _ ← entry a.nodes formal
    let inner ← children a formal
    return inner.filter fun c => Text.endsWith "_parameter" c.node.kind
  | none => return []

def parameterName (a : Arena) (parameter : Nat) : Except Missing String := do
  let annotation ← childOfKind a parameter "type_annotation"
  let typeName := match annotation with
    | some t => String.ofList ((Text.compact t.node.text).toList.dropWhile (· == ':'))
    | none => ""
  if typeName != "" then return typeName
  else
    let parameters ← siblings a parameter
    return "arg" ++ toString ((parameters.findIdx? (·.index == parameter)).getD 0)

def tagLabel (a : Arena) (i : Nat) (note : String) : Except Missing String := do
  let node ← entry a.nodes i
  if Text.contains "fragment" note then return "Fragment"
  else if Arena.chainKinds.contains node.kind then chainText a i
  else return Text.compact node.text

/-- The binding of an object pattern. The value of a pair asks for the pattern around the pair. -/
def bindingOf (a : Arena) (v : Visit) (s : Markings) : Except Missing (Option Binding) := do
  let node ← entry a.nodes v.index
  match v.trail.outward? 1 with
  | none => return none
  | some parent =>
    if parent.kind == "required_parameter" || parent.kind == "optional_parameter" then
      let name ← parameterName a parent.index
      return some ⟨name, .parameter, "param-field", false⟩
    else if parent.kind == "variable_declarator" && node.field == some "name" then
      let value ← childByField a parent.index "value"
      let name := match value with
        | some value => Text.compact value.node.text
        | none => "_"
      return some ⟨name, .variableName, "destructured", s.isExported v.trail 2⟩
    else if parent.kind == "pair_pattern" && node.field == some "value" then
      match v.trail.outward? 2 with
      | none => throw (.pattern v.index)
      | some outer =>
        let key ← childByField a parent.index "key"
        match s.bindings.lookup outer.index, key with
        | some binding, some key =>
          return some { binding with name := binding.name ++ "." ++ Text.compact key.node.text }
        | _, _ => return none
    else return none

def fieldName (a : Arena) (v : Visit) : Except Missing String := do
  let node ← entry a.nodes v.index
  if node.field == some "value" then
    let pair ← around v 1
    match ← childByField a pair.index "key" with
    | some key => return Text.compact key.node.text
    | none => return Text.compact node.text
  else return Text.compact node.text

def importSource (a : Arena) (i : Nat) : Except Missing (Option Found) := do
  match ← childByField a i "source" with
  | some source => return some source
  | none =>
    match ← childOfKind a i "import_require_clause" with
    | some clause => childByField a clause.index "source"
    | none => return none

/-- What an action does to the markings. An action that is not listed asks for the visited node only. -/
def perform (a : Arena) (resolve : Option (String → Option String)) (v : Visit) (s : Markings) :
    MarkAction → Except Missing Markings
  | .importStatement => do
    let s := match ← importSource a v.index with
      | some source => s.change v.index fun m => { m with link := some source.index }
      | none => s
    return s.attend v.index .imported "import-declaration" ""
  | .declaredName category note steps => do
    let node ← entry a.nodes v.index
    let declaration ← around v 1
    let s := s.change declaration.index fun m => { m with link := some v.index }
    let exported := s.isExported v.trail steps
    let outer ← if exported then (List.range' 1 steps).mapM (around v) else pure []
    let s := (s.exportAll outer).change v.index fun m => { m with exported }
    return s.attend v.index category note (Text.compact node.text)
  | .call field note => do
    let label ← match ← childByField a v.index field with
      | some callee => chainText a callee.index
      | none => pure ""
    return s.attend v.index .call note label
  | .component note => do
    let label ← tagLabel a v.index note
    return s.attend v.index .component note label
  | .returnedComponent note => do
    let label ← tagLabel a v.index note
    let s := s.attend v.index .component note label
    match s.hostName? v.trail.nodes with
    | none => return s
    | some name =>
      let s := s.change v.index fun m => { m with link := some name }
      return { s with components := if s.components.contains name then s.components else s.components ++ [name] }
  | .propertyChain => do
    let label ← chainText a v.index
    return s.attend v.index .property "property" label
  | .objectPattern => do
    match ← bindingOf a v s with
    | some binding => return { s with bindings := (v.index, binding) :: s.bindings }
    | none => return s
  | .patternField steps =>
    match (v.trail.outward? steps).bind fun pattern => s.bindings.lookup pattern.index with
    | none => pure s
    | some binding => do
      let name ← fieldName a v
      let s := s.change v.index fun m => { m with exported := binding.exported }
      return s.attend v.index binding.category binding.note (binding.name ++ "." ++ name)
  | .functionValue note => do
    let declarator ← around v 1
    let mark ← entry s.marks declarator.index
    match mark.link with
    | none => return s
    | some name =>
      let _ ← entry s.marks name
      return s.change name fun m => { m with note, exported := m.exported || mark.exported }
  | action => do
    let _ ← entry a.nodes v.index
    (action.perform a resolve v s).mapError Missing.ofPattern

/-! ## The walk -/

/-- Visits one node. All that is open has to have a mark. -/
def visit (a : Arena) (resolve : Option (String → Option String)) (s : Markings) (v : Visit) :
    Except Missing Markings := do
  v.trail.nodes.forM fun x => discard (entry s.marks x.index)
  MarkRule.groups.foldlM (fun s group => do
    match ← group.findSomeM? (chosen a v) with
    | some action => perform a resolve v s action
    | none => return s) s

def ofNodes (nodes : List FlatNode) (resolve : Option (String → Option String)) : Except Missing Markings :=
  (Visit.list nodes).foldlM (visit (Arena.ofNodes nodes) resolve) (Markings.init nodes.length)

/-! ## Guards and rules find what they ask for -/

variable {nodes : List FlatNode} {v : Visit} {k : Nat} {x : Ancestor}

theorem around_eq (out : v.trail.outward? k = some x) : around v k = pure x := by
  rw [around, out]

theorem exists_outward?_one {steps : List Step} (hv : v.trail.InStep) (inside : Pattern.insideOther steps = true)
    (fits : Pattern.matchesInward steps v.trail.inward = true) : ∃ x, v.trail.outward? 1 = some x := by
  obtain ⟨p, q, outer, path, -⟩ := Pattern.exists_parent_of_matches inside fits
  rw [hv] at path
  obtain ⟨x, rest, nodes, -, tail⟩ := List.map_eq_cons_iff.mp path
  obtain ⟨parent, rest, rfl, -, -⟩ := List.map_eq_cons_iff.mp tail
  exact ⟨parent, by rw [Trail.outward?, nodes]; rfl⟩

section Rules

variable (hv : v ∈ Visit.list nodes)

include hv

theorem index_lt_of_mem (hx : x ∈ v.trail.nodes) : x.index < nodes.length := by
  obtain ⟨present, outer, trail, earlier⟩ := Visit.exists_outer hv
  rw [trail] at hx
  rcases List.mem_cons.mp hx with rfl | hx
  · exact present
  · obtain ⟨j, before, rfl⟩ := earlier x hx
    exact Nat.lt_trans before present

theorem index_lt_of_outward? (out : v.trail.outward? k = some x) : x.index < nodes.length :=
  index_lt_of_mem hv (List.mem_of_getElem? out)

theorem holds_eq {g : Guard} (inside : g = .callbackPassed → ∃ x, v.trail.outward? 1 = some x) :
    holds (Arena.ofNodes nodes) v g = pure (g.holds (Arena.ofNodes nodes) v) := by
  have present := (Visit.exists_outer hv).1
  cases g with
  | nameless =>
      simp only [holds, children_eq present, pure_bind, List.any_map]
      rfl
  | outermostChain =>
      rw [holds, entry_nodes present, pure_bind]
      rfl
  | callbackPassed =>
      obtain ⟨arguments, out⟩ := inside rfl
      simp only [holds, around_eq out, children_eq (index_lt_of_outward? hv out), pure_bind, List.any_map,
        Guard.holds, out]
      rfl

end Rules

theorem choose_eq {granted : Except Missing Bool} {path : List PathStep}
    {alternatives : List (Pattern × MarkAction)} {answer : Bool}
    (asked : ∀ y ∈ alternatives, Pattern.matchesInward y.1.reverse path = true → granted = pure answer) :
    choose granted path alternatives =
      pure ((alternatives.find? fun y => Pattern.matchesInward y.1.reverse path && answer).map Prod.snd) := by
  induction alternatives with
  | nil => rfl
  | cons first rest ih =>
      obtain ⟨pattern, action⟩ := first
      have later := ih fun y hy => asked y (List.mem_cons_of_mem _ hy)
      rw [choose]
      split
      · next fits =>
        obtain rfl := asked _ List.mem_cons_self fits
        rw [pure_bind]
        cases answer with
        | true => simp [fits]
        | false => simpa [fits] using later
      · next fits => simpa [fits] using later

/-- **A rule chooses without missing anything.** -/
theorem chosen_eq (hv : v ∈ Visit.list nodes) {group : List MarkRule} (hgroup : group ∈ MarkRule.groups)
    {rule : MarkRule} (hrule : rule ∈ group) : chosen (Arena.ofNodes nodes) v rule =
      pure (rule.choose (Guard.holds (Arena.ofNodes nodes) v) v.trail.inward) := by
  rw [Rule.choose_eq_find?]
  refine choose_eq ?_
  intro y hy fits
  cases guard : rule.guard with
  | none => rfl
  | some g =>
      refine holds_eq hv ?_
      rintro rfl
      exact exists_outward?_one (Visit.inStep_list hv)
        ((MarkRule.spares_root group hgroup rule hrule y hy).2.2 (Or.inr guard)) fits

/-! ## Actions find what they ask for -/

section Actions

variable (hv : v ∈ Visit.list nodes) {s : Markings} {i : Nat}

theorem siblings_eq (present : i < nodes.length) : siblings (Arena.ofNodes nodes) i =
    pure ((match (Arena.ofNodes nodes).parent? i with
      | some formal => ((Arena.ofNodes nodes).children formal).filter fun j =>
          Text.endsWith "_parameter" ((Arena.ofNodes nodes).kind j)
      | none => []).map (found (Arena.ofNodes nodes))) := by
  rw [siblings, entry_parents present, pure_bind]
  cases around : (Arena.ofNodes nodes).parent? i with
  | none => rfl
  | some formal =>
      have before := (Arena.spec_of_parent? around).1
      have listed : formal < nodes.length := by omega
      simp only [entry_nodes listed, children_eq listed, pure_bind, List.filter_map]
      rfl

theorem parameterName_eq (present : i < nodes.length) : parameterName (Arena.ofNodes nodes) i =
    pure (SourceSurvey.parameterName (Arena.ofNodes nodes) i) := by
  have same : (fun j => (found (Arena.ofNodes nodes) j).index == i) = fun j => j == i := rfl
  simp only [parameterName, SourceSurvey.parameterName, childOfKind_eq present, siblings_eq present, pure_bind,
    List.findIdx?_map, Function.comp_def, same, apply_ite (pure : String → Except Missing String)]
  cases (Arena.ofNodes nodes).childOfKind? i "type_annotation" with
  | none => rfl
  | some t => rfl

theorem tagLabel_eq (present : i < nodes.length) (note : String) : tagLabel (Arena.ofNodes nodes) i note =
    pure (MarkAction.tagLabel (Arena.ofNodes nodes) i note) := by
  simp only [tagLabel, MarkAction.tagLabel, entry_nodes present, chainText_eq present, pure_bind, kind_found,
    text_found, apply_ite (pure : String → Except Missing String)]
  rfl

def sourceOf? (a : Arena) (i : Nat) : Option Nat :=
  match a.childByField? i "source" with
  | some j => some j
  | none => (a.childOfKind? i "import_require_clause").bind fun c => a.childByField? c "source"

theorem importSource_eq (present : i < nodes.length) : importSource (Arena.ofNodes nodes) i =
    pure ((sourceOf? (Arena.ofNodes nodes) i).map (found (Arena.ofNodes nodes))) := by
  rw [importSource, childByField_eq present, pure_bind, sourceOf?]
  cases (Arena.ofNodes nodes).childByField? i "source" with
  | some j => rfl
  | none =>
      simp only [Option.map_none, childOfKind_eq present, pure_bind]
      cases clause : (Arena.ofNodes nodes).childOfKind? i "import_require_clause" with
      | none => rfl
      | some c => exact childByField_eq (lt_length_of_mem_children (List.mem_of_find?_eq_some clause)) "source"

theorem lt_length_of_sourceOf? {j : Nat} (h : sourceOf? (Arena.ofNodes nodes) i = some j) : j < nodes.length := by
  unfold sourceOf? at h
  split at h
  · next held =>
    cases h
    exact lt_length_of_mem_children (List.mem_of_find?_eq_some held)
  · obtain ⟨clause, -, held⟩ := Option.bind_eq_some_iff.mp h
    exact lt_length_of_mem_children (List.mem_of_find?_eq_some held)

/-- What is exported with a name stands on the trail, step by step. -/
theorem mapM_around {steps : Nat} (out : v.trail.outward? steps = some x) :
    (List.range' 1 steps).mapM (around v) = pure ((v.trail.nodes.drop 1).take steps) := by
  have long : steps < v.trail.nodes.length := (List.getElem?_eq_some_iff.mp out).1
  rw [mapM_eq (g := fun k => v.trail.nodes.getD k default)]
  · congr 1
    apply List.ext_getElem
    · simp
      omega
    · intro k hk _
      rw [List.length_map, List.length_range'] at hk
      have within : k + 1 < v.trail.nodes.length := by omega
      simp [Nat.add_comm 1 k, List.getElem?_eq_getElem within]
  · intro k hk
    obtain ⟨-, upper⟩ := List.mem_range'_1.mp hk
    refine around_eq ?_
    have within : k < v.trail.nodes.length := by omega
    rw [Trail.outward?, List.getD_eq_getElem?_getD, List.getElem?_eq_getElem within]
    rfl

include hv

/-- **The binding of an object pattern misses what the walk misses, and nothing else.** -/
theorem bindingOf_eq : bindingOf (Arena.ofNodes nodes) v s =
    (MarkAction.bindingOf (Arena.ofNodes nodes) v s).mapError Missing.ofPattern := by
  rw [bindingOf, entry_nodes (Visit.exists_outer hv).1, pure_bind, MarkAction.bindingOf]
  cases out : v.trail.outward? 1 with
  | none => rfl
  | some parent =>
      have present := index_lt_of_outward? hv out
      simp only [field_found, parameterName_eq present, childByField_eq present, pure_bind]
      cases parent.kind == "required_parameter" || parent.kind == "optional_parameter" with
      | true => rfl
      | false =>
      cases parent.kind == "variable_declarator" && (Arena.ofNodes nodes).field v.index == some "name" with
      | true =>
          cases (Arena.ofNodes nodes).childByField? parent.index "value" with
          | none => rfl
          | some value => rfl
      | false =>
      cases parent.kind == "pair_pattern" && (Arena.ofNodes nodes).field v.index == some "value" with
      | false => rfl
      | true =>
          cases v.trail.outward? 2 with
          | none => rfl
          | some outer =>
              simp only [Bool.false_eq_true, reduceIte]
              cases s.bindings.lookup outer.index with
              | none => rfl
              | some binding =>
                  cases (Arena.ofNodes nodes).childByField? parent.index "key" with
                  | none => rfl
                  | some key => rfl

theorem fieldName_eq (out : v.trail.outward? 1 = some x) : fieldName (Arena.ofNodes nodes) v =
    pure (MarkAction.fieldName (Arena.ofNodes nodes) v) := by
  simp only [fieldName, MarkAction.fieldName, entry_nodes (Visit.exists_outer hv).1, around_eq out,
    childByField_eq (index_lt_of_outward? hv out), pure_bind, field_found, text_found, out]
  by_cases held : ((Arena.ofNodes nodes).field v.index == some "value") = true
  · simp only [held, reduceIte]
    cases (Arena.ofNodes nodes).childByField? x.index "key" with
    | none => rfl
    | some key => rfl
  · simp only [held, Bool.false_eq_true, reduceIte]

end Actions

end Strict

end SourceSurvey
