import SourceSurvey.Proofs.Marking.Failure
import SourceSurvey.Proofs.Marking.Tags
import SourceSurvey.Proofs.Tree.Patterns

/-!
# The labels of destructured fields

The walk keeps a binding for each object pattern that belongs to a parameter or to a variable, and looks it up
for the patterns and the fields inside. When a node is visited, exactly the patterns before it that a path
leads to are bound, each under the name of its path (`Markings.Bound`). So a field is labelled with its whole
path, however deep it stands, and a field that no path leads to is not labelled at all
(`Markings.tag_of_field`).
-/

namespace SourceSurvey

namespace Arena.RootKind

def category : RootKind → Category
  | parameter => .parameter
  | declared => .variableName

def note : RootKind → String
  | parameter => "param-field"
  | declared => "destructured"

end Arena.RootKind

/-- The binding hands on the path. -/
structure Binding.Shows (b : Binding) (origin : Arena.RootKind) (path : List String) : Prop where
  name : b.name = Text.join "." path
  category : b.category = origin.category
  note : b.note = origin.note

def Arena.Led (a : Arena) (pattern : Nat) : Prop :=
  ∃ start origin root keys, a.Rooted start origin root ∧ a.Reached start pattern keys

namespace Markings

open Arena MarkAction

/-- Bindings are those of patterns to which a path leads, and each such pattern among the first `k` nodes
has one. -/
structure Bound (nodes : List FlatNode) (k : Nat) (s : Markings) : Prop where
  led : ∀ q b, s.bindings.lookup q = some b → (Arena.ofNodes nodes).Led q
  shows : ∀ start origin root q keys, (Arena.ofNodes nodes).Rooted start origin root →
    (Arena.ofNodes nodes).Reached start q keys → q < k →
    ∃ b, s.bindings.lookup q = some b ∧ b.Shows origin (root :: keys)

variable {nodes : List FlatNode} (shaped : TreeShaped nodes) {resolve : Option (String → Option String)}
  {s t : Markings} {v : Visit} {action : MarkAction} {k start : Nat} {origin : RootKind} {root : String}
  {keys : List String} (hv : v ∈ Visit.list nodes)

theorem bound_init : Bound nodes 0 (init nodes.length) where
  led := nofun
  shows := nofun

include shaped hv

/-- A pattern to which a path leads gets a binding that hands on the path. -/
theorem Bound.exists_bindingOf (bound : Bound nodes k s) (here : v.index ≤ k)
    (rooted : (Arena.ofNodes nodes).Rooted start origin root)
    (reached : (Arena.ofNodes nodes).Reached start v.index keys) :
    ∃ b, bindingOf (Arena.ofNodes nodes) v s = .ok (some b) ∧ b.Shows origin (root :: keys) := by
  cases reached with
  | start =>
      cases rooted with
      | @parameter parameter _ around host =>
          have out := Visit.outward?_one_eq shaped hv
          rw [around, Option.map_some] at out
          have named := parameterName_eq host
          simp only [parameterKinds, List.mem_cons, List.not_mem_nil, or_false] at host
          refine ⟨⟨parameterName _ parameter, .parameter, "param-field", false⟩, ?_, named, rfl, rfl⟩
          simp [bindingOf, out, ancestor, host]
      | @declared declarator _ held around host =>
          have out := Visit.outward?_one_eq shaped hv
          rw [around, Option.map_some] at out
          refine ⟨⟨valueRoot _ declarator, .variableName, "destructured", s.isExported v.trail 2⟩, ?_, rfl, rfl,
            rfl⟩
          unfold valueRoot
          cases valued : (Arena.ofNodes nodes).childByField? declarator "value" <;>
            simp [bindingOf, out, ancestor, host, held, valued]
  | @under outer pair key _ keys inner beyond host keyed around held kind =>
      have out := Visit.outward?_one_eq shaped hv
      rw [around, Option.map_some] at out
      have out' := Visit.outward?_two_eq shaped hv
      rw [around, Option.bind_some, beyond, Option.map_some] at out'
      have before : outer < k := by
        have := (spec_of_parent? around).1
        have := (spec_of_parent? beyond).1
        omega
      obtain ⟨b, looked, shown⟩ := bound.shows _ _ _ _ _ rooted inner before
      refine ⟨{ b with name := b.name ++ "." ++ Text.compact ((Arena.ofNodes nodes).text key) }, ?_,
        ?_, shown.category, shown.note⟩
      · simp [bindingOf, out, out', ancestor, host, held, looked, keyed]
      · rw [join_path, ← shown.name]

theorem Bound.led_of_bindingOf {b : Binding} (bound : Bound nodes k s)
    (kind : (Arena.ofNodes nodes).kind v.index = "object_pattern")
    (h : bindingOf (Arena.ofNodes nodes) v s = .ok (some b)) : (Arena.ofNodes nodes).Led v.index := by
  obtain ⟨parent, out, cases⟩ := cases_of_bindingOf h
  rw [Visit.outward?_one_eq shaped hv, Option.map_eq_some_iff] at out
  obtain ⟨p, around, rfl⟩ := out
  rcases cases with ⟨host, -⟩ | ⟨host, held, -, -⟩ | ⟨host, held, keyed, x, outer, out', looked, -, -⟩
  · exact ⟨_, _, _, _, .parameter kind around (by simpa [parameterKinds, ancestor] using host), .start⟩
  · exact ⟨_, _, _, _, .declared kind held around host, .start⟩
  · obtain ⟨key, keyed⟩ := Option.isSome_iff_exists.mp keyed
    rw [Visit.outward?_two_eq shaped hv, around, Option.bind_some, Option.map_eq_some_iff] at out'
    obtain ⟨q, beyond, rfl⟩ := out'
    obtain ⟨start, origin, root, keys, rooted, reached⟩ := bound.led q outer looked
    exact ⟨start, origin, root, _, rooted, .under reached beyond host keyed around held kind⟩

/-- **No write of a visit unbinds a pattern or binds one to which no path leads.** -/
theorem Bound.write (mem : action ∈ v.actions (Arena.ofNodes nodes)) (bound : Bound nodes k s)
    (here : v.index ≤ k) (h : action.Write (Arena.ofNodes nodes) resolve v s t) : Bound nodes k t := by
  cases h with
  | exported | link | around | statement | attend | rename | component => exact ⟨bound.led, bound.shows⟩
  | path =>
      unfold MarkAction.writePath
      split
      · exact ⟨bound.led, bound.shows⟩
      · exact ⟨bound.led, bound.shows⟩
  | @bind _ binding made =>
      constructor
      · intro q b looked
        rw [List.lookup_cons] at looked
        split at looked
        · next own =>
          rw [beq_iff_eq.mp own]
          exact bound.led_of_bindingOf shaped hv (Visit.place_of_objectPattern hv mem) made
        · exact bound.led q b looked
      · intro start origin root q keys rooted reached before
        rw [List.lookup_cons]
        split
        · next own =>
          rw [beq_iff_eq.mp own] at reached
          obtain ⟨b, made', shown⟩ := bound.exists_bindingOf shaped hv here rooted reached
          rw [made] at made'
          cases made'
          exact ⟨binding, rfl, shown⟩
        · exact bound.shows start origin root q keys rooted reached before

theorem Bound.perform (mem : action ∈ v.actions (Arena.ofNodes nodes)) (bound : Bound nodes k s)
    (here : v.index ≤ k) (h : action.perform (Arena.ofNodes nodes) resolve v s = .ok t) : Bound nodes k t :=
  keeps_perform (fun _ _ bound write => bound.write shaped hv mem here write) bound h

theorem Bound.bind (mem : objectPattern ∈ v.actions (Arena.ofNodes nodes)) (bound : Bound nodes v.index s)
    (h : objectPattern.perform (Arena.ofNodes nodes) resolve v s = .ok t) : Bound nodes (v.index + 1) t := by
  have kept := bound.perform shaped hv mem (Nat.le_refl _) h
  refine ⟨kept.led, ?_⟩
  intro start origin root q keys rooted reached before
  rcases Nat.lt_succ_iff_lt_or_eq.mp before with before | rfl
  · exact kept.shows start origin root q keys rooted reached before
  · obtain ⟨b, made, shown⟩ := bound.exists_bindingOf shaped hv (Nat.le_refl _) rooted reached
    simp only [MarkAction.perform, made] at h
    cases h
    exact ⟨b, by simp, shown⟩

/-- **After its visit a pattern is bound if a path leads to it.** -/
theorem Bound.visit (bound : Bound nodes v.index s)
    (visited : Markings.visit (Arena.ofNodes nodes) resolve s v = .ok t) : Bound nodes (v.index + 1) t := by
  by_cases kind : (Arena.ofNodes nodes).kind v.index = "object_pattern"
  · have mem := Visit.objectPattern_mem_actions hv kind
    refine reaches_foldlM (p := Bound nodes v.index) ?_ ?_ mem ?_ bound visited
    · intro action mem s t bound performed
      exact bound.perform shaped hv mem (Nat.le_refl _) performed
    · intro action mem s t _ bound performed
      exact bound.perform shaped hv mem (Nat.le_succ _) performed
    · intro s t bound performed
      exact bound.bind shaped hv mem performed
  · have kept : Bound nodes v.index t := by
      refine keeps_foldlM ?_ bound visited
      intro action mem s t bound performed
      exact bound.perform shaped hv mem (Nat.le_refl _) performed
    refine ⟨kept.led, ?_⟩
    intro start origin root q keys rooted reached before
    rcases Nat.lt_succ_iff_lt_or_eq.mp before with before | rfl
    · exact kept.shows start origin root q keys rooted reached before
    · exact absurd (reached.kind rooted) kind

end Markings

/-! ## Fields -/

def MarkAction.isPatternField : MarkAction → Bool
  | patternField _ => true
  | _ => false

theorem Arena.FieldOf.not_namesVariable {a : Arena} {i pattern : Nat} (h : a.FieldOf i pattern) :
    ¬ a.NamesVariable i := by
  rintro ⟨-, d, around, declarator⟩
  obtain ⟨p, around', host⟩ := h.around
  obtain rfl := Option.some.inj (around.symm.trans around')
  rw [declarator] at host
  exact absurd host (by decide)

namespace Visit

open Arena MarkAction MarkRule

variable {nodes : List FlatNode} {v : Visit} (shaped : TreeShaped nodes) (hv : v ∈ list nodes)
  {pattern : Nat} {name : String}

include shaped hv

/-- A visit of a field does one thing, and knows the pattern of the field. -/
theorem actions_of_fieldOf (h : (ofNodes nodes).FieldOf v.index pattern) :
    ∃ steps, v.actions (ofNodes nodes) = [patternField steps] ∧
      v.trail.outward? steps = some ((ofNodes nodes).ancestor pattern) := by
  obtain ⟨steps, mem, all⟩ := patternField_mem_actions shaped hv h
  obtain ⟨pattern', h', out⟩ := place_of_patternField shaped hv mem
  obtain rfl := h.unique h'
  have others : ∀ g ∈ groups.take 6 ++ groups.drop 7, ∀ rule ∈ g, ∀ y ∈ rule.alternatives,
      y.2.isPatternField = false := by decide
  refine ⟨steps, actions_eq_singleton (n := 6) rfl ?_ mem, out⟩
  intro g hg rule hrule y hy performed
  have other := others g hg rule hrule y hy
  rw [all _ performed] at other
  cases other

theorem fieldName_of_fieldNamed (h : (ofNodes nodes).FieldNamed v.index pattern name) :
    fieldName (ofNodes nodes) v = name := by
  cases h with
  | shorthand _ held => simp [fieldName, held]
  | defaulted _ held => simp [fieldName, held]
  | paired _ held around _ keyed =>
      have out := outward?_one_eq shaped hv
      rw [around, Option.map_some] at out
      simp [fieldName, held, out, ancestor, keyed]

end Visit

namespace Markings

open Arena MarkAction

section Fields

variable {nodes : List FlatNode} (shaped : TreeShaped nodes) {resolve : Option (String → Option String)}
  {s : Markings} (h : ofNodes nodes resolve = .ok s) {field pattern : Nat}

include shaped h

/-- What is said of a field is what the binding of its pattern says. -/
theorem exists_tag_of_fieldOf (held : (Arena.ofNodes nodes).FieldOf field pattern) :
    ∃ v ∈ Visit.list nodes, v.index = field ∧ ∃ u, Bound nodes field u ∧ (s.mark field).tag =
      ((u.bindings.lookup pattern).map fun b =>
        (⟨some b.category, b.note, b.name ++ "." ++ fieldName (Arena.ofNodes nodes) v⟩ : Tag)).getD {} := by
  obtain ⟨p, around, -⟩ := held.around
  obtain ⟨v, hv, rfl⟩ := Visit.exists_visit (lt_length_of_parent? around)
  refine ⟨v, hv, rfl, ?_⟩
  obtain ⟨u, t, begun, bound, visited, steady⟩ := exists_visited (p := Bound nodes) shaped bound_init
    (fun w hw s t _ bound visited => bound.visit shaped hw visited) h hv
  obtain ⟨steps, only, out⟩ := Visit.actions_of_fieldOf shaped hv held
  rw [visit_eq_perform only] at visited
  refine ⟨u, bound, ?_⟩
  rw [steady.tag held.not_namesVariable, tag_of_perform (begun.present hv) rfl visited, if_pos rfl,
    (begun.blank v.index (Nat.le_refl _)).tag]
  cases looked : u.bindings.lookup pattern <;>
    simp [tag?, gives?, MarkAction.category?, out, ancestor, looked]

/-- **A destructured field is labelled with its whole path.** The path starts with the name of what is taken
apart, goes on with the keys of the patterns around the field, and ends with the name of the field. Of a field
to which no such path leads nothing is said. -/
theorem tag_of_field :
    (∀ start kind root pattern keys field name, (Arena.ofNodes nodes).Rooted start kind root →
      (Arena.ofNodes nodes).Reached start pattern keys →
      (Arena.ofNodes nodes).FieldNamed field pattern name →
      (s.mark field).tag = ⟨some kind.category, kind.note, Text.join "." (root :: (keys ++ [name]))⟩) ∧
    ∀ field pattern, (Arena.ofNodes nodes).FieldOf field pattern →
      (¬ ∃ start kind root keys, (Arena.ofNodes nodes).Rooted start kind root ∧
        (Arena.ofNodes nodes).Reached start pattern keys) →
      (s.mark field).tag = {} := by
  constructor
  · intro start kind root pattern keys field name rooted reached named
    obtain ⟨v, hv, rfl, u, bound, same⟩ := exists_tag_of_fieldOf shaped h named.fieldOf
    have before : pattern < v.index := by
      cases named with
      | shorthand _ _ around _ => exact (spec_of_parent? around).1
      | defaulted _ _ around _ outer _ => exact Nat.lt_trans (spec_of_parent? outer).1 (spec_of_parent? around).1
      | paired _ _ around _ _ outer _ => exact Nat.lt_trans (spec_of_parent? outer).1 (spec_of_parent? around).1
    obtain ⟨b, looked, shown⟩ := bound.shows start kind root pattern keys rooted reached before
    rw [same, looked, Visit.fieldName_of_fieldNamed shaped hv named, Option.map_some, Option.getD_some,
      shown.name, shown.category, shown.note, join_path]
  · intro field pattern held apart
    obtain ⟨v, hv, rfl, u, bound, same⟩ := exists_tag_of_fieldOf shaped h held
    cases looked : u.bindings.lookup pattern with
    | none =>
        rw [same, looked]
        rfl
    | some b => exact absurd (bound.led pattern b looked) apart

end Fields

/-- A parameter that is taken apart twice over, and one in brackets:
`({ user: { name } }: Props, [{ x }])`. -/
def nestedParameters : List FlatNode :=
  [⟨0, "formal_parameters", "(\x7b user: \x7b name \x7d \x7d: Props, [\x7b x \x7d])", 1, 1, 0, 36, true, none⟩,
   ⟨1, "required_parameter", "\x7b user: \x7b name \x7d \x7d: Props", 1, 1, 1, 26, true, none⟩,
   ⟨2, "object_pattern", "\x7b user: \x7b name \x7d \x7d", 1, 1, 1, 19, true, some "pattern"⟩,
   ⟨3, "pair_pattern", "user: \x7b name \x7d", 1, 1, 3, 17, true, none⟩,
   ⟨4, "property_identifier", "user", 1, 1, 3, 7, false, some "key"⟩,
   ⟨4, "object_pattern", "\x7b name \x7d", 1, 1, 9, 17, true, some "value"⟩,
   ⟨5, "shorthand_property_identifier_pattern", "name", 1, 1, 11, 15, false, none⟩,
   ⟨2, "type_annotation", ": Props", 1, 1, 19, 26, true, some "type"⟩,
   ⟨1, "required_parameter", "[\x7b x \x7d]", 1, 1, 28, 35, true, none⟩,
   ⟨2, "array_pattern", "[\x7b x \x7d]", 1, 1, 28, 35, true, some "pattern"⟩,
   ⟨3, "object_pattern", "\x7b x \x7d", 1, 1, 29, 34, true, none⟩,
   ⟨4, "shorthand_property_identifier_pattern", "x", 1, 1, 31, 32, false, none⟩]

/-- The field of the inner pattern has its whole path, and the one in brackets has none. -/
theorem tag_of_field_nestedParameters : ∃ s, ofNodes nestedParameters none = .ok s ∧
    (s.mark 6).tag = ⟨some .parameter, "param-field", "Props.user.name"⟩ ∧ (s.mark 11).tag = {} := by
  have shaped : TreeShaped nestedParameters := ⟨by decide, by decide⟩
  obtain ⟨s, h⟩ : ∃ s, ofNodes nestedParameters none = .ok s := exists_ofNodes (by decide) (by decide) none
  refine ⟨s, h, ?_⟩
  obtain ⟨labelled, plain⟩ := tag_of_field shaped h
  have rooted : (Arena.ofNodes nestedParameters).Rooted 2 .parameter
      ((Arena.ofNodes nestedParameters).parameterRoot 1) := .parameter rfl rfl (by decide)
  have keyed : (Arena.ofNodes nestedParameters).childByField? 3 "key" = some 4 := by decide +kernel
  have reached : (Arena.ofNodes nestedParameters).Reached 2 5 _ := .under .start rfl rfl keyed rfl rfl rfl
  have named : (Arena.ofNodes nestedParameters).FieldNamed 6 5 _ := .shorthand rfl (by decide) rfl rfl
  have root : (Arena.ofNodes nestedParameters).parameterRoot 1 = "Props" := by decide +kernel
  have key : Text.compact ((Arena.ofNodes nestedParameters).text 4) = "user" := by decide
  have own : Text.compact ((Arena.ofNodes nestedParameters).text 6) = "name" := by decide
  constructor
  · rw [labelled 2 .parameter _ 5 _ 6 _ rooted reached named, root, key, own]
    decide
  · refine plain 11 10 (.shorthand rfl rfl rfl) ?_
    rintro ⟨start, kind, root, keys, rooted, reached⟩
    have around : (Arena.ofNodes nestedParameters).parent? 10 = some 9 := rfl
    -- the pattern in brackets is neither at the start of a path nor under a key
    cases reached with
    | start =>
        cases rooted with
        | parameter _ around' host =>
            obtain rfl := Option.some.inj (around.symm.trans around')
            exact absurd host (by decide)
        | declared _ held => exact absurd held (by decide)
    | under _ _ _ _ _ held => exact absurd held (by decide)

end Markings

end SourceSurvey
