import SourceSurvey.Proofs.Marking.Places
import SourceSurvey.Proofs.Marking.Steps
import SourceSurvey.Proofs.Tree.Constructs
import SourceSurvey.Report.Attention

/-!
# Rules at the ends of constructs

The rules that note an opening or a closing are few, and they can be listed by the places at which they apply
(`MarkRule.endsOf`). These are ends of constructs (`Visit.exists_delimits`), and to an end nothing else
applies (`Visit.suits_of_delimits`): the rule for properties passes over the names of tags. So an end gets a
note of its side and a label that is not empty (`MarkAction.gives?_of_suits`).
-/

namespace SourceSurvey

def Side.speaks : Side → String → Bool
  | opening => AttentionRow.opens
  | closing => AttentionRow.closes

/-! ## Rules with their guards -/

theorem Pattern.matchesInward_front {front back : List Step} {path : List PathStep}
    (firm : ∀ t ∈ front, t.isOptional = false) (fits : matchesInward (front ++ back) path = true) :
    matchesInward front path = true := by
  induction front generalizing path with
  | nil => rw [matchesInward]
  | cons s front ih =>
      have hs := firm s List.mem_cons_self
      cases path with
      | nil =>
          rw [List.cons_append, matchesInward, hs, Bool.false_and] at fits
          cases fits
      | cons p path =>
          obtain ⟨accepted, fits⟩ := (matchesInward_cons hs).mp fits
          exact (matchesInward_cons hs).mpr ⟨accepted, ih (fun t ht => firm t (List.mem_cons_of_mem s ht)) fits⟩

namespace MarkRule

open Step

/-- All alternatives with the guards of their rules and with their steps from the innermost outwards. -/
def guarded : List (Option Guard × List Step × MarkAction) :=
  groups.flatten.flatMap fun rule => rule.alternatives.map fun y => (rule.guard, y.1.reverse, y.2)

/-- The places at which a side is spoken of, each with a guard. -/
def endsOf (side : Side) : List (Option Guard × List Step) :=
  [ (none, [oneOf tagKinds, kind (Bracket.tag.delimiter side)]),
    (some .nameless, [kind (Bracket.tag.delimiter side)]),
    (none, [kind (Bracket.paren.delimiter side), kind "formal_parameters", kind "arrow_function"]),
    (some .callbackPassed, [kind (Bracket.paren.delimiter side), kind "arguments", kind "call_expression"]),
    (none, [kind (Bracket.brace.delimiter side), kind "object"]),
    (none, [kind (Bracket.brace.delimiter side), oneOf ["statement_block", "class_body"]]) ]

theorem firm_endsOf (side : Side) : ∀ e ∈ endsOf side, e.2 ≠ [] ∧ ∀ t ∈ e.2, t.isOptional = false := by
  cases side <;> decide

/-- An alternative that speaks of a side is one for such a place, or for some of those places only. -/
theorem exists_endsOf (side : Side) : ∀ y ∈ guarded, y.2.2.note?.any side.speaks = true →
    ∃ e ∈ endsOf side, e.1 = y.1 ∧ e.2 <+: y.2.1 := by
  cases side <;> decide +kernel

theorem exists_of_endsOf (side : Side) : ∀ e ∈ endsOf side, ∃ group ∈ groups, ∃ rule ∈ group,
    rule.guard = e.1 ∧ ∃ y ∈ rule.alternatives, y.1.reverse = e.2 := by
  cases side <;> decide +kernel

end MarkRule

namespace Visit

open Arena MarkAction MarkRule

variable {action : MarkAction} {side : Side} {host i p : Nat}

theorem exists_guarded {a : Arena} {v : Visit} (h : action ∈ v.actions a) :
    ∃ guard steps, (guard, steps, action) ∈ guarded ∧ guard.all (Guard.holds a v) = true ∧
      Pattern.matchesInward steps v.trail.inward = true := by
  obtain ⟨group, hgroup, chosen⟩ := List.mem_filterMap.mp h
  obtain ⟨rule, hrule, chosen⟩ := List.exists_of_findSome?_eq_some chosen
  rw [Rule.choose_eq_find?, Option.map_eq_some_iff] at chosen
  obtain ⟨⟨pattern, y⟩, found, rfl⟩ := chosen
  have accepted := List.find?_some found
  rw [Bool.and_eq_true] at accepted
  obtain ⟨fits, granted⟩ := accepted
  refine ⟨rule.guard, pattern.reverse, ?_, granted, fits⟩
  exact List.mem_flatMap.mpr ⟨rule, List.mem_flatten.mpr ⟨group, hgroup, hrule⟩,
    List.mem_map.mpr ⟨(pattern, y), List.mem_of_find?_eq_some found, rfl⟩⟩

theorem holds_nameless {a : Arena} {v : Visit} :
    Guard.holds a v .nameless = true ↔ a.tagNames v.index = [] := by
  rw [Guard.holds, tagNames, List.filter_eq_nil_iff, Bool.not_eq_true', List.any_eq_false]

variable {nodes : List FlatNode} {v : Visit} (shaped : TreeShaped nodes) (hv : v ∈ list nodes)

include shaped hv

theorem holds_callbackPassed (around : (ofNodes nodes).parent? v.index = some p) :
    Guard.holds (ofNodes nodes) v .callbackPassed = true ↔
      ∃ j ∈ (ofNodes nodes).children p, (ofNodes nodes).kind j ∈ callbackKinds := by
  rw [Guard.holds, outward?_one_eq shaped hv, around]
  simp [ancestor]

/-! ## Places of ends -/

theorem delimits_of_endsOf (bracketed : (ofNodes nodes).Bracketed) {e : Option Guard × List Step}
    (mem : e ∈ endsOf side) (granted : e.1.all (Guard.holds (ofNodes nodes) v) = true)
    (fits : (ofNodes nodes).Fits e.2 v.index) : ∃ host, (ofNodes nodes).Delimits side host v.index := by
  simp only [endsOf, List.mem_cons, List.not_mem_nil, or_false] at mem
  rcases mem with rfl | rfl | rfl | rfl | rfl | rfl
  · obtain ⟨name, t, inner, tag⟩ := fits
    rw [Step.accepts_oneOf] at name
    rw [Fits, Step.accepts_kind] at tag
    obtain ⟨host, around, element⟩ := bracketed.element side t tag
    exact ⟨host, .tagName (.element element around tag) around tag (mem_tagNames.mpr ⟨inner, name⟩)⟩
  · rw [Fits, Step.accepts_kind] at fits
    obtain ⟨host, around, element⟩ := bracketed.element side v.index fits
    exact ⟨host, .delimiter (.element element around fits) around fits fun _ => holds_nameless.mp granted⟩
  · obtain ⟨own, host, around, kind, function, outer, arrow⟩ := fits
    rw [Step.accepts_kind] at own kind
    rw [Fits, Step.accepts_kind] at arrow
    exact ⟨host, (Delimited.parameters kind outer arrow).delimits (by decide) around own⟩
  · obtain ⟨own, host, around, kind, call, outer, calls⟩ := fits
    rw [Step.accepts_kind] at own kind
    rw [Fits, Step.accepts_kind] at calls
    obtain ⟨j, child, callback⟩ := (holds_callbackPassed shaped hv around).mp granted
    exact ⟨host, (Delimited.arguments kind outer calls child callback).delimits (by decide) around own⟩
  · obtain ⟨own, host, around, kind⟩ := fits
    rw [Step.accepts_kind] at own
    rw [Fits, Step.accepts_kind] at kind
    exact ⟨host, (Delimited.braces (by rw [kind]; decide)).delimits (by decide) around own⟩
  · obtain ⟨own, host, around, kind⟩ := fits
    rw [Step.accepts_kind] at own
    rw [Fits, Step.accepts_oneOf] at kind
    exact ⟨host, (Delimited.braces (List.mem_append_left ["object"] kind)).delimits (by decide) around own⟩

theorem endsOf_of_delimits (d : (ofNodes nodes).Delimits side host v.index) :
    ∃ e ∈ endsOf side, e.1.all (Guard.holds (ofNodes nodes) v) = true ∧ (ofNodes nodes).Fits e.2 v.index := by
  cases d with
  | delimiter delimited around own nameless =>
      have accepted := Step.accepts_kind.mpr own
      cases delimited with
      | braces kind =>
          by_cases object : (ofNodes nodes).kind host = "object"
          · exact ⟨(none, [_, Step.kind "object"]), by simp [endsOf], rfl, accepted, host, around,
              Step.accepts_kind.mpr object⟩
          · have block : (ofNodes nodes).kind host ∈ ["statement_block", "class_body"] := by
              simpa [braceHosts, object] using kind
            exact ⟨(none, [_, Step.oneOf ["statement_block", "class_body"]]), by simp [endsOf], rfl, accepted,
              host, around, Step.accepts_oneOf.mpr block⟩
      | @parameters function kind outer arrow =>
          exact ⟨(none, [_, Step.kind "formal_parameters", Step.kind "arrow_function"]), by simp [endsOf], rfl,
            accepted, host, around, Step.accepts_kind.mpr kind, function, outer, Step.accepts_kind.mpr arrow⟩
      | @arguments call j kind outer calls child callback =>
          exact ⟨(some .callbackPassed, [_, Step.kind "arguments", Step.kind "call_expression"]),
            by simp [endsOf], (holds_callbackPassed shaped hv around).mpr ⟨j, child, callback⟩,
            accepted, host, around, Step.accepts_kind.mpr kind, call, outer, Step.accepts_kind.mpr calls⟩
      | element => exact ⟨(some .nameless, [_]), by simp [endsOf], holds_nameless.mpr (nameless rfl), accepted⟩
  | @tagName t _ _ around tag name =>
      obtain ⟨inner, own⟩ := mem_tagNames.mp name
      exact ⟨(none, [Step.oneOf tagKinds, _]), by simp [endsOf], rfl, Step.accepts_oneOf.mpr own, t, inner,
        Step.accepts_kind.mpr tag⟩

/-- **A rule that speaks of a side applies to an end of that side.** -/
theorem exists_delimits (bracketed : (ofNodes nodes).Bracketed) (mem : action ∈ v.actions (ofNodes nodes))
    (speaks : action.note?.any side.speaks = true) :
    ∃ host, (ofNodes nodes).Delimits side host v.index := by
  obtain ⟨guard, steps, listed, granted, fits⟩ := exists_guarded mem
  obtain ⟨⟨guard', front⟩, he, rfl, back, rfl⟩ := exists_endsOf side _ listed speaks
  have firm := firm_endsOf side _ he
  have fits := (matchesInward_iff shaped hv firm).mp (Pattern.matchesInward_front firm.2 fits)
  exact delimits_of_endsOf shaped hv bracketed he granted fits

theorem exists_mem_actions (d : (ofNodes nodes).Delimits side host v.index) :
    ∃ action, action ∈ v.actions (ofNodes nodes) := by
  obtain ⟨e, he, granted, fits⟩ := endsOf_of_delimits shaped hv d
  obtain ⟨group, hgroup, rule, hrule, guard, y, hy, steps⟩ := exists_of_endsOf side e he
  have fits := (matchesInward_iff shaped hv (firm_endsOf side e he)).mpr fits
  obtain ⟨-, -, z, -, mem⟩ :=
    exists_granted (a := ofNodes nodes) hgroup hrule (by rwa [guard]) hy (by rwa [steps])
  exact ⟨z.2, mem⟩

end Visit

/-! ## What is noted at an end -/

namespace MarkAction

/-- The action notes a side and labels a node of the kind with its text, with the name of a tag, or as a
fragment. -/
def suits (side : Side) (kind : String) : MarkAction → Bool
  | punctuation _ note => side.speaks note && !tagKinds.contains kind && kind != Bracket.tag.delimiter side
  | component note => side.speaks note && (tagKinds.contains kind || Text.contains "fragment" note)
  | returnedComponent note => side.speaks note && (tagKinds.contains kind || Text.contains "fragment" note)
  | _ => false

end MarkAction

def Side.kindsOf (side : Side) : List (String × String) :=
  tagKinds.map (fun kind => (kind, Bracket.tag.delimiter side))
    ++ [ (Bracket.tag.delimiter side, "jsx_element"), (Bracket.paren.delimiter side, "formal_parameters"),
         (Bracket.paren.delimiter side, "arguments") ]
    ++ Arena.braceHosts.map fun kind => (Bracket.brace.delimiter side, kind)

theorem Arena.Delimits.exists_parent {nodes : List FlatNode} {side : Side} {host i : Nat}
    (d : (ofNodes nodes).Delimits side host i) : ∃ p, (ofNodes nodes).parent? i = some p ∧
      ((ofNodes nodes).kind i, (ofNodes nodes).kind p) ∈ side.kindsOf := by
  cases d with
  | delimiter delimited around own =>
      refine ⟨host, around, ?_⟩
      rw [own]
      cases delimited with
      | braces kind => exact List.mem_append_right _ (List.mem_map.mpr ⟨_, kind, rfl⟩)
      | parameters kind => simp [Side.kindsOf, kind]
      | arguments kind => simp [Side.kindsOf, kind]
      | element kind => simp [Side.kindsOf, kind]
  | @tagName t _ _ _ tag name =>
      obtain ⟨inner, own⟩ := mem_tagNames.mp name
      refine ⟨t, inner, ?_⟩
      rw [tag]
      exact List.mem_append_left _ (List.mem_append_left _ (List.mem_map.mpr ⟨_, own, rfl⟩))

/-- No rule but that for properties applies to such a node without noting the side. -/
theorem MarkRule.suits_offers (side : Side) : ∀ e ∈ side.kindsOf, ∀ action ∈ offers e.1 e.2,
    action.suits side e.1 = true ∨ action = .propertyChain ∧ e.2 ∈ tagParents := by
  cases side <;> decide +kernel

namespace Visit

open Arena MarkAction MarkRule

variable {nodes : List FlatNode} {v : Visit} (shaped : TreeShaped nodes) (hv : v ∈ list nodes)
  {action : MarkAction} {side : Side} {host p : Nat}

include shaped hv

theorem not_mem_tagParents (mem : propertyChain ∈ v.actions (ofNodes nodes))
    (around : (ofNodes nodes).parent? v.index = some p) : (ofNodes nodes).kind p ∉ tagParents := by
  have table : ∀ y ∈ guarded, y.2.2 = propertyChain → y.1 = some .outermostChain := by decide
  have other : ∀ kind ∈ tagParents, kind ∉ chainWrappers ∧ kind ≠ "subscript_expression" := by decide
  obtain ⟨guard, steps, listed, granted, -⟩ := exists_guarded mem
  obtain rfl : guard = some .outermostChain := table _ listed rfl
  intro tag
  obtain ⟨bare, plain⟩ := other _ tag
  have outer : v.trail.nodes.drop 1 =
      ((ofNodes nodes).lineage p).map (ofNodes nodes).ancestor := by
    rw [trail_eq shaped hv, lineage_of_parent? around]
    rfl
  rw [lineage_eq p, List.map_cons] at outer
  simp [Guard.holds, outer, Guard.isOutermost, ancestor, bare, plain, tag] at granted

/-- **Every rule that applies to an end notes its side.** -/
theorem suits_of_delimits (d : (ofNodes nodes).Delimits side host v.index)
    (mem : action ∈ v.actions (ofNodes nodes)) : action.suits side ((ofNodes nodes).kind v.index) = true := by
  obtain ⟨p, around, kinds⟩ := d.exists_parent
  rcases suits_offers side _ kinds action (mem_offers shaped hv mem around) with suits | ⟨rfl, tag⟩
  · exact suits
  · exact absurd tag (not_mem_tagParents shaped hv mem around)

end Visit

namespace MarkAction

open Arena

variable {nodes : List FlatNode} {v : Visit} {action : MarkAction} {side : Side} {host i : Nat}

theorem tagLabel_of_plain {a : Arena} {note : String} (plain : Text.contains "fragment" note = false) :
    tagLabel a i note = tagLabel a i "" := by
  rw [tagLabel, plain, tagLabel]
  rfl

theorem tagLabel_ne_empty (bracketed : (ofNodes nodes).Bracketed)
    (d : (ofNodes nodes).Delimits side host i) {note : String}
    (suits : (tagKinds.contains ((ofNodes nodes).kind i) || Text.contains "fragment" note) = true) :
    tagLabel (ofNodes nodes) i note ≠ "" := by
  cases fragment : Text.contains "fragment" note with
  | true =>
      rw [tagLabel, fragment, if_pos rfl]
      decide
  | false =>
      rw [fragment, Bool.or_false, List.contains_iff_mem] at suits
      rw [tagLabel_of_plain fragment]
      cases d with
      | delimiter _ _ own => exact absurd suits (not_mem_tagKinds_of_delimiter own)
      | tagName _ _ tag name => exact bracketed.name side _ i tag name

theorem text_ne_empty (bracketed : (ofNodes nodes).Bracketed) (d : (ofNodes nodes).Delimits side host i)
    (unnamed : (ofNodes nodes).kind i ∉ tagKinds)
    (plain : (ofNodes nodes).kind i ≠ Bracket.tag.delimiter side) :
    Text.compact ((ofNodes nodes).text i) ≠ "" := by
  cases d with
  | @delimiter b _ delimited around own =>
      refine bracketed.text side host b i delimited around own ?_
      rintro rfl
      exact plain own
  | tagName _ _ _ name => exact absurd (mem_tagNames.mp name).2 unnamed

/-- An action that suits an end gives it a note of the side and a label that is not empty. -/
theorem gives?_of_suits (bracketed : (ofNodes nodes).Bracketed)
    (d : (ofNodes nodes).Delimits side host v.index)
    (suits : action.suits side ((ofNodes nodes).kind v.index) = true) (s : Markings) :
    ∃ note label, action.gives? (ofNodes nodes) v s = some (note, label) ∧ side.speaks note = true ∧
      label ≠ "" := by
  cases action with
  | punctuation category note =>
      simp only [MarkAction.suits, Bool.and_eq_true, Bool.not_eq_true', bne_iff_ne] at suits
      obtain ⟨⟨speaks, unnamed⟩, plain⟩ := suits
      refine ⟨note, _, rfl, speaks, text_ne_empty bracketed d ?_ plain⟩
      intro mem
      rw [← List.contains_iff_mem, unnamed] at mem
      cases mem
  | component note =>
      obtain ⟨speaks, kind⟩ := Bool.and_eq_true_iff.mp suits
      exact ⟨note, _, rfl, speaks, tagLabel_ne_empty bracketed d kind⟩
  | returnedComponent note =>
      obtain ⟨speaks, kind⟩ := Bool.and_eq_true_iff.mp suits
      exact ⟨note, _, rfl, speaks, tagLabel_ne_empty bracketed d kind⟩
  | _ => cases suits

end MarkAction

end SourceSurvey
