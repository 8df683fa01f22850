import SourceSurvey.Proofs.Marking.Ends
import SourceSurvey.Proofs.Marking.Tags
import SourceSurvey.Proofs.Tree.Passage

/-!
# Every access is shown once

An access is shown as a property exactly if it is not continued (`Markings.note_eq_property_iff`). As the chain
of a property, of a callee or of a tag passes through continued nodes only, no property is shown a second time
inside of another one; and as what is continued is passed through by such a chain, none is lost
(`Markings.accesses_shown_once`).
-/

namespace SourceSurvey

namespace Visit

open Arena MarkAction MarkRule

variable {nodes : List FlatNode} {v : Visit} (shaped : TreeShaped nodes) (hv : v ∈ list nodes)

/-! ## The rules for accesses and calls -/

theorem actionOf?_calls (hv : v ∈ list nodes) {k field note : String}
    (rule : (k, field, note) ∈ [("call_expression", "function", "call"), ("new_expression", "constructor", "new")])
    (kind : (ofNodes nodes).kind v.index = k) : actionOf? (ofNodes nodes) v calls = some (call field note) := by
  obtain ⟨outer, inward⟩ := exists_inward hv
  rw [actionOf?, inward, kind]
  simp only [List.mem_cons, Prod.mk.injEq, List.not_mem_nil, or_false] at rule
  obtain ⟨rfl, rfl, rfl⟩ | ⟨rfl, rfl, rfl⟩ := rule <;> rfl

include shaped hv

theorem holds_outermostChain :
    Guard.holds (ofNodes nodes) v .outermostChain = true ↔ ¬ (ofNodes nodes).Continued v.index := by
  rw [Guard.holds, trail_eq shaped hv, ← List.map_drop]
  exact isOutermost_iff v.index

theorem actionOf?_properties (kind : (ofNodes nodes).kind v.index = "member_expression")
    (outermost : ¬ (ofNodes nodes).Continued v.index) :
    actionOf? (ofNodes nodes) v properties = some propertyChain := by
  obtain ⟨outer, inward⟩ := exists_inward hv
  have fits : Pattern.matchesInward [Step.kind "member_expression"] v.trail.inward = true := by
    rw [inward, kind]
    rfl
  simp [actionOf?, properties, Rule.choose_eq_find?, fits, (holds_outermostChain shaped hv).mpr outermost]

theorem place_of_propertyChain (mem : propertyChain ∈ v.actions (ofNodes nodes)) :
    (ofNodes nodes).kind v.index = "member_expression" ∧ ¬ (ofNodes nodes).Continued v.index := by
  have rules : ∀ y ∈ guarded, y.2.2 = propertyChain →
      y.1 = some .outermostChain ∧ y.2.1 = [Step.kind "member_expression"] := by decide
  obtain ⟨guard, steps, listed, granted, fits⟩ := exists_guarded mem
  obtain ⟨rfl, rfl⟩ : guard = _ ∧ steps = _ := rules _ listed rfl
  exact ⟨Step.accepts_kind.mp (accepts_of_matchesInward hv rfl fits),
    (holds_outermostChain shaped hv).mp (by simpa using granted)⟩

end Visit

/-! ## What is noted as a property -/

namespace MarkAction

variable {a : Arena} {v : Visit} {s : Markings} {action : MarkAction} {label : String}

theorem note?_ne_property (mem : action ∈ v.actions a) : action.note? ≠ some "property" := by
  have rules : ∀ y ∈ MarkRule.table, y.2.note? ≠ some "property" := by decide
  obtain ⟨steps, entry, -⟩ := Visit.exists_steps mem
  exact rules _ entry

theorem eq_propertyChain_of_gives? (bound : ∀ e ∈ s.bindings, e.2.note ∈ bindingNotes)
    (mem : action ∈ v.actions a) (h : action.gives? a v s = some ("property", label)) :
    action = propertyChain := by
  have carried := note?_ne_property mem
  cases action with
  | propertyChain => rfl
  | patternField steps =>
      obtain ⟨b, found, same⟩ := Option.map_eq_some_iff.mp h
      obtain ⟨pattern, -, looked⟩ := Option.bind_eq_some_iff.mp found
      have noted := bound _ (mem_of_lookup looked)
      rw [(Prod.mk.inj same).1] at noted
      exact absurd noted (by decide)
  | comment =>
      have noted := (Prod.mk.inj (Option.some.inj h)).1
      unfold commentNote at noted
      split at noted
      · exact absurd noted (by decide)
      · split at noted <;> exact absurd noted (by decide)
  | importName | declaredName | call | component | returnedComponent | parameter | punctuation | exportName =>
      cases h
      exact absurd rfl carried
  | importStatement | objectProperty => exact absurd (Prod.mk.inj (Option.some.inj h)).1 (by decide)
  | importPath | objectPattern | functionValue | exportKeyword => cases h

end MarkAction

namespace Markings

open Arena MarkAction

section Walk

variable {nodes : List FlatNode} (shaped : TreeShaped nodes) {resolve : Option (String → Option String)}
  {s t : Markings} {v : Visit} {action : MarkAction} {i : Nat}

/-- What is noted as a property is an access that is not continued. -/
structure Noted (nodes : List FlatNode) (s : Markings) : Prop where
  bindings : ∀ e ∈ s.bindings, e.2.note ∈ bindingNotes
  property : ∀ i, (s.mark i).note = "property" →
    (Arena.ofNodes nodes).kind i = "member_expression" ∧ ¬ (Arena.ofNodes nodes).Continued i

theorem noted_init : Noted nodes (init nodes.length) where
  bindings := nofun
  property := by
    intro i noted
    rw [mark_init] at noted
    exact absurd noted (by decide)

theorem Noted.change {f : Mark → Mark} {j : Nat} (noted : Noted nodes s)
    (hf : ∀ m, (f m).note = "property" → m.note = "property" ∨
      (Arena.ofNodes nodes).kind j = "member_expression" ∧ ¬ (Arena.ofNodes nodes).Continued j) :
    Noted nodes (s.change j f) where
  bindings := noted.bindings
  property := by
    intro i property
    rw [mark_change_eq] at property
    split at property
    · next here =>
      obtain ⟨rfl, -⟩ := here
      exact (hf _ property).elim (noted.property j) id
    · exact noted.property i property

theorem Noted.attend {category : Category} {note label : String} (noted : Noted nodes s)
    (own : note = "property" →
      (Arena.ofNodes nodes).kind i = "member_expression" ∧ ¬ (Arena.ofNodes nodes).Continued i) :
    Noted nodes (s.attend i category note label) :=
  ⟨noted.bindings, (noted.change (f := fun m => { m with category := some category, note, label })
    fun _ same => .inr (own same)).property⟩

include shaped in
/-- **No write of a visit notes a property where none is.** -/
theorem Noted.write (hv : v ∈ Visit.list nodes) (mem : action ∈ v.actions (Arena.ofNodes nodes))
    (noted : Noted nodes s) (h : action.Write (Arena.ofNodes nodes) resolve v s t) : Noted nodes t := by
  have bound := h.bindings noted.bindings
  cases h with
  | exported | link | around | statement => exact noted.change fun _ same => .inl same
  | path =>
      refine Noted.attend ?_ fun same => absurd same (by decide)
      unfold writePath
      split
      · exact noted
      · exact noted.change fun _ same => .inl same
  | attend _ given =>
      refine noted.attend fun same => ?_
      subst same
      obtain rfl := eq_propertyChain_of_gives? noted.bindings mem given
      exact Visit.place_of_propertyChain shaped hv mem
  | rename =>
      refine noted.change fun m same => ?_
      exact absurd (congrArg some same) (note?_ne_property mem)
  | bind | component => exact ⟨bound, noted.property⟩

include shaped

theorem tag_of_outermost (h : ofNodes nodes resolve = .ok s)
    (kind : (Arena.ofNodes nodes).kind i = "member_expression")
    (outermost : ¬ (Arena.ofNodes nodes).Continued i) :
    (s.mark i).tag = ⟨some .property, "property", (Arena.ofNodes nodes).chainText i⟩ := by
  have rules : ∀ g ∈ MarkRule.groups.drop 6, ∀ rule ∈ g, ∀ y ∈ rule.alternatives, ∀ e ∈ MarkRule.table,
      (e.2 == y.2) = true → Pattern.misses "member_expression" e.1 = true := by decide +kernel
  obtain ⟨v, hv, rfl⟩ := Visit.exists_visit (lt_length_of_kind (by rw [kind]; decide))
  obtain ⟨front, split⟩ := Visit.exists_actions_append_of_kind (n := 5) hv rfl kind rules
    (Visit.actionOf?_properties shaped hv kind outermost)
  refine tag_of_last shaped h hv split (fun _ => rfl) ?_
  rintro ⟨name, -⟩
  rw [kind] at name
  exact absurd name (by decide)

/-- **The properties are the accesses that are not continued.** -/
theorem note_eq_property_iff (h : ofNodes nodes resolve = .ok s) : (s.mark i).note = "property" ↔
    (Arena.ofNodes nodes).kind i = "member_expression" ∧ ¬ (Arena.ofNodes nodes).Continued i := by
  constructor
  · exact (keeps_ofNodes (fun v hv action mem s t noted write => noted.write shaped hv mem write)
      noted_init h).property i
  · rintro ⟨kind, outermost⟩
    exact congrArg Tag.note (tag_of_outermost shaped h kind outermost)

/-! ## The labels of calls and tags -/

theorem label_of_call (h : ofNodes nodes resolve = .ok s) {k field note : String} {callee : Nat}
    (rule : (k, field, note) ∈ [("call_expression", "function", "call"), ("new_expression", "constructor", "new")])
    (kind : (Arena.ofNodes nodes).kind i = k) (held : (Arena.ofNodes nodes).childByField? i field = some callee) :
    (s.mark i).label = (Arena.ofNodes nodes).chainText callee := by
  have rules : ∀ k ∈ ["call_expression", "new_expression"], ∀ g ∈ MarkRule.groups.drop 4, ∀ rule ∈ g,
      ∀ y ∈ rule.alternatives, ∀ e ∈ MarkRule.table, (e.2 == y.2) = true → Pattern.misses k e.1 = true := by
    decide +kernel
  have calls : k ∈ ["call_expression", "new_expression"] := by
    simp only [List.mem_cons, Prod.mk.injEq, List.not_mem_nil, or_false] at rule ⊢
    exact rule.imp And.left And.left
  have named : ∀ k ∈ ["call_expression", "new_expression"], k ≠ "" ∧ k ≠ "identifier" := by decide
  obtain ⟨v, hv, rfl⟩ := Visit.exists_visit (lt_length_of_kind (by rw [kind]; exact (named k calls).1))
  obtain ⟨front, split⟩ := Visit.exists_actions_append_of_kind (n := 3) hv rfl kind (rules k calls)
    (Visit.actionOf?_calls hv rule kind)
  have tagged : (s.mark v.index).tag = ⟨some .call, note, (Arena.ofNodes nodes).chainText callee⟩ := by
    refine tag_of_last shaped h hv split (fun u => ?_) ?_
    · simp [tag?, gives?, MarkAction.category?, held]
    · rintro ⟨name, -⟩
      exact (named k calls).2 (kind.symm.trans name)
  exact congrArg Tag.label tagged

theorem label_of_tag {p : Nat} (h : ofNodes nodes resolve = .ok s)
    (kind : (Arena.ofNodes nodes).kind i = "member_expression")
    (around : (Arena.ofNodes nodes).parent? i = some p) (tag : (Arena.ofNodes nodes).kind p ∈ tagParents) :
    (s.mark i).label = (Arena.ofNodes nodes).chainText i := by
  have plain : ∀ k ∈ tagParents, ∃ rule ∈ MarkRule.components, rule.guard = none ∧
      ∃ y ∈ rule.alternatives, y.1.reverse = [MarkRule.tag, Step.kind k] := by decide
  have offered : ∀ k ∈ tagParents, ∀ action ∈ MarkRule.offers "member_expression" k, action = propertyChain ∨
      ∃ note ∈ action.note?, Text.contains "fragment" note = false ∧
        (action = component note ∨ action = returnedComponent note) := by decide +kernel
  obtain ⟨v, hv, rfl⟩ := Visit.exists_visit (lt_length_of_kind (by rw [kind]; decide))
  have applies : v.actions (Arena.ofNodes nodes) ≠ [] := by
    obtain ⟨rule, hrule, unguarded, y, hy, steps⟩ := plain _ tag
    have fits : (Arena.ofNodes nodes).Fits y.1.reverse v.index := by
      rw [steps]
      exact ⟨Step.accepts_oneOf.mpr (by rw [kind]; decide), p, around, Step.accepts_kind.mpr rfl⟩
    have firm : y.1.reverse ≠ [] ∧ ∀ t ∈ y.1.reverse, t.isOptional = false := by
      simp [steps, MarkRule.tag, Step.oneOf, Step.kind]
    have group : MarkRule.components ∈ MarkRule.groups := by simp [MarkRule.groups]
    obtain ⟨-, -, z, -, mem⟩ := Visit.exists_action (a := Arena.ofNodes nodes) group hrule unguarded hy
      ((Visit.matchesInward_iff shaped hv firm).mpr fits)
    exact List.ne_nil_of_mem mem
  -- whichever rule comes last, it labels the tag with its chain
  have split := (List.dropLast_append_getLast applies).symm
  have mem := List.getLast_mem applies
  generalize (v.actions (Arena.ofNodes nodes)).getLast applies = action at split mem
  have shown : ∃ note, ∀ u, action.tag? (Arena.ofNodes nodes) v u =
      some ⟨some .component, note, (Arena.ofNodes nodes).chainText v.index⟩ := by
    rcases offered _ tag action (kind ▸ Visit.mem_offers shaped hv mem around) with
      rfl | ⟨note, -, noFragment, rfl | rfl⟩
    · exact absurd tag (Visit.not_mem_tagParents shaped hv mem around)
    all_goals
      refine ⟨note, fun _ => ?_⟩
      simp [tag?, gives?, MarkAction.category?, tagLabel, noFragment, kind, chainKinds]
  obtain ⟨note, gives⟩ := shown
  refine congrArg Tag.label (tag_of_last shaped h hv split gives ?_)
  rintro ⟨name, -⟩
  rw [kind] at name
  exact absurd name (by decide)

/-- **Every access is shown once.** The chain of a property, of a callee or of a tag passes through no other
property. If every wrapper holds one thing and no access or wrapper is in a nested name, an access that is no
property is in the label of one, of a call or of a tag. -/
theorem accesses_shown_once (h : ofNodes nodes resolve = .ok s) :
    (∀ owner start j, (Arena.ofNodes nodes).Begins (fun m => (s.mark m).note = "property") owner start →
      (Arena.ofNodes nodes).Passes start j → j ≠ owner → (s.mark j).note ≠ "property") ∧
    ((Arena.ofNodes nodes).WellWrapped →
      (∀ i p, (Arena.ofNodes nodes).parent? i = some p → (Arena.ofNodes nodes).kind p = "nested_identifier" →
        (Arena.ofNodes nodes).kind i ∉ linkKinds) →
      ∀ m, (Arena.ofNodes nodes).kind m = "member_expression" →
        (s.mark m).tag = ⟨some .property, "property", (Arena.ofNodes nodes).chainText m⟩ ∨
        ∃ owner start, (Arena.ofNodes nodes).Begins (fun m => (s.mark m).note = "property") owner start ∧
          (Arena.ofNodes nodes).Passes start m ∧ (s.mark owner).label = (Arena.ofNodes nodes).chainText start ∧
          ((Arena.ofNodes nodes).chainText m).toList <:+: (s.mark owner).label.toList) := by
  constructor
  · intro owner start j begins passes other property
    obtain ⟨-, outermost⟩ := (note_eq_property_iff shaped h).mp property
    refine outermost ?_
    cases begins with
    | access shown =>
        obtain ⟨kind, -⟩ := (note_eq_property_iff shaped h).mp shown
        exact (passes.continued (.inr (by rw [kind]; decide))).resolve_left other
    | call kind held =>
        have callee := (Part.callee kind held).continued (.inr (by rw [kind]; decide))
        rcases passes.continued (.inl callee) with rfl | continued
        · exact callee
        · exact continued
    | construct kind held =>
        have callee : (Arena.ofNodes nodes).Continued start :=
          .constructed (mem_children.mp (List.mem_of_find?_eq_some held)) kind
            (by simpa using List.find?_some held)
        rcases passes.continued (.inl callee) with rfl | continued
        · exact callee
        · exact continued
    | tag _ around tag => exact (passes.continued (.inl (.tag around tag))).resolve_left other
  · intro w nested m kind
    by_cases continued : (Arena.ofNodes nodes).Continued m
    · obtain ⟨owner, start, begins, link, passes⟩ := exists_begins w nested (by simp [kind, linkKinds]) continued
      have shown : (Arena.ofNodes nodes).Begins (fun m => (s.mark m).note = "property") owner start ∧
          (s.mark owner).label = (Arena.ofNodes nodes).chainText start := by
        cases begins with
        | access outermost =>
            exact ⟨.access ((note_eq_property_iff shaped h).mpr outermost),
              congrArg Tag.label (tag_of_outermost shaped h outermost.1 outermost.2)⟩
        | call kind held => exact ⟨.call kind held, label_of_call shaped h List.mem_cons_self kind held⟩
        | construct kind held =>
            exact ⟨.construct kind held,
              label_of_call shaped h (List.mem_cons_of_mem _ List.mem_cons_self) kind held⟩
        | tag named around tag =>
            have access : (Arena.ofNodes nodes).kind owner = "member_expression" := by
              simpa [linkKinds, w.tag owner _ around tag] using link
            exact ⟨.tag named around tag, label_of_tag shaped h access around tag⟩
      refine .inr ⟨owner, start, shown.1, passes, shown.2, ?_⟩
      rw [shown.2]
      exact passes.chainText_infix
    · exact .inl (tag_of_outermost shaped h kind continued)

end Walk

/-- An access in parentheses, of which another name is asked: `(a.b).c`. -/
def wrappedAccess (host : String) : List FlatNode :=
  [⟨0, "program", "(a.b).c", 1, 1, 0, 7, true, none⟩,
   ⟨1, host, "(a.b).c", 1, 1, 0, 7, true, none⟩,
   ⟨2, "parenthesized_expression", "(a.b)", 1, 1, 0, 5, true, some "object"⟩,
   ⟨3, "(", "(", 1, 1, 0, 1, false, none⟩,
   ⟨3, "member_expression", "a.b", 1, 1, 1, 4, true, none⟩,
   ⟨4, "identifier", "a", 1, 1, 1, 2, false, some "object"⟩,
   ⟨4, ".", ".", 1, 1, 2, 3, false, none⟩,
   ⟨4, "property_identifier", "b", 1, 1, 3, 4, false, some "property"⟩,
   ⟨3, ")", ")", 1, 1, 4, 5, false, none⟩,
   ⟨2, ".", ".", 1, 1, 5, 6, false, none⟩,
   ⟨2, "property_identifier", "c", 1, 1, 6, 7, false, some "property"⟩]

theorem treeShaped_wrappedAccess (host : String) : TreeShaped (wrappedAccess host) where
  root := by simp [wrappedAccess]
  descends := by simp [wrappedAccess]

theorem wellWrapped_wrappedAccess {host : String} (h : host ∈ chainKinds) :
    (Arena.ofNodes (wrappedAccess host)).WellWrapped := by
  have kinds : ∀ host ∈ chainKinds, ∀ i < 11, (Arena.ofNodes (wrappedAccess host)).kind i ∉ tagParents ∧
      (Arena.ofNodes (wrappedAccess host)).kind i ≠ "non_null_expression" ∧
      ((Arena.ofNodes (wrappedAccess host)).kind i = "parenthesized_expression" → i = 2) := by decide +kernel
  have fields : ∀ host ∈ chainKinds, ∀ i < 11, ∀ j < 11, ∀ field ∈ ["function", "constructor", "object"],
      (Arena.ofNodes (wrappedAccess host)).parent? i = (Arena.ofNodes (wrappedAccess host)).parent? j ∧
        (Arena.ofNodes (wrappedAccess host)).field i = some field ∧
        (Arena.ofNodes (wrappedAccess host)).field j = some field → i = j := by decide +kernel
  have below : (Arena.ofNodes (wrappedAccess host)).children 2 = [3, 4, 8] := by
    simp only [chainKinds, List.mem_cons, List.not_mem_nil, or_false] at h
    rcases h with rfl | rfl <;> decide +kernel
  have present : ∀ i, (Arena.ofNodes (wrappedAccess host)).kind i ≠ "" → i < 11 := fun i => lt_length_of_kind
  constructor
  · intro i kind
    obtain rfl := (kinds host h i (present i (by rw [kind]; decide))).2.2 kind
    exact ⟨4, by rw [below]; rfl⟩
  · intro i kind
    exact absurd kind (kinds host h i (present i (by rw [kind]; decide))).2.1
  · intro p i j field listed around around' held held'
    exact fields host h i (lt_length_of_parent? around) j (lt_length_of_parent? around') field listed
      ⟨around.trans around'.symm, held, held'⟩
  · intro i p around tag
    have before := Nat.lt_trans (spec_of_parent? around).1 (lt_length_of_parent? around)
    exact absurd tag (kinds host h p before).1

/-- The name that is asked for last makes the chain a property, and the access in it is none. -/
theorem accesses_shown_once_wrappedAccess : ∃ s, ofNodes (wrappedAccess "member_expression") none = .ok s ∧
    (s.mark 4).note ≠ "property" ∧ ∃ owner start,
      (Arena.ofNodes (wrappedAccess "member_expression")).Begins
        (fun m => (s.mark m).note = "property") owner start ∧
      (Arena.ofNodes (wrappedAccess "member_expression")).Passes start 4 ∧
      (s.mark owner).label = (Arena.ofNodes (wrappedAccess "member_expression")).chainText start := by
  have run : (ofNodes (wrappedAccess "member_expression") none).map (fun s => (s.mark 1).note) =
      .ok "property" := rfl
  have w : (Arena.ofNodes (wrappedAccess "member_expression")).WellWrapped := wellWrapped_wrappedAccess (by decide)
  have passes : (Arena.ofNodes (wrappedAccess "member_expression")).Passes 1 4 :=
    .tail (.single (.access (by decide) (mem_children.mpr rfl) (by decide)))
      (w.part_of_wrapper rfl (by decide) (by decide))
  have other : ∀ p < 11, (Arena.ofNodes (wrappedAccess "member_expression")).kind p ≠ "nested_identifier" := by
    decide
  obtain ⟨s, h, property⟩ := exists_of_map run
  obtain ⟨once, shown⟩ := accesses_shown_once (treeShaped_wrappedAccess _) h
  have inner := once 1 1 4 (.access property) passes (by decide)
  refine ⟨s, h, inner, ?_⟩
  have nested : ∀ i p, (Arena.ofNodes (wrappedAccess "member_expression")).parent? i = some p →
      (Arena.ofNodes (wrappedAccess "member_expression")).kind p = "nested_identifier" →
      (Arena.ofNodes (wrappedAccess "member_expression")).kind i ∉ linkKinds := by
    intro i p around kind
    exact absurd kind (other p (lt_length_of_kind (by rw [kind]; decide)))
  rcases shown w nested 4 rfl with tagged | ⟨owner, start, begins, passes, label, -⟩
  · exact absurd (congrArg Tag.note tagged) inner
  · exact ⟨owner, start, begins, passes, label⟩

/-- **An access in parentheses in a nested name is lost**: nothing is a property, and there is no call and no
tag. -/
theorem access_lost_in_nested_name : TreeShaped (wrappedAccess "nested_identifier") ∧
    (Arena.ofNodes (wrappedAccess "nested_identifier")).WellWrapped ∧
    (∀ i p, (Arena.ofNodes (wrappedAccess "nested_identifier")).parent? i = some p →
      (Arena.ofNodes (wrappedAccess "nested_identifier")).kind p = "nested_identifier" →
      (Arena.ofNodes (wrappedAccess "nested_identifier")).kind i ≠ "member_expression") ∧
    (Arena.ofNodes (wrappedAccess "nested_identifier")).kind 4 = "member_expression" ∧
    ∃ s, ofNodes (wrappedAccess "nested_identifier") none = .ok s ∧ (s.mark 4).tag = {} ∧
      ¬ ∃ owner start, (Arena.ofNodes (wrappedAccess "nested_identifier")).Begins
        (fun m => (s.mark m).note = "property") owner start := by
  have run : (ofNodes (wrappedAccess "nested_identifier") none).map (fun s => (s.mark 4).tag) = .ok {} := rfl
  have kinds : ∀ i < 11, (Arena.ofNodes (wrappedAccess "nested_identifier")).kind i ∉ tagParents ∧
      (Arena.ofNodes (wrappedAccess "nested_identifier")).kind i ∉ ["call_expression", "new_expression"] ∧
      ((Arena.ofNodes (wrappedAccess "nested_identifier")).kind i = "member_expression" → i = 4) ∧
      ((Arena.ofNodes (wrappedAccess "nested_identifier")).kind i = "nested_identifier" → i = 1) := by decide
  have present : ∀ i, (Arena.ofNodes (wrappedAccess "nested_identifier")).kind i ≠ "" → i < 11 :=
    fun i => lt_length_of_kind
  have continued : (Arena.ofNodes (wrappedAccess "nested_identifier")).Continued 4 :=
    .wrapped rfl (by decide) (.access rfl (by decide))
  refine ⟨treeShaped_wrappedAccess _, wellWrapped_wrappedAccess (by decide), ?_, rfl, ?_⟩
  · intro i p around name kind
    obtain rfl := (kinds i (lt_length_of_parent? around)).2.2.1 kind
    obtain rfl := (kinds p (present p (by rw [name]; decide))).2.2.2 name
    cases around
  · obtain ⟨s, h, untagged⟩ := exists_of_map run
    refine ⟨s, h, untagged, ?_⟩
    rintro ⟨owner, start, begins⟩
    cases begins with
    | access property =>
        obtain ⟨kind, outermost⟩ := (note_eq_property_iff (treeShaped_wrappedAccess _) h).mp property
        obtain rfl := (kinds _ (present _ (by rw [kind]; decide))).2.2.1 kind
        exact outermost continued
    | call kind | construct kind =>
        exact (kinds _ (present _ (by rw [kind]; decide))).2.1 (by simp [kind])
    | tag _ around tag =>
        have before := Nat.lt_trans (spec_of_parent? around).1 (lt_length_of_parent? around)
        exact (kinds _ before).1 tag

end Markings

end SourceSurvey
