import SourceSurvey.Proofs.Marking.Exports
import SourceSurvey.Proofs.Marking.Failure

/-!
# Declared names and destructured fields are exported with their statement

A visit that keeps the markings right also makes them right for the visited node itself: the action that
is due there is performed, and no later action of the visit undoes it. So they are right for all nodes in
the end (`Markings.right_ofNodes`).
-/

namespace SourceSurvey.Markings

open Arena

variable {nodes : List FlatNode} (shaped : TreeShaped nodes) (g : (Arena.ofNodes nodes).Grammatical)
  {resolve : Option (String → Option String)} {s t : Markings}

namespace Right

variable {v : Visit} (hv : v ∈ Visit.list nodes) (r : Right nodes v.index v.index s)
  (visited : visit (Arena.ofNodes nodes) resolve s v = .ok t)

include shaped g hv r visited

/-- What the action that is due makes true and no action of the visit undoes is true afterwards. -/
theorem reaches {q : Markings → Prop} {action : MarkAction}
    (mem : action ∈ v.actions (Arena.ofNodes nodes))
    (makes : ∀ s t, Right nodes v.index (v.index + 1) s →
      action.perform (Arena.ofNodes nodes) resolve v s = .ok t → q t)
    (stays : ∀ action ∈ v.actions (Arena.ofNodes nodes), ∀ s t, Right nodes v.index (v.index + 1) s → q s →
      action.perform (Arena.ofNodes nodes) resolve v s = .ok t → q t) : q t := by
  refine reaches_foldlM (p := Right nodes v.index (v.index + 1)) ?_ stays mem makes r.begin visited
  intro action mem s t r performed
  exact r.outcome shaped g hv mem (MarkAction.outcome_of_mem_actions mem performed)

theorem wrapper_of_visit {x : Nat} (around : (Arena.ofNodes nodes).parent? v.index = some x)
    (kind : (Arena.ofNodes nodes).kind v.index = "export")
    (wrapper : (Arena.ofNodes nodes).kind x = "export_statement") : (t.mark x).exported = true := by
  refine r.reaches shaped g hv visited (q := fun t => (t.mark x).exported = true)
    (Visit.exportKeyword_mem_actions shaped hv kind around wrapper) ?_ ?_
  · intro s t r performed
    cases performed
    have before := (spec_of_parent? around).1
    have present : x < s.marks.size := r.size ▸ Nat.lt_trans before (Visit.index_lt shaped hv)
    refine exported_exportAll.mpr (Or.inr ⟨present, (Arena.ofNodes nodes).ancestor x, ?_, rfl⟩)
    rw [Visit.trail_eq shaped hv, lineage_of_parent? around, lineage_eq x]
    exact List.mem_cons_of_mem _ List.mem_cons_self
  · intro action mem s t r exported performed
    have present := r.present shaped hv
    have outcome := MarkAction.outcome_of_mem_actions mem performed
    refine outcome.exported_mono present (fun own => ?_) exported
    exact absurd own (Nat.ne_of_lt (spec_of_parent? around).1)

theorem name_of_visit {statement : Nat} (named : (Arena.ofNodes nodes).Names v.index statement)
    (inside : (Arena.ofNodes nodes).InExport statement) : (t.mark v.index).exported = true := by
  have declares {category : Category} {note : String} {steps : Nat}
      (mem : .declaredName category note steps ∈ v.actions (Arena.ofNodes nodes)) {s t : Markings}
      (r : Right nodes v.index (v.index + 1) s)
      (performed : (MarkAction.declaredName category note steps).perform (Arena.ofNodes nodes) resolve v s =
        .ok t) : (t.mark v.index).exported = true := by
    have present := r.present shaped hv
    obtain ⟨statement', named', out, -⟩ := Visit.place_of_declaredName shaped hv g mem
    obtain rfl := named.unique named'
    rw [MarkAction.perform_declaredName] at performed
    cases performed
    rw [exported_declare present, if_pos rfl]
    exact (r.isExported_iff shaped hv out (g.kind_of_names named)).mpr inside
  obtain ⟨category, note, steps, mem⟩ := Visit.declaredName_mem_actions shaped hv named
  refine r.reaches shaped g hv visited (q := fun t => (t.mark v.index).exported = true) mem ?_ ?_
  · exact fun s t r performed => declares mem r performed
  · -- of the actions that decide anew, the first decides the same and the second is for fields
    intro action mem s t r exported performed
    cases action with
    | declaredName category note steps => exact declares mem r performed
    | patternField steps =>
        obtain ⟨pattern, field, -⟩ := Visit.place_of_patternField shaped hv mem
        exact absurd field named.not_fieldOf
    | _ =>
        have present := r.present shaped hv
        have outcome := MarkAction.outcome_of_mem_actions mem performed
        exact outcome.exported_mono present (fun _ => rfl) exported

theorem field_of_visit {statement : Nat} (h : (Arena.ofNodes nodes).Destructured v.index statement) :
    (t.mark v.index).note = "destructured" ∧
      ((Arena.ofNodes nodes).InExport statement → (t.mark v.index).exported = true) := by
  obtain ⟨pattern, field, destructures⟩ := h
  obtain ⟨steps, mem, only⟩ := Visit.patternField_mem_actions shaped hv field
  have inherits (s t : Markings) (r : Right nodes v.index (v.index + 1) s)
      (performed : (MarkAction.patternField steps).perform (Arena.ofNodes nodes) resolve v s = .ok t) :
      (t.mark v.index).note = "destructured" ∧
        ((Arena.ofNodes nodes).InExport statement → (t.mark v.index).exported = true) := by
    have present := r.present shaped hv
    obtain ⟨pattern', field', place⟩ := Visit.place_of_patternField shaped hv mem
    obtain rfl := field.unique field'
    have before : pattern < v.index := by
      cases field with
      | shorthand _ around => exact (spec_of_parent? around).1
      | defaulted _ _ around _ outer | paired _ _ around _ outer =>
          exact Nat.lt_trans (spec_of_parent? outer).1 (spec_of_parent? around).1
    obtain ⟨b, bound⟩ := r.complete.binding pattern before statement destructures
    have found : ((v.trail.outward? steps).bind fun p => s.bindings.lookup p.index) = some b := by
      rw [place]
      exact bound
    simp only [MarkAction.perform, found] at performed
    cases performed
    rcases r.sound.binding pattern b bound with ⟨statement', destructures', note, answer⟩ | ⟨apart, -⟩
    · obtain rfl := destructures.unique destructures'
      refine ⟨?_, fun inside => ?_⟩
      · rw [note_attend (by rwa [size_change]), if_pos rfl]
        exact note
      · rw [exported_attend, exported_change present, if_pos rfl]
        exact answer.mpr inside
    · exact absurd destructures (apart statement)
  refine r.reaches shaped g hv visited mem inherits ?_
  -- no other action writes another note over the one that is inherited
  intro action mem' s t r _ performed
  rw [only action mem'] at performed
  exact inherits s t r performed

theorem binding_of_visit {statement : Nat}
    (destructures : (Arena.ofNodes nodes).Destructures v.index statement) :
    ∃ b, t.bindings.lookup v.index = some b := by
  have mem : .objectPattern ∈ v.actions (Arena.ofNodes nodes) := by
    cases destructures with
    | declared kind => exact Visit.objectPattern_mem_actions hv kind
    | nested kind => exact Visit.objectPattern_mem_actions hv kind
  refine r.reaches shaped g hv visited (q := fun t => ∃ b, t.bindings.lookup v.index = some b) mem ?_ ?_
  · intro s t r performed
    obtain ⟨b, made⟩ := r.exists_bindingOf shaped hv destructures
    simp only [MarkAction.perform, made] at performed
    cases performed
    exact ⟨b, by rw [List.lookup_cons, BEq.rfl]⟩
  · intro action mem s t r bound performed
    have outcome := MarkAction.outcome_of_mem_actions mem performed
    exact outcome.exists_lookup bound

/-- **A visit makes the markings right for one more node.** -/
theorem visit : Right nodes (v.index + 1) (v.index + 1) t := by
  have kept : Right nodes v.index (v.index + 1) t :=
    keeps_visit r.begin visited fun action mem s t r outcome => r.outcome shaped g hv mem outcome
  refine { kept with complete := ?_ }
  constructor
  · intro keyword before x around kind wrapper
    rcases Nat.lt_succ_iff_lt_or_eq.mp before with before | rfl
    · exact kept.complete.wrapper keyword before x around kind wrapper
    · exact r.wrapper_of_visit shaped g hv visited around kind wrapper
  · intro i before statement declared inside
    rcases Nat.lt_succ_iff_lt_or_eq.mp before with before | rfl
    · exact kept.complete.declared i before statement declared inside
    · rcases declared with named | field
      · exact r.name_of_visit shaped g hv visited named inside
      · exact (r.field_of_visit shaped g hv visited field).2 inside
  · intro pattern before statement destructures
    rcases Nat.lt_succ_iff_lt_or_eq.mp before with before | rfl
    · exact kept.complete.binding pattern before statement destructures
    · exact r.binding_of_visit shaped g hv visited destructures
  · intro i before statement field
    rcases Nat.lt_succ_iff_lt_or_eq.mp before with before | rfl
    · exact kept.complete.note i before statement field
    · exact (r.field_of_visit shaped g hv visited field).1

end Right

include shaped g

/-- **The walk makes the markings right for all nodes.** -/
theorem right_ofNodes (h : ofNodes nodes resolve = .ok s) : Right nodes nodes.length nodes.length s := by
  have walked := keeps_listFrom (p := fun k => Right nodes k k)
    (fun v hv s t r visited => Right.visit shaped g hv r visited) (right_init nodes) h
  rwa [Nat.zero_add] at walked

/-- **Names and destructured fields are exported with the statement that declares them.** The rules for
names apply to the names of the tree. After the walk, a name is exported exactly if its statement stands
in an export, behind the keyword; the nodes that are noted as destructured are the fields of destructured
variables, however deep their patterns are nested; and such a field is exported exactly if the statement
of the declarator around all of these patterns stands in an export. -/
theorem exported_ofNodes (h : ofNodes nodes resolve = .ok s) :
    (∀ v ∈ Visit.list nodes, (∃ category note steps,
        .declaredName category note steps ∈ v.actions (Arena.ofNodes nodes)) ↔
      ∃ statement, (Arena.ofNodes nodes).Names v.index statement) ∧
    (∀ name statement, (Arena.ofNodes nodes).Names name statement →
      ((s.mark name).exported = true ↔ (Arena.ofNodes nodes).InExport statement)) ∧
    (∀ field, (s.mark field).note = "destructured" ↔
      ∃ statement, (Arena.ofNodes nodes).Destructured field statement) ∧
    (∀ field statement, (Arena.ofNodes nodes).Destructured field statement →
      ((s.mark field).exported = true ↔ (Arena.ofNodes nodes).InExport statement)) := by
  have r := right_ofNodes shaped g h
  have present {i statement : Nat} (declared : (Arena.ofNodes nodes).Declares i statement) :
      i < nodes.length := by
    obtain ⟨p, around⟩ := declared.exists_parent?
    exact lt_length_of_parent? around
  have answer {i statement : Nat} (declared : (Arena.ofNodes nodes).Declares i statement) :
      (s.mark i).exported = true ↔ (Arena.ofNodes nodes).InExport statement :=
    ⟨fun exported => (r.sound.exported i exported).declared statement declared,
      r.complete.declared i (present declared) statement declared⟩
  refine ⟨fun v hv => ⟨?_, ?_⟩, fun name statement named => answer (Or.inl named), fun field => ⟨?_, ?_⟩,
    fun field statement destructured => answer (Or.inr destructured)⟩
  · rintro ⟨category, note, steps, mem⟩
    obtain ⟨statement, named, -⟩ := Visit.place_of_declaredName shaped hv g mem
    exact ⟨statement, named⟩
  · rintro ⟨statement, named⟩
    exact Visit.declaredName_mem_actions shaped hv named
  · exact r.sound.note field
  · rintro ⟨statement, destructured⟩
    exact r.complete.note field (present (Or.inr destructured)) statement destructured

omit shaped g

/-- The program `export const a = 1, { b: { c } } = d` with `function g() {}` after it. -/
def destructuringExport : List FlatNode :=
  [⟨0, "program", "", 1, 2, 0, 15, true, none⟩,
   ⟨1, "export_statement", "", 1, 1, 0, 36, true, none⟩,
   ⟨2, "export", "export", 1, 1, 0, 6, false, none⟩,
   ⟨2, "lexical_declaration", "", 1, 1, 7, 36, true, some "declaration"⟩,
   ⟨3, "variable_declarator", "a = 1", 1, 1, 13, 18, true, none⟩,
   ⟨4, "identifier", "a", 1, 1, 13, 14, false, some "name"⟩,
   ⟨3, "variable_declarator", "", 1, 1, 20, 36, true, none⟩,
   ⟨4, "object_pattern", "", 1, 1, 20, 32, true, some "name"⟩,
   ⟨5, "pair_pattern", "", 1, 1, 22, 30, true, none⟩,
   ⟨6, "property_identifier", "b", 1, 1, 22, 23, false, some "key"⟩,
   ⟨6, "object_pattern", "", 1, 1, 25, 30, true, some "value"⟩,
   ⟨7, "shorthand_property_identifier_pattern", "c", 1, 1, 27, 28, false, none⟩,
   ⟨1, "function_declaration", "", 2, 2, 0, 15, true, none⟩,
   ⟨2, "identifier", "g", 2, 2, 9, 10, false, some "name"⟩]

theorem treeShaped_destructuringExport : TreeShaped destructuringExport :=
  ⟨by decide, by decide⟩

theorem grammatical_destructuringExport : (Arena.ofNodes destructuringExport).Grammatical where
  declarator := by
    intro d kind
    have found : ∀ d < destructuringExport.length,
        (Arena.ofNodes destructuringExport).kind d = "variable_declarator" →
          (Arena.ofNodes destructuringExport).parent? d = some 3 := by decide
    have present : d < destructuringExport.length := lt_length_of_kind (kind ▸ by decide)
    exact ⟨3, found d present kind, Or.inl rfl⟩
  methodName := by
    intro i m _ kind
    have found : ∀ m < destructuringExport.length,
        (Arena.ofNodes destructuringExport).kind m ≠ "method_definition" := by decide
    exact absurd kind (found m (lt_length_of_kind (kind ▸ by decide)))

/-- The name `a` and the field `c`, which the second declarator takes out of a nested pattern, are exported;
the function behind the export is not. -/
theorem exported_ofNodes_destructuringExport :
    TreeShaped destructuringExport ∧ (Arena.ofNodes destructuringExport).Grammatical ∧
      ∃ s, ofNodes destructuringExport none = .ok s ∧ (s.mark 5).exported = true ∧
        (s.mark 11).note = "destructured" ∧ (s.mark 11).exported = true ∧ (s.mark 13).exported = false := by
  have shaped := treeShaped_destructuringExport
  have g := grammatical_destructuringExport
  obtain ⟨s, walked⟩ : ∃ s, ofNodes destructuringExport none = .ok s :=
    exists_ofNodes (by decide) (by decide) none
  obtain ⟨-, names, noted, fields⟩ := exported_ofNodes shaped g walked
  have inside : (Arena.ofNodes destructuringExport).InExport 3 := ⟨1, 2, rfl, rfl, by decide, rfl, rfl⟩
  have outside : ¬ (Arena.ofNodes destructuringExport).InExport 12 := by
    rintro ⟨x, keyword, around, wrapper, -⟩
    cases around
    exact absurd wrapper (by decide)
  have outer : (Arena.ofNodes destructuringExport).Destructures 7 3 := by
    have around : (Arena.ofNodes destructuringExport).parent? 7 = some 6 := rfl
    exact .declared rfl rfl around rfl rfl
  have inner : (Arena.ofNodes destructuringExport).Destructures 10 3 := by
    have around : (Arena.ofNodes destructuringExport).parent? 10 = some 8 := rfl
    have key : ((Arena.ofNodes destructuringExport).childByField? 8 "key").isSome = true := by decide +kernel
    exact .nested rfl rfl around rfl key rfl outer
  have field : (Arena.ofNodes destructuringExport).Destructured 11 3 :=
    ⟨10, .shorthand rfl rfl rfl, inner⟩
  have name : (Arena.ofNodes destructuringExport).Names 5 3 := by
    have around : (Arena.ofNodes destructuringExport).parent? 5 = some 4 := rfl
    exact .ofVariable rfl rfl around rfl rfl
  refine ⟨shaped, g, s, walked, (names 5 3 name).mpr inside, (noted 11).mpr ⟨3, field⟩,
    (fields 11 3 field).mpr inside, ?_⟩
  refine Bool.eq_false_iff.mpr fun exported => outside ?_
  exact (names 13 12 (.ofFunction rfl rfl rfl (by decide))).mp exported

end SourceSurvey.Markings
