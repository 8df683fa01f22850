import SourceSurvey.Keyed
import SourceSurvey.Proofs.Marking.Choice
import SourceSurvey.Proofs.Marking.Effects

/-!
# What an action writes

Most actions give the visited node its category, note and label, link it, or write down a path; they
leave all exports and bindings alone (`Markings.Plain`). The others are few, and `MarkAction.Outcome` says
what each of them writes, for the proofs about exports and bindings.
-/

namespace SourceSurvey

namespace Markings

variable {s t u : Markings} {i j : Nat} {f : Mark → Mark}

/-! ## Nodes of interest -/

theorem mem_attention : i ∈ s.attention ↔ i ∈ s.attended ∧ (s.mark i).label ≠ "" := by
  rw [attention, List.mem_filter, List.mem_mergeSort, bne_iff_ne]

theorem lt_of_mem_attention (h : i ∈ s.attention) : i < s.marks.size := by
  by_contra beyond
  have blank : s.mark i = {} := by
    rw [mark_eq, Array.getElem?_eq_none (Nat.le_of_not_lt beyond)]
    rfl
  have labelled := (List.mem_filter.mp h).2
  rw [blank] at labelled
  cases labelled

/-! ## Plain writes -/

/-- From `s` to `t` nothing is exported or bound, only node `i` gets a link or a note, and it is not noted
as destructured. -/
structure Plain (i : Nat) (s t : Markings) : Prop where
  size : t.marks.size = s.marks.size
  exported : ∀ j, (t.mark j).exported = (s.mark j).exported
  link : ∀ j, j ≠ i → (t.mark j).link = (s.mark j).link
  note : ∀ j, j ≠ i → (t.mark j).note = (s.mark j).note
  own : (t.mark i).note = "destructured" → (s.mark i).note = "destructured"
  bindings : t.bindings = s.bindings

namespace Plain

theorem refl : s.Plain i s :=
  ⟨rfl, fun _ => rfl, fun _ _ => rfl, fun _ _ => rfl, fun h => h, rfl⟩

theorem trans (h : s.Plain i t) (h' : t.Plain i u) : s.Plain i u where
  size := h'.size.trans h.size
  exported := fun j => (h'.exported j).trans (h.exported j)
  link := fun j hj => (h'.link j hj).trans (h.link j hj)
  note := fun j hj => (h'.note j hj).trans (h.note j hj)
  own := fun hi => h.own (h'.own hi)
  bindings := h'.bindings.trans h.bindings

theorem path (j : Nat) (path : Option String) : s.Plain i (s.change j fun m => { m with path }) where
  size := size_change
  exported := fun _ => part_change Mark.exported fun _ => rfl
  link := fun _ _ => part_change Mark.link fun _ => rfl
  note := fun _ _ => part_change Mark.note fun _ => rfl
  own := fun h => of_change (p := fun m => m.note = "destructured") h fun _ h => h
  bindings := rfl

theorem linked (link : Option Nat) : s.Plain i (s.change i fun m => { m with link }) where
  size := size_change
  exported := fun _ => part_change Mark.exported fun _ => rfl
  link := fun _ hj => congrArg Mark.link (mark_change_of_ne hj.symm)
  note := fun _ _ => part_change Mark.note fun _ => rfl
  own := fun h => of_change (p := fun m => m.note = "destructured") h fun _ h => h
  bindings := rfl

theorem attended (category : Category) {note : String} (label : String) (own : note ≠ "destructured") :
    s.Plain i (s.attend i category note label) where
  size := size_attend
  exported := fun _ => part_change Mark.exported fun _ => rfl
  link := fun _ _ => part_change Mark.link fun _ => rfl
  note := fun _ hj => congrArg Mark.note (mark_change_of_ne hj.symm)
  own := fun h => of_change (p := fun m => m.note = "destructured") h fun _ h => absurd h own
  bindings := rfl

theorem resolved (resolve : Option (String → Option String)) (v : Visit) (specifier : String) :
    s.Plain i (s.resolved resolve v specifier) := by
  unfold Markings.resolved
  split
  · exact refl
  · dsimp only
    split
    · exact (path _ _).trans (path _ _)
    · exact path _ _

end Plain

/-! ## Reading after a declaration -/

variable {v : Visit} {category : Category} {note label : String} {steps : Nat}

theorem note_attend (present : i < s.marks.size) :
    ((s.attend i category note label).mark j).note = if j = i then note else (s.mark j).note := by
  show ((s.change i _).mark j).note = _
  rw [mark_change_eq]
  by_cases h : i = j
  · rw [if_pos ⟨h, present⟩, if_pos h.symm]
  · rw [if_neg fun both => h both.1, if_neg fun same => h same.symm]

theorem exported_attend : ((s.attend i category note label).mark j).exported = (s.mark j).exported :=
  part_change Mark.exported fun _ => rfl

theorem link_attend : ((s.attend i category note label).mark j).link = (s.mark j).link :=
  part_change Mark.link fun _ => rfl

theorem exported_change (present : i < s.marks.size) (e : Bool) :
    ((s.change i fun m => { m with exported := e }).mark j).exported =
      if j = i then e else (s.mark j).exported := by
  rw [mark_change_eq]
  by_cases h : i = j
  · rw [if_pos ⟨h, present⟩, if_pos h.symm]
  · rw [if_neg fun both => h both.1, if_neg fun same => h same.symm]

theorem part_exported {β : Type} (part : Mark → β) (h : ∀ m e, part { m with exported := e } = part m)
    (e : Bool) : part ((s.change i fun m => { m with exported := e }).mark j) = part (s.mark j) :=
  part_change part fun m => h m e

theorem exported_declare (present : v.index < s.marks.size) :
    ((s.declare v category note label steps).mark j).exported = true ↔
      if j = v.index then s.isExported v.trail steps = true
      else (s.mark j).exported = true ∨ s.isExported v.trail steps = true ∧ j < s.marks.size ∧
        ∃ n ∈ (v.trail.nodes.drop 1).take steps, n.index = j := by
  rw [declare, exported_attend, exported_change (by rwa [size_exportAll, size_linkAround])]
  split
  · rfl
  · rw [exported_exportAll, part_linkAround Mark.exported fun _ _ => rfl, size_linkAround]
    cases s.isExported v.trail steps with
    | true => simp
    | false => simp

theorem note_declare (present : v.index < s.marks.size) :
    ((s.declare v category note label steps).mark j).note =
      if j = v.index then note else (s.mark j).note := by
  rw [declare, note_attend (by rwa [size_change, size_exportAll, size_linkAround]),
    part_exported Mark.note fun _ _ => rfl, part_exportAll Mark.note fun _ => rfl,
    part_linkAround Mark.note fun _ _ => rfl]

theorem link_declare {k : Nat} (h : ((s.declare v category note label steps).mark j).link = some k) :
    (s.mark j).link = some k ∨ k = v.index ∧ ∃ n, v.trail.outward? 1 = some n ∧ n.index = j := by
  rw [declare, link_attend, part_exported Mark.link fun _ _ => rfl, part_exportAll Mark.link fun _ => rfl,
    linkAround] at h
  split at h
  · next n around =>
    rw [mark_change_eq] at h
    split at h
    · next here =>
      cases h
      exact Or.inr ⟨rfl, n, around, here.1⟩
    · exact Or.inl h
  · exact Or.inl h

theorem bindings_declare : (s.declare v category note label steps).bindings = s.bindings :=
  bindings_exportAll.trans bindings_linkAround

end Markings

/-! ## Actions -/

namespace MarkAction

open Markings

/-- What an action makes of the markings. -/
inductive Outcome (a : Arena) (v : Visit) (s : Markings) : MarkAction → Markings → Prop
  | plain {action : MarkAction} {t : Markings} : s.Plain v.index t → Outcome a v s action t
  | declaredName (category : Category) (note : String) (steps : Nat) :
      Outcome a v s (declaredName category note steps)
        (s.declare v category note (Text.compact (a.text v.index)) steps)
  | patternField {steps : Nat} {pattern : Ancestor} {binding : Binding} :
      v.trail.outward? steps = some pattern → s.bindings.lookup pattern.index = some binding →
      Outcome a v s (patternField steps)
        ((s.change v.index fun m => { m with exported := binding.exported }).attend v.index
          binding.category binding.note (binding.name ++ "." ++ fieldName a v))
  | functionValue {note : String} {declarator : Ancestor} {name : Nat} :
      v.trail.outward? 1 = some declarator → (s.mark declarator.index).link = some name →
      Outcome a v s (functionValue note) (s.change name fun m =>
        { m with note, exported := m.exported || (s.mark declarator.index).exported })
  | exportKeyword : Outcome a v s exportKeyword (s.exportAll (v.trail.nodes.take 2))
  | exportName (note : String) :
      Outcome a v s (exportName note) ((s.change v.index fun m => { m with exported := true }).attend v.index
        .exported note (Text.compact (a.text v.index)))
  | objectPattern {binding : Binding} : bindingOf a v s = .ok (some binding) →
      Outcome a v s objectPattern { s with bindings := (v.index, binding) :: s.bindings }

variable {action : MarkAction} {a : Arena} {resolve : Option (String → Option String)} {v : Visit}
  {s t : Markings}

/-- Fields alone get the note of destructured fields without carrying it, and their exports are decided anew. -/
theorem note_ne_destructured {note label : String} (own : action.note? ≠ some "destructured")
    (free : action.assigns = false) (given : action.gives? a v s = some (note, label)) :
    note ≠ "destructured" := by
  rintro rfl
  rcases note_of_gives? given with carried | fixed | ⟨steps, _, _, rfl, -⟩
  · exact own carried
  · revert fixed
    decide
  · cases free

/-- **What an action makes of the markings**, if it does not carry the note of destructured fields. -/
theorem outcome_of_perform (own : action.note? ≠ some "destructured")
    (h : action.perform a resolve v s = .ok t) : action.Outcome a v s t := by
  cases effect_of_perform h with
  | idle => exact .plain Plain.refl
  | tag free _ given => exact .plain (Plain.attended _ _ (note_ne_destructured own free given))
  | linkTag j _ free _ given =>
      exact .plain ((Plain.linked (some j)).trans (Plain.attended _ _ (note_ne_destructured own free given)))
  | importPath => exact .plain ((Plain.resolved ..).trans (Plain.attended _ _ (by decide)))
  | declaredName category note steps => exact .declaredName ..
  | patternField out looked => exact .patternField out looked
  | exportName note => exact .exportName note
  | @returned note name components =>
      have attended := Plain.attended (s := s) (i := v.index) .component (tagLabel a v.index note)
        fun h => own (congrArg some h)
      have linked := attended.trans (Plain.linked (some name))
      exact .plain { linked with }
  | functionValue out linked => exact .functionValue out linked
  | exportKeyword => exact .exportKeyword
  | objectPattern bound => exact .objectPattern bound

/-- **Where an object pattern gets its binding from:** a parameter, a declarator, or the pattern around. -/
theorem cases_of_bindingOf {b : Binding} (h : bindingOf a v s = .ok (some b)) :
    ∃ parent, v.trail.outward? 1 = some parent ∧
      ((parent.kind = "required_parameter" ∨ parent.kind = "optional_parameter") ∧ b.note = "param-field" ∨
        parent.kind = "variable_declarator" ∧ a.field v.index = some "name" ∧ b.note = "destructured" ∧
          b.exported = s.isExported v.trail 2 ∨
        parent.kind = "pair_pattern" ∧ a.field v.index = some "value" ∧
          (a.childByField? parent.index "key").isSome = true ∧
          ∃ around outer, v.trail.outward? 2 = some around ∧ s.bindings.lookup around.index = some outer ∧
            b.note = outer.note ∧ b.exported = outer.exported) := by
  unfold bindingOf at h
  split at h
  · cases h
  next parent out =>
  refine ⟨parent, out, ?_⟩
  split at h
  · next is_parameter =>
    cases h
    exact Or.inl ⟨by simpa using is_parameter, rfl⟩
  split at h
  · next is_name =>
    cases h
    simp only [Bool.and_eq_true, beq_iff_eq] at is_name
    exact Or.inr (Or.inl ⟨is_name.1, is_name.2, rfl, rfl⟩)
  split at h
  · next is_value =>
    simp only [Bool.and_eq_true, beq_iff_eq] at is_value
    split at h
    · cases h
    next around out' =>
    split at h
    · next outer key bound held =>
      cases h
      exact Or.inr (Or.inr ⟨is_value.1, is_value.2, by rw [held]; rfl, around, outer, out', bound, rfl, rfl⟩)
    · cases h
  · cases h

theorem Outcome.size (h : action.Outcome a v s t) : t.marks.size = s.marks.size := by
  cases h with
  | plain h => exact h.size
  | declaredName => rw [declare, size_attend, size_change, size_exportAll, size_linkAround]
  | patternField => rw [size_attend, size_change]
  | functionValue => exact size_change
  | exportKeyword => exact size_exportAll
  | exportName => rw [size_attend, size_change]
  | objectPattern => rfl

/-- An export is taken back only from the visited node, and only to be decided anew. -/
theorem Outcome.exported_mono (h : action.Outcome a v s t) (present : v.index < s.marks.size) {j : Nat}
    (firm : j = v.index → action.assigns = false) (exported : (s.mark j).exported = true) :
    (t.mark j).exported = true := by
  cases h with
  | plain h => exact (h.exported j).trans exported
  | declaredName category note steps =>
      have other : j ≠ v.index := fun own => nomatch firm own
      rw [exported_declare present, if_neg other]
      exact Or.inl exported
  | patternField =>
      have other : j ≠ v.index := fun own => nomatch firm own
      rw [exported_attend, exported_change present, if_neg other]
      exact exported
  | functionValue =>
      rw [mark_change_eq]
      split
      · exact Bool.or_eq_true_iff.mpr (Or.inl exported)
      · exact exported
  | exportKeyword => exact exported_exportAll.mpr (Or.inl exported)
  | exportName note =>
      rw [exported_attend, exported_change present]
      split
      · rfl
      · exact exported
  | objectPattern => exact exported

theorem Outcome.exists_lookup (h : action.Outcome a v s t) {j : Nat}
    (bound : ∃ b, s.bindings.lookup j = some b) : ∃ b, t.bindings.lookup j = some b := by
  cases h with
  | plain h => rwa [h.bindings]
  | declaredName => rwa [bindings_declare]
  | patternField | functionValue | exportName => exact bound
  | exportKeyword => rwa [bindings_exportAll]
  | objectPattern =>
      rw [List.lookup_cons]
      split
      · exact ⟨_, rfl⟩
      · exact bound

/-- No rule carries the note of destructured fields: they inherit it from their pattern. -/
theorem note?_of_mem_actions (h : action ∈ v.actions a) : action.note? ≠ some "destructured" := by
  have table : ∀ group ∈ MarkRule.groups, ∀ rule ∈ group, ∀ y ∈ rule.alternatives,
      y.2.note? ≠ some "destructured" := by decide
  obtain ⟨group, hgroup, rule, hrule, pattern, mem, -⟩ := Visit.exists_of_mem_actions h
  exact table group hgroup rule hrule (pattern, action) mem

theorem outcome_of_mem_actions (mem : action ∈ v.actions a) (h : action.perform a resolve v s = .ok t) :
    action.Outcome a v s t :=
  outcome_of_perform (note?_of_mem_actions mem) h

end MarkAction

/-! ## Runs -/

theorem keeps_foldlM {ε σ β : Type} {f : σ → β → Except ε σ} {p : σ → Prop} {l : List β}
    (step : ∀ x ∈ l, ∀ s t, p s → f s x = .ok t → p t) {s t : σ} (hs : p s)
    (h : l.foldlM f s = .ok t) : p t := by
  induction l generalizing s with
  | nil =>
      cases h
      exact hs
  | cons x rest ih =>
      rw [List.foldlM_cons] at h
      cases first : f s x with
      | error e =>
          rw [first] at h
          cases h
      | ok u =>
          rw [first] at h
          refine ih (fun y hy => step y (List.mem_cons_of_mem x hy)) ?_ h
          exact step x List.mem_cons_self s u hs first

/-- What one step of a run makes true and every step keeps is true in the end. -/
theorem reaches_foldlM {ε σ β : Type} {f : σ → β → Except ε σ} {p q : σ → Prop} {l : List β}
    (step : ∀ x ∈ l, ∀ s t, p s → f s x = .ok t → p t)
    (stays : ∀ x ∈ l, ∀ s t, p s → q s → f s x = .ok t → q t) {x : β} (mem : x ∈ l)
    (makes : ∀ s t, p s → f s x = .ok t → q t) {s t : σ} (hs : p s) (h : l.foldlM f s = .ok t) : q t := by
  induction l generalizing s with
  | nil => cases mem
  | cons y rest ih =>
      rw [List.foldlM_cons] at h
      cases first : f s y with
      | error e =>
          rw [first] at h
          cases h
      | ok u =>
          rw [first] at h
          have hu := step y List.mem_cons_self s u hs first
          have step' := fun z hz => step z (List.mem_cons_of_mem y hz)
          have stays' := fun z hz => stays z (List.mem_cons_of_mem y hz)
          rcases List.mem_cons.mp mem with rfl | mem
          · refine (keeps_foldlM (p := fun s => p s ∧ q s) ?_ ⟨hu, makes s u hs first⟩ h).2
            exact fun z hz s t hs h => ⟨step' z hz s t hs.1 h, stays' z hz s t hs.1 hs.2 h⟩
          · exact ih step' stays' mem hu h

namespace Markings

variable {a : Arena} {resolve : Option (String → Option String)} {v : Visit} {s t : Markings}

theorem keeps_visit {p : Markings → Prop} (hs : p s) (h : visit a resolve s v = .ok t)
    (step : ∀ action ∈ v.actions a, ∀ s t, p s → action.Outcome a v s t → p t) : p t :=
  keeps_foldlM (fun action mem s t hs h =>
    step action mem s t hs (MarkAction.outcome_of_mem_actions mem h)) hs h

/-- What holds of the first `k` nodes when node `k` is visited, and of one more afterwards, holds of all
in the end. -/
theorem keeps_listFrom {p : Nat → Markings → Prop} {trail : Trail} {k : Nat} {rest : List FlatNode}
    (step : ∀ v ∈ Visit.listFrom trail k rest, ∀ s t, p v.index s → visit a resolve s v = .ok t →
      p (v.index + 1) t)
    (hs : p k s) (h : (Visit.listFrom trail k rest).foldlM (visit a resolve) s = .ok t) :
    p (k + rest.length) t := by
  induction rest generalizing trail k s with
  | nil =>
      cases h
      exact hs
  | cons n rest ih =>
      rw [Visit.listFrom, List.foldlM_cons] at h
      cases first : visit a resolve s ⟨k, trail.enter n.depth ⟨⟨n.field, n.kind⟩, k⟩⟩ with
      | error e =>
          rw [first] at h
          cases h
      | ok u =>
          rw [first] at h
          have next := ih (fun v hv => step v (List.mem_cons_of_mem _ hv))
            (step _ List.mem_cons_self s u hs first) h
          rwa [List.length_cons, Nat.add_comm rest.length, ← Nat.add_assoc]

theorem size_ofNodes {nodes : List FlatNode} (h : ofNodes nodes resolve = .ok s) :
    s.marks.size = nodes.length := by
  refine keeps_foldlM (p := fun s => s.marks.size = nodes.length) ?_ (size_init nodes.length) h
  intro v _ s t hs visited
  exact keeps_visit hs visited fun action _ s t hs outcome => outcome.size.trans hs

end Markings

end SourceSurvey
