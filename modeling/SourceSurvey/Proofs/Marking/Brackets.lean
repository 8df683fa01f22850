import SourceSurvey.Proofs.Marking.Conflicts
import SourceSurvey.Proofs.Marking.Ends

/-!
# Ends of constructs in the markings

Later groups of rules write over what earlier ones have noted, and a bound function notes a name again, but
neither touches the end of a construct. So after a walk a side is noted at its ends and nowhere else
(`Markings.exists_delimits_of_speaks`), and all ends are of interest (`Markings.shown_of_delimits`).
-/

namespace SourceSurvey

namespace Markings

open Arena

/-- What is noted at the ends of constructs while the walk goes on: a side is noted at its ends only. The
name of a variable, which may be noted again, is a child of its declarator. -/
structure Sided (a : Arena) (s : Markings) : Prop where
  size : s.marks.size = a.size
  notes : ∀ side i, side.speaks (s.mark i).note = true → ∃ host, a.Delimits side host i
  names : ∀ d n, a.kind d = "variable_declarator" → (s.mark d).link = some n → a.parent? n = some d
  bindings : ∀ e ∈ s.bindings, e.2.note ∈ MarkAction.bindingNotes

structure Shown (side : Side) (i : Nat) (s : Markings) : Prop where
  attended : i ∈ s.attended
  label : (s.mark i).label ≠ ""
  note : side.speaks (s.mark i).note = true

variable {a : Arena} {s : Markings} {i j : Nat} {side : Side} {f : Mark → Mark}

theorem sided_init : (init a.size).Sided a where
  size := size_init a.size
  notes := by
    intro side i speaks
    rw [mark_init] at speaks
    cases side <;> exact absurd speaks (by decide)
  names := by
    intro d n _ linked
    rw [mark_init] at linked
    cases linked
  bindings := nofun

/-- A change may leave notes and links alone, note a side at an end, and link a declarator with a child. -/
theorem Sided.change (h : s.Sided a)
    (note : ∀ m side, side.speaks (f m).note = true →
      side.speaks m.note = true ∨ ∃ host, a.Delimits side host j)
    (link : ∀ m n, a.kind j = "variable_declarator" → (f m).link = some n →
      m.link = some n ∨ a.parent? n = some j) : (s.change j f).Sided a where
  size := size_change.trans h.size
  notes := by
    intro side i speaks
    rw [mark_change_eq] at speaks
    split at speaks
    · next here =>
      obtain ⟨rfl, -⟩ := here
      rcases note _ side speaks with before | ends
      · exact h.notes side j before
      · exact ends
    · exact h.notes side i speaks
  names := by
    intro d n kind linked
    rw [mark_change_eq] at linked
    split at linked
    · next here =>
      obtain ⟨rfl, -⟩ := here
      rcases link _ n kind linked with before | child
      · exact h.names j n kind before
      · exact child
    · exact h.names d n kind linked
  bindings := h.bindings

theorem Sided.attend (h : s.Sided a) (category : Category) {note : String} (label : String)
    (ends : ∀ side, side.speaks note = true → ∃ host, a.Delimits side host j) :
    (s.attend j category note label).Sided a := by
  have changed := h.change (j := j) (f := fun m => { m with category := some category, note, label })
    (fun _ side speaks => Or.inr (ends side speaks)) fun _ _ _ linked => Or.inl linked
  exact ⟨changed.size, changed.notes, changed.names, changed.bindings⟩

theorem Shown.change (h : s.Shown side i)
    (keeps : j = i → ∀ m, (f m).label = m.label ∧ (f m).note = m.note) : (s.change j f).Shown side i := by
  by_cases here : j = i
  · refine ⟨h.attended, ?_, ?_⟩
    · rw [part_change Mark.label fun m => (keeps here m).1]
      exact h.label
    · rw [part_change Mark.note fun m => (keeps here m).2]
      exact h.note
  · refine ⟨h.attended, ?_, ?_⟩
    · rw [mark_change_of_ne here]
      exact h.label
    · rw [mark_change_of_ne here]
      exact h.note

theorem Shown.attend (h : s.Shown side i) (other : j ≠ i) (category : Category) (note label : String) :
    (s.attend j category note label).Shown side i := by
  have changed := h.change (f := fun m => { m with category := some category, note, label }) fun same =>
    absurd same other
  exact ⟨mem_attended_attend.mpr (Or.inr h.attended), changed.label, changed.note⟩

theorem shown_attend (present : i < s.marks.size) (category : Category) {note label : String}
    (speaks : side.speaks note = true) (filled : label ≠ "") :
    (s.attend i category note label).Shown side i where
  attended := mem_attended_attend.mpr (Or.inl rfl)
  label := by
    show ((s.change i _).mark i).label ≠ ""
    rw [mark_change_eq, if_pos ⟨rfl, present⟩]
    exact filled
  note := by
    rw [note_attend present, if_pos rfl]
    exact speaks

theorem Sided.present {nodes : List FlatNode} {v : Visit} (hs : s.Sided (Arena.ofNodes nodes))
    (shaped : TreeShaped nodes) (hv : v ∈ Visit.list nodes) : v.index < s.marks.size := by
  rw [hs.size]
  exact Visit.index_lt shaped hv

end Markings

namespace Visit

open Arena MarkAction MarkRule

variable {nodes : List FlatNode} {v : Visit} (shaped : TreeShaped nodes) (hv : v ∈ list nodes)
  {action : MarkAction} {side : Side} {host i : Nat}

include shaped hv

omit shaped in
theorem kind_of_linksOwn (mem : action ∈ v.actions (ofNodes nodes)) (links : action.linksOwn = true) :
    (ofNodes nodes).kind v.index ≠ "variable_declarator" := by
  have rules : ∀ y ∈ MarkRule.table, y.2.linksOwn = true →
      ∀ k ∈ ["variable_declarator"], Pattern.misses k y.1 = true := by decide
  intro kind
  exact kind_not_mem hv rules mem links (by simp [kind])

theorem not_speaks_of_functionValue {note : String} (mem : functionValue note ∈ v.actions (ofNodes nodes)) :
    side.speaks note = false := by
  obtain ⟨steps, place, -⟩ := fits_of_mem_actions shaped hv mem rfl
  obtain ⟨-, rfl⟩ | ⟨-, rfl⟩ := by simpa [places] using place
  · cases side <;> decide
  · cases side <;> decide

end Visit

namespace MarkAction

open Markings

variable {nodes : List FlatNode} {resolve : Option (String → Option String)} {v : Visit} {s t : Markings}
  {action : MarkAction} {side : Side} {host i : Nat} (shaped : TreeShaped nodes) (hv : v ∈ Visit.list nodes)
  (bracketed : (Arena.ofNodes nodes).Bracketed) (mem : action ∈ v.actions (Arena.ofNodes nodes))

theorem not_speaks_own {note : String} (own : note ∈ "import-path" :: ownNotes) : side.speaks note = false := by
  have all : ∀ note ∈ "import-path" :: ownNotes, side.speaks note = false := by cases side <;> decide
  exact all note own

include shaped hv mem

theorem rename_ne {note : String} {declarator : Ancestor} {name : Nat} (hs : s.Sided (Arena.ofNodes nodes))
    (renames : action = functionValue note) (out : v.trail.outward? 1 = some declarator)
    (linked : (s.mark declarator.index).link = some name)
    (d : (Arena.ofNodes nodes).Delimits side host i) : name ≠ i := by
  subst renames
  rintro rfl
  obtain ⟨declarator', out', kind⟩ := Visit.place_of_functionValue shaped hv mem
  obtain rfl := Option.some.inj (out.symm.trans out')
  obtain ⟨p, around, kinds⟩ := d.exists_parent
  have child := hs.names _ _ kind linked
  obtain rfl := Option.some.inj (around.symm.trans child)
  have other : ∀ e ∈ side.kindsOf, e.2 ≠ "variable_declarator" := by cases side <;> decide
  exact other _ kinds kind

include bracketed

/-- **Every write notes a side at an end only.** -/
theorem sided_write (hs : s.Sided (Arena.ofNodes nodes))
    (h : action.Write (Arena.ofNodes nodes) resolve v s t) : t.Sided (Arena.ofNodes nodes) := by
  have bound := h.bindings hs.bindings
  cases h with
  | exported => exact hs.change (fun _ _ speaks => Or.inl speaks) fun _ _ _ linked => Or.inl linked
  | statement => exact hs.change (fun _ _ speaks => Or.inl speaks) fun _ _ _ linked => Or.inl linked
  | component => exact ⟨hs.size, hs.notes, hs.names, hs.bindings⟩
  | bind => exact ⟨hs.size, hs.notes, hs.names, bound⟩
  | link link own =>
      refine hs.change (fun _ _ speaks => Or.inl speaks) ?_
      intro _ _ kind
      exact absurd kind (Visit.kind_of_linksOwn hv mem own)
  | around out =>
      refine hs.change (fun _ _ speaks => Or.inl speaks) ?_
      rintro _ n - ⟨⟩
      rw [Visit.outward?_one_eq shaped hv, Option.map_eq_some_iff] at out
      obtain ⟨p, around, rfl⟩ := out
      exact Or.inr around
  | path =>
      have written : (writePath resolve v.index (specifierOf ((Arena.ofNodes nodes).text v.index)) s).Sided
          (Arena.ofNodes nodes) := by
        unfold writePath
        split
        · exact hs
        · exact hs.change (fun _ _ speaks => Or.inl speaks) fun _ _ _ linked => Or.inl linked
      apply written.attend
      intro side speaks
      rw [not_speaks_own List.mem_cons_self] at speaks
      cases speaks
  | attend category gives =>
      apply hs.attend
      intro side speaks
      rcases note_of_gives?_of_bindings hs.bindings gives with carried | own
      · apply Visit.exists_delimits shaped hv bracketed mem
        rw [carried]
        exact speaks
      · rw [not_speaks_own (List.mem_cons_of_mem _ own)] at speaks
        cases speaks
  | rename exported out linked =>
      refine hs.change ?_ fun _ _ _ linked => Or.inl linked
      intro _ side speaks
      rw [Visit.not_speaks_of_functionValue shaped hv mem] at speaks
      cases speaks

/-- **No write hides an end that is shown.** -/
theorem shown_write (hs : s.Sided (Arena.ofNodes nodes))
    (d : (Arena.ofNodes nodes).Delimits side host i) (shown : s.Shown side i)
    (h : action.Write (Arena.ofNodes nodes) resolve v s t) : t.Shown side i := by
  cases h with
  | exported => exact shown.change fun _ _ => ⟨rfl, rfl⟩
  | link => exact shown.change fun _ _ => ⟨rfl, rfl⟩
  | around => exact shown.change fun _ _ => ⟨rfl, rfl⟩
  | statement => exact shown.change fun _ _ => ⟨rfl, rfl⟩
  | component => exact ⟨shown.attended, shown.label, shown.note⟩
  | bind => exact ⟨shown.attended, shown.label, shown.note⟩
  | rename exported out linked =>
      have other := rename_ne shaped hv mem hs rfl out linked d
      exact shown.change fun same => absurd same other
  | path =>
      -- a path of an import is no end, as nothing but what suits an end happens at one
      have other : v.index ≠ i := by
        rintro rfl
        cases Visit.suits_of_delimits shaped hv d mem
      refine Shown.attend ?_ other _ _ _
      unfold writePath
      split
      · exact shown
      · exact shown.change fun _ _ => ⟨rfl, rfl⟩
  | attend category gives =>
      by_cases here : v.index = i
      · subst here
        have suits := Visit.suits_of_delimits shaped hv d mem
        obtain ⟨note, label, gives', speaks, filled⟩ := gives?_of_suits bracketed d suits s
        cases gives.symm.trans gives'
        exact shown_attend (hs.present shaped hv) category speaks filled
      · exact shown.attend here _ _ _

theorem sided_perform (hs : s.Sided (Arena.ofNodes nodes))
    (h : action.perform (Arena.ofNodes nodes) resolve v s = .ok t) : t.Sided (Arena.ofNodes nodes) :=
  keeps_perform (fun _ _ => sided_write shaped hv bracketed mem) hs h

theorem stays_shown (hs : s.Sided (Arena.ofNodes nodes)) (d : (Arena.ofNodes nodes).Delimits side host i)
    (shown : s.Shown side i) (h : action.perform (Arena.ofNodes nodes) resolve v s = .ok t) :
    t.Shown side i := by
  refine (keeps_perform (p := fun s => s.Sided (Arena.ofNodes nodes) ∧ s.Shown side i) ?_ ⟨hs, shown⟩ h).2
  rintro s t ⟨sided, shown⟩ write
  exact ⟨sided_write shaped hv bracketed mem sided write,
    shown_write shaped hv bracketed mem sided d shown write⟩

/-- **An action at an end shows it.** -/
theorem shown_perform (hs : s.Sided (Arena.ofNodes nodes))
    (d : (Arena.ofNodes nodes).Delimits side host v.index)
    (h : action.perform (Arena.ofNodes nodes) resolve v s = .ok t) : t.Shown side v.index := by
  have suits := Visit.suits_of_delimits shaped hv d mem
  obtain ⟨note, label, gives, speaks, filled⟩ := gives?_of_suits bracketed d suits s
  have present := hs.present shaped hv
  cases action with
  | punctuation category =>
      cases gives
      cases h
      exact shown_attend present category speaks filled
  | component =>
      cases gives
      cases h
      exact shown_attend present .component speaks filled
  | returnedComponent =>
      cases gives
      have shown := shown_attend present .component speaks filled
      simp only [perform] at h
      split at h
      · cases h
        exact shown
      · next name _ =>
        cases h
        have linked := shown.change (j := v.index) (f := fun m => { m with link := some name })
          fun _ _ => ⟨rfl, rfl⟩
        exact ⟨linked.attended, linked.label, linked.note⟩
  | _ => cases suits

end MarkAction

/-! ## What a walk makes of ends -/

namespace Markings

variable {nodes : List FlatNode} {resolve : Option (String → Option String)} {s : Markings}
  (shaped : TreeShaped nodes) (bracketed : (Arena.ofNodes nodes).Bracketed)
  (h : ofNodes nodes resolve = .ok s) {side : Side} {host i : Nat}

include shaped bracketed h

/-- **In the end a side is noted at its ends only.** -/
theorem exists_delimits_of_speaks (speaks : side.speaks (s.mark i).note = true) :
    ∃ host, (Arena.ofNodes nodes).Delimits side host i := by
  have sided : s.Sided (Arena.ofNodes nodes) := by
    refine keeps_ofNodes ?_ sided_init h
    intro v hv action mem s t hs write
    exact MarkAction.sided_write shaped hv bracketed mem hs write
  exact sided.notes side i speaks

/-- **In the end every end of a construct is shown.** -/
theorem shown_of_delimits (d : (Arena.ofNodes nodes).Delimits side host i) : s.Shown side i := by
  obtain ⟨p, around, -⟩ := d.exists_parent
  obtain ⟨v, hv, rfl⟩ := Visit.exists_visit (Arena.lt_length_of_parent? around)
  refine reaches_foldlM (p := Sided (Arena.ofNodes nodes)) ?_ ?_ hv ?_ sided_init h
  · intro w hw s t hs visited
    exact keeps_foldlM (fun _ mem _ _ => MarkAction.sided_perform shaped hw bracketed mem) hs visited
  · intro w hw s t hs shown visited
    refine (keeps_foldlM (p := fun s => s.Sided (Arena.ofNodes nodes) ∧ s.Shown side v.index) ?_ ⟨hs, shown⟩
      visited).2
    intro _ mem _ _ ⟨hs, shown⟩ performed
    exact ⟨MarkAction.sided_perform shaped hw bracketed mem hs performed,
      MarkAction.stays_shown shaped hw bracketed mem hs d shown performed⟩
  · -- on the visit of the end itself some action shows it, and the others keep it
    intro s t hs visited
    obtain ⟨action, mem⟩ := Visit.exists_mem_actions shaped hv d
    refine reaches_foldlM (p := Sided (Arena.ofNodes nodes)) ?_ ?_ mem ?_ hs visited
    · intro _ mem _ _
      exact MarkAction.sided_perform shaped hv bracketed mem
    · intro _ mem _ _ hs shown
      exact MarkAction.stays_shown shaped hv bracketed mem hs d shown
    · intro _ _ hs performed
      exact MarkAction.shown_perform shaped hv bracketed mem hs d performed

end Markings

end SourceSurvey
