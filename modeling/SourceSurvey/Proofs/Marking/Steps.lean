import Mathlib.Logic.Relation
import SourceSurvey.Proofs.Marking.Writes

/-!
# Writes one at a time

An action writes down several things in a row: links and exports, a file, and the note and the label of the
visited node. Here each of them is a step of its own (`MarkAction.Write`), with all that is known of it, and
an action is a series of such steps (`MarkAction.writes_of_perform`). So what no single write breaks, no
walk breaks (`Markings.keeps_ofNodes`); one such thing is that no node is attended twice, so the nodes of
interest come in order, each once (`Markings.sorted_attention`).
-/

namespace SourceSurvey

namespace Markings

variable {s : Markings} {i j : Nat} {f g : Mark → Mark}

theorem change_comm (apart : i ≠ j) : (s.change i f).change j g = (s.change j g).change i f := by
  have marks : (s.marks.modify i f).modify j g = (s.marks.modify j g).modify i f := by
    apply Array.ext
    · simp only [Array.size_modify]
    · intro k _ _
      simp only [Array.getElem_modify]
      split
      · split
        · next at_j at_i => exact absurd (at_i.trans at_j.symm) apart
        · rfl
      · rfl
  simp only [change, marks]

variable {category : Category} {note label : String}

theorem mem_attended_attend : i ∈ (s.attend j category note label).attended ↔ i = j ∨ i ∈ s.attended := by
  show i ∈ (if s.attended.contains j then s.attended else j :: s.attended) ↔ _
  split
  · next known =>
    constructor
    · exact Or.inr
    · rintro (rfl | mem)
      · exact List.contains_iff_mem.mp known
      · exact mem
  · exact List.mem_cons

theorem nodup_attended_attend (distinct : s.attended.Nodup) :
    (s.attend j category note label).attended.Nodup := by
  show (if s.attended.contains j then s.attended else j :: s.attended).Nodup
  split
  · exact distinct
  · next fresh => exact List.nodup_cons.mpr ⟨fun mem => fresh (List.contains_iff_mem.mpr mem), distinct⟩

end Markings

namespace MarkAction

open Markings Relation

/-- The file that a specifier leads to is written down at the visited node, if there is anyone to ask. -/
def writePath (resolve : Option (String → Option String)) (i : Nat) (specifier : String) (s : Markings) :
    Markings :=
  match resolve with
  | none => s
  | some find => s.change i fun m => { m with path := find specifier }

inductive Write (a : Arena) (resolve : Option (String → Option String)) (v : Visit) :
    MarkAction → Markings → Markings → Prop
  | exported {action : MarkAction} {s : Markings} (j : Nat) (exported : Bool) :
      Write a resolve v action s (s.change j fun m => { m with exported })
  | link {action : MarkAction} {s : Markings} (link : Option Nat) : action.linksOwn = true →
      Write a resolve v action s (s.change v.index fun m => { m with link })
  | around {category : Category} {note : String} {steps : Nat} {s : Markings} {declaration : Ancestor} :
      v.trail.outward? 1 = some declaration → Write a resolve v (declaredName category note steps) s
        (s.change declaration.index fun m => { m with link := some v.index })
  | statement {s : Markings} {statement : Ancestor} (path : Option String) :
      v.trail.findKind? ["import_statement"] 0 = some statement →
      Write a resolve v importPath s (s.change statement.index fun m => { m with path })
  | path {s : Markings} : Write a resolve v importPath s
      ((writePath resolve v.index (specifierOf (a.text v.index)) s).attend v.index .imported "import-path"
        (specifierOf (a.text v.index)))
  | attend {action : MarkAction} {s : Markings} (category : Category) {note label : String} :
      action.gives? a v s = some (note, label) →
      Write a resolve v action s (s.attend v.index category note label)
  | rename {note : String} {s : Markings} {declarator : Ancestor} {name : Nat} (exported : Mark → Bool) :
      v.trail.outward? 1 = some declarator → (s.mark declarator.index).link = some name →
      Write a resolve v (functionValue note) s
        (s.change name fun m => { m with note, exported := exported m })
  | bind {s : Markings} {binding : Binding} : bindingOf a v s = .ok (some binding) →
      Write a resolve v objectPattern s { s with bindings := (v.index, binding) :: s.bindings }
  | component {action : MarkAction} {s : Markings} (components : List Nat) :
      Write a resolve v action s { s with components }

variable {a : Arena} {resolve : Option (String → Option String)} {v : Visit} {s t : Markings}
  {action : MarkAction}

theorem writes_exportAll (l : List Ancestor) :
    ReflTransGen (Write a resolve v action) s (s.exportAll l) := by
  induction l generalizing s with
  | nil => exact .refl
  | cons n rest ih => exact .head (.exported n.index true) ih

theorem writes_resolved : ReflTransGen (Write a resolve v importPath) s
    ((s.resolved resolve v (specifierOf (a.text v.index))).attend v.index .imported "import-path"
      (specifierOf (a.text v.index))) := by
  unfold resolved
  cases resolve with
  | none => exact .single .path
  | some find =>
      dsimp only
      split
      · next statement around =>
        -- the file is written to the string first, but to the statement it could be as well
        have swap {f : Mark → Mark} : (s.change v.index f).change statement.index f =
            (s.change statement.index f).change v.index f := by
          by_cases apart : v.index = statement.index
          · rw [apart]
          · exact change_comm apart
        rw [swap]
        exact .head (.statement _ around) (.single .path)
      · exact .single .path

theorem writes_linkAround {category : Category} {note : String} {steps : Nat} :
    ReflTransGen (Write a resolve v (declaredName category note steps)) s (s.linkAround v) := by
  unfold linkAround
  split
  · next declaration out => exact .single (.around out)
  · exact .refl

/-- **An action is a series of writes.** -/
theorem writes_of_perform (h : action.perform a resolve v s = .ok t) :
    ReflTransGen (Write a resolve v action) s t := by
  cases effect_of_perform h with
  | idle => exact .refl
  | tag _ _ given => exact .single (.attend _ given)
  | linkTag j links _ _ given => exact .head (.link _ links) (.single (.attend _ (gives?_change.trans given)))
  | importPath => exact writes_resolved
  | declaredName category note steps =>
      exact .tail (.tail (.trans writes_linkAround (writes_exportAll _)) (.exported _ _)) (.attend _ rfl)
  | @patternField steps pattern binding out looked =>
      refine .head (.exported v.index binding.exported) (.single (.attend _ ?_))
      rw [gives?_change, gives?, out, Option.bind_some, looked, Option.map_some]
  | exportName note => exact .head (.exported v.index true) (.single (.attend _ rfl))
  | returned => exact .head (.attend _ rfl) (.head (.link _ rfl) (.single (.component _)))
  | functionValue out linked => exact .single (.rename _ out linked)
  | exportKeyword => exact writes_exportAll _
  | objectPattern bound => exact .single (.bind bound)

/-! ## Notes -/

/-- The notes that object patterns hand on to their fields. -/
def bindingNotes : List String := ["param-field", "destructured"]

/-- The notes that no rule carries with it. -/
def ownNotes : List String := fixedNotes ++ bindingNotes

theorem note_of_bindingOf {b : Binding} (bound : ∀ e ∈ s.bindings, e.2.note ∈ bindingNotes)
    (h : bindingOf a v s = .ok (some b)) : b.note ∈ bindingNotes := by
  obtain ⟨parent, -, ⟨-, note⟩ | ⟨-, -, note, -⟩ | ⟨-, -, -, around, outer, -, looked, note, -⟩⟩ :=
    cases_of_bindingOf h
  · rw [note]
    decide
  · rw [note]
    decide
  · rw [note]
    exact bound _ (mem_of_lookup looked)

theorem Write.bindings (h : action.Write a resolve v s t) (bound : ∀ e ∈ s.bindings, e.2.note ∈ bindingNotes) :
    ∀ e ∈ t.bindings, e.2.note ∈ bindingNotes := by
  cases h with
  | exported | link | around | statement | attend | rename | component => exact bound
  | path =>
      unfold writePath
      split
      · exact bound
      · exact bound
  | bind made => exact List.forall_mem_cons.mpr ⟨note_of_bindingOf bound made, bound⟩

/-- A visited node is noted as the rule says, or with a note of its own. -/
theorem note_of_gives?_of_bindings {note label : String} (bound : ∀ e ∈ s.bindings, e.2.note ∈ bindingNotes)
    (h : action.gives? a v s = some (note, label)) : action.note? = some note ∨ note ∈ ownNotes := by
  rcases note_of_gives? h with carried | fixed | ⟨steps, pattern, b, -, -, looked, rfl⟩
  · exact Or.inl carried
  · exact Or.inr (List.mem_append_left _ fixed)
  · exact Or.inr (List.mem_append_right _ (bound _ (mem_of_lookup looked)))

/-! ## Runs -/

theorem keeps_perform {p : Markings → Prop} (step : ∀ s t, p s → action.Write a resolve v s t → p t)
    (hs : p s) (h : action.perform a resolve v s = .ok t) : p t := by
  have writes := writes_of_perform h
  clear h
  induction writes with
  | refl => exact hs
  | tail _ write ih => exact step _ _ ih write

end MarkAction

namespace Markings

/-- What no write on any visit breaks is true in the end. -/
theorem keeps_ofNodes {p : Markings → Prop} {nodes : List FlatNode}
    {resolve : Option (String → Option String)} {s : Markings}
    (step : ∀ v ∈ Visit.list nodes, ∀ action ∈ v.actions (Arena.ofNodes nodes), ∀ s t, p s →
      action.Write (Arena.ofNodes nodes) resolve v s t → p t)
    (start : p (init nodes.length)) (h : ofNodes nodes resolve = .ok s) : p s := by
  refine keeps_foldlM ?_ start h
  intro v hv s t hs visited
  refine keeps_foldlM ?_ hs visited
  intro action mem s t hs performed
  exact MarkAction.keeps_perform (step v hv action mem) hs performed

theorem nodup_attended {nodes : List FlatNode} {resolve : Option (String → Option String)} {s : Markings}
    (h : ofNodes nodes resolve = .ok s) : s.attended.Nodup := by
  refine keeps_ofNodes (p := fun s => s.attended.Nodup) ?_ List.nodup_nil h
  intro v _ action _ s t distinct write
  cases write with
  | exported | link | around | statement | rename | bind | component => exact distinct
  | attend => exact nodup_attended_attend distinct
  | path =>
      apply nodup_attended_attend
      unfold MarkAction.writePath
      split
      · exact distinct
      · exact distinct

/-- **The nodes of interest come in order, each once.** -/
theorem sorted_attention {nodes : List FlatNode} {resolve : Option (String → Option String)} {s : Markings}
    (h : ofNodes nodes resolve = .ok s) : s.attention.Pairwise (· < ·) := by
  apply List.Pairwise.filter
  have distinct : (s.attended.mergeSort fun i j => decide (i ≤ j)).Nodup :=
    (List.mergeSort_perm s.attended _).nodup_iff.mpr (nodup_attended h)
  refine (List.pairwise_and_iff.mpr ⟨pairwise_mergeSort s.attended, distinct⟩).imp ?_
  rintro i j ⟨le, other⟩
  exact Nat.lt_of_le_of_ne le other

end Markings

end SourceSurvey
