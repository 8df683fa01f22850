import SourceSurvey.Proofs.Marking.Places
import SourceSurvey.Proofs.Marking.Steps

/-!
# The paths of imports

The path of an import is noted on its string, together with the file that the string means. Files are
also written down at import statements, but these are no strings, and whatever else is noted on a node is
noted otherwise. So in the end every string that is noted as the path of an import holds the file that its
label means (`Markings.path_ofNodes`).
-/

namespace SourceSurvey

/-- A mark that is noted as the path of an import is that of a string, and holds what its label means. -/
def Mark.LeadsOn (find : String → Option String) (kind : String) (m : Mark) : Prop :=
  m.note = "import-path" → kind = "string" ∧ m.path = find m.label

namespace Markings

structure PathsFound (a : Arena) (find : String → Option String) (s : Markings) : Prop where
  marks : ∀ j, (s.mark j).LeadsOn find (a.kind j)
  bindings : ∀ e ∈ s.bindings, e.2.note ∈ MarkAction.bindingNotes

variable {a : Arena} {find : String → Option String} {s : Markings} {i : Nat} {f : Mark → Mark}

theorem pathsFound_init (size : Nat) : (init size).PathsFound a find where
  marks := by
    intro j noted
    rw [mark_init] at noted
    exact absurd noted (by decide)
  bindings := nofun

theorem leadsOn_change (h : ∀ j, (s.mark j).LeadsOn find (a.kind j))
    (keeps : ∀ m, m.LeadsOn find (a.kind i) → (f m).LeadsOn find (a.kind i)) (j : Nat) :
    ((s.change i f).mark j).LeadsOn find (a.kind j) := by
  rw [mark_change_eq]
  split
  · next here =>
    obtain ⟨rfl, -⟩ := here
    exact keeps _ (h i)
  · exact h j

theorem leadsOn_string (h : ∀ j, (s.mark j).LeadsOn find (a.kind j)) (string : a.kind i = "string")
    (specifier : String) (j : Nat) :
    (((s.change i fun m => { m with path := find specifier }).attend i .imported "import-path"
      specifier).mark j).LeadsOn find (a.kind j) := by
  show (((s.change i _).change i _).mark j).LeadsOn find (a.kind j)
  rw [mark_change_eq, mark_change_eq, size_change]
  split
  · next here =>
    obtain ⟨rfl, -⟩ := here
    exact fun _ => ⟨string, rfl⟩
  · exact h j

end Markings

namespace MarkAction

open Markings

variable {nodes : List FlatNode} {find : String → Option String} {v : Visit} {s t : Markings}
  {action : MarkAction}

theorem note?_ne_importPath {a : Arena} (h : action ∈ v.actions a) : action.note? ≠ some "import-path" := by
  have table : ∀ y ∈ MarkRule.table, y.2.note? ≠ some "import-path" := by decide
  obtain ⟨steps, mem, -⟩ := Visit.exists_steps h
  exact table _ mem

theorem kind_of_importPath (hv : v ∈ Visit.list nodes) (h : importPath ∈ v.actions (Arena.ofNodes nodes)) :
    (Arena.ofNodes nodes).kind v.index = "string" := by
  have table : ∀ y ∈ MarkRule.table, y.2 = importPath →
      y.1.head? = some (Step.under "source" (Step.kind "string")) := by
    decide
  obtain ⟨steps, mem, fits⟩ := Visit.exists_steps h
  obtain ⟨outer, rfl⟩ := List.head?_eq_some_iff.mp (table _ mem rfl)
  exact (Step.accepts_under_kind.mp (Visit.accepts_of_matchesInward hv rfl fits)).1

theorem kind_of_findKind? (shaped : TreeShaped nodes) (hv : v ∈ Visit.list nodes) {kind : String}
    {n : Ancestor} (h : v.trail.findKind? [kind] 0 = some n) : (Arena.ofNodes nodes).kind n.index = kind := by
  have found : n.kind = kind := by simpa using List.find?_some h
  have mem := List.mem_of_find?_eq_some h
  rw [List.drop_zero, Visit.trail_eq shaped hv] at mem
  obtain ⟨i, -, rfl⟩ := List.mem_map.mp mem
  exact found

/-- **Every write keeps what is noted as the path of an import with the file it means.** -/
theorem pathsFound_write (shaped : TreeShaped nodes) (hv : v ∈ Visit.list nodes)
    (mem : action ∈ v.actions (Arena.ofNodes nodes)) (hs : s.PathsFound (Arena.ofNodes nodes) find)
    (h : action.Write (Arena.ofNodes nodes) (some find) v s t) : t.PathsFound (Arena.ofNodes nodes) find := by
  have other := note?_ne_importPath mem
  refine ⟨?_, h.bindings hs.bindings⟩
  cases h with
  | exported | link | around => exact leadsOn_change hs.marks fun _ leads => leads
  | bind | component => exact hs.marks
  | path => exact leadsOn_string hs.marks (kind_of_importPath hv mem) _
  | rename => exact leadsOn_change hs.marks fun _ _ noted => absurd (congrArg some noted) other
  | statement path around =>
      apply leadsOn_change hs.marks
      intro m leads noted
      -- an import statement is no string
      have string := (leads noted).1
      rw [kind_of_findKind? shaped hv around] at string
      exact absurd string (by decide)
  | @attend _ _ category note label gives =>
      apply leadsOn_change hs.marks
      intro m _ noted
      rcases note_of_gives?_of_bindings hs.bindings gives with carried | own
      · exact absurd (carried.trans (congrArg some noted)) other
      · replace noted : note = "import-path" := noted
        rw [noted] at own
        exact absurd own (by decide)

end MarkAction

namespace Markings

/-- **In the end every string that is noted as the path of an import holds the file its label means.** -/
theorem path_ofNodes {nodes : List FlatNode} (shaped : TreeShaped nodes) {find : String → Option String}
    {s : Markings} (h : ofNodes nodes (some find) = .ok s) {i : Nat}
    (noted : (s.mark i).note = "import-path") : (s.mark i).path = find (s.mark i).label := by
  have found : s.PathsFound (Arena.ofNodes nodes) find :=
    keeps_ofNodes (fun _ hv _ mem _ _ hs write => MarkAction.pathsFound_write shaped hv mem hs write)
      (pathsFound_init nodes.length) h
  exact (found.marks i noted).2

end Markings

end SourceSurvey
