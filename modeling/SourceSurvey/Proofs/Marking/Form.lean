import Mathlib.Data.List.Forall2
import SourceSurvey.Proofs.Marking.Failure
import SourceSurvey.Proofs.Marking.Places
import SourceSurvey.Proofs.Marking.Writes

/-!
# Form and wording

The form of a node is its depth, its kind and its field. Texts, positions and what a resolver says are
wording. Two node lists of the same form are visited on the same trails, and every rule applies to both or
to neither; so the two walks make the same marks as far as these are not wording themselves
(`Markings.ofNodes_alike`).

- `FlatNode.Alike`, `Arena.Alike` — the same form.
- `Mark.Alike`, `Binding.Alike`, `Markings.Alike` — the same but for labels, paths and the notes on comments.
- `Matched` — two results that fail together or are related.
-/

namespace SourceSurvey

structure FlatNode.Alike (m n : FlatNode) : Prop where
  depth : m.depth = n.depth
  kind : m.kind = n.kind
  field : m.field = n.field

/-! ## Arenas of the same form -/

namespace Arena

/-- The arenas have the same subtrees, and nodes of the same kinds and fields. -/
structure Alike (a a' : Arena) : Prop where
  ends : a.ends = a'.ends
  kind : ∀ i, a.kind i = a'.kind i
  field : ∀ i, a.field i = a'.field i

variable {nodes nodes' : List FlatNode}

theorem map_depth_of_alike (same : List.Forall₂ FlatNode.Alike nodes nodes') :
    nodes.map FlatNode.depth = nodes'.map FlatNode.depth := by
  induction same with
  | nil => rfl
  | cons first _ ih => rw [List.map_cons, List.map_cons, first.depth, ih]

theorem getD_alike (same : List.Forall₂ FlatNode.Alike nodes nodes') (i : Nat) :
    (nodes.getD i default).Alike (nodes'.getD i default) := by
  induction same generalizing i with
  | nil => exact ⟨rfl, rfl, rfl⟩
  | cons first _ ih =>
      cases i with
      | zero => exact first
      | succ i => exact ih i

theorem alike_ofNodes (same : List.Forall₂ FlatNode.Alike nodes nodes') :
    (ofNodes nodes).Alike (ofNodes nodes') where
  ends := by rw [ofNodes, ofNodes, map_depth_of_alike same]
  kind := by
    intro i
    rw [Arena.kind, Arena.kind, getD_nodes, getD_nodes]
    exact (getD_alike same i).kind
  field := by
    intro i
    rw [Arena.field, Arena.field, getD_nodes, getD_nodes]
    exact (getD_alike same i).field

namespace Alike

variable {a a' : Arena} (h : a.Alike a')

include h

theorem leap (stop i : Nat) : a.leap stop i = a'.leap stop i := by
  have ends : ∀ j, a.endOf j = a'.endOf j := fun j => by rw [endOf, endOf, h.ends]
  fun_induction a.leap stop i with
  | case1 i inside ih =>
      rw [ih, ends i]
      conv_rhs => rw [Arena.leap, if_pos inside]
  | case2 i beyond =>
      conv_rhs => rw [Arena.leap, if_neg beyond]

theorem children (i : Nat) : a.children i = a'.children i := by
  rw [Arena.children, Arena.children, endOf, endOf, h.ends, h.leap]

theorem childByField? (i : Nat) (field : String) : a.childByField? i field = a'.childByField? i field := by
  simp only [Arena.childByField?, h.children, h.field]

theorem childOfKind? (i : Nat) (kind : String) : a.childOfKind? i kind = a'.childOfKind? i kind := by
  simp only [Arena.childOfKind?, h.children, h.kind]

/-- **What a visit does is a question of form.** -/
theorem actions (v : Visit) : v.actions a = v.actions a' := by
  have answers : Guard.holds a v = Guard.holds a' v := by
    funext g
    cases g with
    | nameless => simp only [Guard.holds, h.children, h.kind]
    | outermostChain => simp only [Guard.holds, h.field]
    | callbackPassed => simp only [Guard.holds, h.children, h.kind]
  unfold Visit.actions Visit.actionOf?
  rw [answers]

end Alike

end Arena

theorem Visit.listFrom_alike {nodes nodes' : List FlatNode} (same : List.Forall₂ FlatNode.Alike nodes nodes')
    (t : Trail) (i : Nat) : listFrom t i nodes = listFrom t i nodes' := by
  induction same generalizing t i with
  | nil => rfl
  | cons first _ ih => rw [listFrom, listFrom, first.depth, first.kind, first.field, ih]

/-! ## Markings that differ in wording -/

def commentKinds : List String := ["comment", "html_comment"]

/-- The marks, of nodes of the given kind, are the same but for the label and the path, and the note if the
node is a comment. -/
structure Mark.Alike (kind : String) (m n : Mark) : Prop where
  category : m.category = n.category
  exported : m.exported = n.exported
  link : m.link = n.link
  note : kind ∉ commentKinds → m.note = n.note

structure Binding.Alike (b c : Binding) : Prop where
  category : b.category = c.category
  note : b.note = c.note
  exported : b.exported = c.exported

namespace Markings

/-- The markings are the same but for wording. -/
structure Alike (a : Arena) (s t : Markings) : Prop where
  size : s.marks.size = t.marks.size
  marks : ∀ i, (s.mark i).Alike (a.kind i) (t.mark i)
  attended : s.attended = t.attended
  bindings : ∀ i, Option.Rel Binding.Alike (s.bindings.lookup i) (t.bindings.lookup i)
  components : s.components = t.components

namespace Alike

variable {a : Arena} {s t : Markings} (h : s.Alike a t) {i : Nat} {f g : Mark → Mark}

theorem refl (a : Arena) (s : Markings) : s.Alike a s where
  size := rfl
  marks := fun _ => ⟨rfl, rfl, rfl, fun _ => rfl⟩
  attended := rfl
  bindings := by
    intro i
    cases s.bindings.lookup i with
    | none => exact .none
    | some b => exact .some ⟨rfl, rfl, rfl⟩
  components := rfl

include h

theorem symm : t.Alike a s where
  size := h.size.symm
  marks := fun i => ⟨(h.marks i).category.symm, (h.marks i).exported.symm, (h.marks i).link.symm,
    fun other => ((h.marks i).note other).symm⟩
  attended := h.attended.symm
  bindings := by
    intro i
    have bound := h.bindings i
    generalize s.bindings.lookup i = b at bound
    generalize t.bindings.lookup i = c at bound
    cases bound with
    | none => exact .none
    | some same => exact .some ⟨same.category.symm, same.note.symm, same.exported.symm⟩
  components := h.components.symm

theorem change (hf : ∀ m n, m.Alike (a.kind i) n → (f m).Alike (a.kind i) (g n)) :
    (s.change i f).Alike a (t.change i g) where
  size := by rw [size_change, size_change, h.size]
  marks := by
    intro j
    rw [mark_change_eq, mark_change_eq, ← h.size]
    split
    · next here =>
      obtain ⟨rfl, -⟩ := here
      exact hf _ _ (h.marks _)
    · exact h.marks j
  attended := h.attended
  bindings := h.bindings
  components := h.components

theorem link (l : Option Nat) :
    (s.change i fun m => { m with link := l }).Alike a (t.change i fun m => { m with link := l }) :=
  h.change fun _ _ same => { same with link := rfl }

theorem exported (e : Bool) :
    (s.change i fun m => { m with exported := e }).Alike a (t.change i fun m => { m with exported := e }) :=
  h.change fun _ _ same => { same with exported := rfl }

theorem path (p : Option String) : (s.change i fun m => { m with path := p }).Alike a t where
  size := by rw [size_change, h.size]
  marks := by
    intro j
    have same := h.marks j
    rw [mark_change_eq]
    split
    · exact { same with }
    · exact same
  attended := h.attended
  bindings := h.bindings
  components := h.components

theorem resolved (resolve : Option (String → Option String)) (v : Visit) (specifier : String) :
    (s.resolved resolve v specifier).Alike a t := by
  unfold Markings.resolved
  cases resolve with
  | none => exact h
  | some find =>
      cases v.trail.findKind? ["import_statement"] 0 with
      | none => exact h.path _
      | some statement => exact (h.path _).path _

theorem attend (category : Category) {note note' : String} (label label' : String)
    (noted : a.kind i ∉ commentKinds → note = note') :
    (s.attend i category note label).Alike a (t.attend i category note' label') where
  size := by rw [size_attend, size_attend, h.size]
  marks := (h.change (i := i) (f := fun m => { m with category := some category, note, label })
    (g := fun m => { m with category := some category, note := note', label := label' })
    fun _ _ same => { same with category := rfl, note := noted }).marks
  attended := by
    show (if s.attended.contains i then s.attended else i :: s.attended) =
      if t.attended.contains i then t.attended else i :: t.attended
    rw [h.attended]
  bindings := h.bindings
  components := h.components

theorem exportAll (l : List Ancestor) : (s.exportAll l).Alike a (t.exportAll l) := by
  induction l generalizing s t with
  | nil => exact h
  | cons n rest ih => exact ih (h.exported true)

theorem linkAround (v : Visit) : (s.linkAround v).Alike a (t.linkAround v) := by
  unfold Markings.linkAround
  cases v.trail.outward? 1 with
  | none => exact h
  | some declaration => exact h.link _

theorem isExported (trail : Trail) (steps : Nat) : s.isExported trail steps = t.isExported trail steps :=
  isExported_congr (fun j => (h.marks j).exported) trail steps

theorem declare (v : Visit) (category : Category) (note label label' : String) (steps : Nat) :
    (s.declare v category note label steps).Alike a (t.declare v category note label' steps) := by
  unfold Markings.declare
  rw [h.isExported v.trail steps]
  exact (((h.linkAround v).exportAll _).exported _).attend _ _ _ fun _ => rfl

theorem hostName? (around : List Ancestor) : s.hostName? around = t.hostName? around := by
  have links : ∀ i, (s.mark i).link = (t.mark i).link := fun i => (h.marks i).link
  induction around with
  | nil => rfl
  | cons host outer ih => simp only [Markings.hostName?, links, ih]

theorem bind {b c : Binding} (same : b.Alike c) :
    Markings.Alike a { s with bindings := (i, b) :: s.bindings }
      { t with bindings := (i, c) :: t.bindings } where
  size := h.size
  marks := h.marks
  attended := h.attended
  bindings := by
    intro j
    rw [List.lookup_cons, List.lookup_cons]
    split
    · exact .some same
    · exact h.bindings j
  components := h.components

/-- The nodes of interest are the same, but for those that are shown with an empty label by one of the two. -/
theorem attention : s.attention.filter (fun i => (t.mark i).label != "") =
    t.attention.filter fun i => (s.mark i).label != "" := by
  rw [Markings.attention, Markings.attention, h.attended, List.filter_filter, List.filter_filter]
  exact List.filter_congr fun i _ => Bool.and_comm _ _

end Alike

end Markings

/-! ## Walks that differ in wording -/

/-- Both fail, and in the same way, or neither does, and the results are related. -/
inductive Matched {ε α β : Type} (r : α → β → Prop) : Except ε α → Except ε β → Prop
  | error (e : ε) : Matched r (.error e) (.error e)
  | ok {x : α} {y : β} : r x y → Matched r (.ok x) (.ok y)

theorem Matched.foldlM {ε α β γ : Type} {r : α → β → Prop} {f : α → γ → Except ε α} {g : β → γ → Except ε β}
    {l : List γ} (step : ∀ z ∈ l, ∀ x y, r x y → Matched r (f x z) (g y z)) {x : α} {y : β} (h : r x y) :
    Matched r (l.foldlM f x) (l.foldlM g y) := by
  induction l generalizing x y with
  | nil => exact .ok h
  | cons z rest ih =>
      rw [List.foldlM_cons, List.foldlM_cons]
      have first := step z List.mem_cons_self x y h
      generalize f x z = u at first
      generalize g y z = w at first
      cases first with
      | error e => exact .error e
      | ok next => exact ih (fun z hz => step z (List.mem_cons_of_mem _ hz)) next

namespace MarkAction

open Markings

variable {a a' : Arena} (form : a.Alike a') (v : Visit) {s t : Markings} (h : s.Alike a t)

include form h

theorem bindingOf_alike : Matched (Option.Rel Binding.Alike) (bindingOf a v s) (bindingOf a' v t) := by
  unfold bindingOf
  cases v.trail.outward? 1 with
  | none => exact .ok .none
  | some parent =>
      simp only [form.field, form.childByField?, h.isExported]
      split
      · exact .ok (.some ⟨rfl, rfl, rfl⟩)
      split
      · exact .ok (.some ⟨rfl, rfl, rfl⟩)
      split
      · cases v.trail.outward? 2 with
        | none => exact .error _
        | some around =>
            have bound := h.bindings around.index
            dsimp only
            generalize s.bindings.lookup around.index = b at bound
            generalize t.bindings.lookup around.index = c at bound
            cases bound with
            | none => exact .ok .none
            | some same =>
                cases a'.childByField? parent.index "key" with
                | none => exact .ok .none
                | some key => exact .ok (.some ⟨same.category, same.note, same.exported⟩)
      · exact .ok .none

/-- **An action makes the same of the markings, whatever the wording is.** -/
theorem perform_alike (resolve resolve' : Option (String → Option String)) {action : MarkAction}
    (own : action = comment → a.kind v.index ∈ commentKinds) :
    Matched (Markings.Alike a) (action.perform a resolve v s) (action.perform a' resolve' v t) := by
  cases action with
  | importStatement =>
      simp only [perform, form.childByField?, form.childOfKind?]
      refine .ok (Alike.attend ?_ _ _ _ fun _ => rfl)
      split
      · exact h.link _
      · exact h
  | importName note =>
      refine .ok (Alike.attend ?_ _ _ _ fun _ => rfl)
      cases v.trail.findKind? ["import_statement"] 0 with
      | none => exact h
      | some statement => exact h.link _
  | importPath =>
      have left := h.resolved resolve v (specifierOf (a.text v.index))
      have both := (left.symm.resolved resolve' v (specifierOf (a'.text v.index))).symm
      exact .ok (both.attend _ _ _ fun _ => rfl)
  | declaredName category note steps =>
      rw [perform_declaredName, perform_declaredName]
      exact .ok (h.declare v category note _ _ steps)
  | call field note => exact .ok (h.attend _ _ _ fun _ => rfl)
  | component note => exact .ok (h.attend _ _ _ fun _ => rfl)
  | returnedComponent note =>
      have attended := h.attend (i := v.index) .component (tagLabel a v.index note)
        (tagLabel a' v.index note) fun _ => (rfl : note = note)
      simp only [perform, attended.hostName?]
      split
      · exact .ok attended
      · next name _ =>
        have linked := attended.link (i := v.index) (some name)
        refine .ok { linked with components := ?_ }
        rw [linked.components]
  | propertyChain => exact .ok (h.attend _ _ _ fun _ => rfl)
  | parameter note => exact .ok (h.attend _ _ _ fun _ => rfl)
  | objectPattern =>
      have bound := bindingOf_alike form v h
      simp only [perform]
      generalize bindingOf a v s = b at bound
      generalize bindingOf a' v t = c at bound
      cases bound with
      | error e => exact .error e
      | ok same =>
          cases same with
          | none => exact .ok h
          | some same => exact .ok (h.bind same)
  | patternField steps =>
      simp only [perform]
      cases v.trail.outward? steps with
      | none => exact .ok h
      | some pattern =>
          have bound := h.bindings pattern.index
          simp only [Option.bind_some]
          generalize s.bindings.lookup pattern.index = b at bound
          generalize t.bindings.lookup pattern.index = c at bound
          cases bound with
          | none => exact .ok h
          | some same =>
              dsimp only
              rw [same.category, same.exported]
              exact .ok ((h.exported _).attend _ _ _ fun _ => same.note)
  | punctuation category note => exact .ok (h.attend _ _ _ fun _ => rfl)
  | functionValue note =>
      simp only [perform]
      cases v.trail.outward? 1 with
      | none => exact .ok h
      | some declarator =>
          have around := h.marks declarator.index
          simp only [around.link, around.exported]
          cases (t.mark declarator.index).link with
          | none => exact .ok h
          | some name =>
              refine .ok (h.change fun m n same => ?_)
              exact { same with exported := by rw [same.exported], note := fun _ => rfl }
  | objectProperty => exact .ok (h.attend _ _ _ fun _ => rfl)
  | exportKeyword => exact .ok (h.exportAll _)
  | exportName note => exact .ok ((h.exported true).attend _ _ _ fun _ => rfl)
  | comment => exact .ok (h.attend _ _ _ fun other => absurd (own rfl) other)

end MarkAction

theorem Visit.kind_of_comment {nodes : List FlatNode} {v : Visit} (hv : v ∈ list nodes)
    (mem : .comment ∈ v.actions (Arena.ofNodes nodes)) :
    (Arena.ofNodes nodes).kind v.index ∈ commentKinds := by
  have table : ∀ y ∈ MarkRule.table, y.2 = .comment → ∃ kind ∈ commentKinds, y.1 = [Step.kind kind] := by
    decide
  obtain ⟨steps, listed, fits⟩ := exists_steps mem
  obtain ⟨kind, known, rfl⟩ := table _ listed rfl
  have accepted := accepts_of_matchesInward hv rfl fits
  rwa [Step.accepts_kind.mp accepted]

namespace Markings

variable {nodes nodes' : List FlatNode}

/-- **What the walk makes of a node list is a question of form.** On two lists of the same form, and with
any two resolvers, it fails in the same way or not at all, and then the marks are the same but for their
wording, the components are the same, and so are the nodes of interest, as far as they have a label in both. -/
theorem ofNodes_alike (same : List.Forall₂ FlatNode.Alike nodes nodes')
    (resolve resolve' : Option (String → Option String)) :
    (∃ e, ofNodes nodes resolve = .error e ∧ ofNodes nodes' resolve' = .error e) ∨
      ∃ s t, ofNodes nodes resolve = .ok s ∧ ofNodes nodes' resolve' = .ok t ∧
        (∀ i, (s.mark i).Alike ((Arena.ofNodes nodes).kind i) (t.mark i)) ∧
        s.components = t.components ∧
        s.attention.filter (fun i => (t.mark i).label != "") =
          t.attention.filter fun i => (s.mark i).label != "" := by
  have form := Arena.alike_ofNodes same
  have visits : Visit.list nodes' = Visit.list nodes := (Visit.listFrom_alike same {} 0).symm
  have walks : Matched (Alike (Arena.ofNodes nodes)) (ofNodes nodes resolve) (ofNodes nodes' resolve') := by
    rw [ofNodes, ofNodes, visits, ← same.length_eq]
    refine Matched.foldlM ?_ (Alike.refl _ _)
    intro v hv s t h
    rw [visit, visit, ← form.actions v]
    refine Matched.foldlM ?_ h
    intro action mem s t h
    refine MarkAction.perform_alike form v h resolve resolve' ?_
    rintro rfl
    exact Visit.kind_of_comment hv mem
  generalize ofNodes nodes resolve = r at walks
  generalize ofNodes nodes' resolve' = r' at walks
  cases walks with
  | error e => exact Or.inl ⟨e, rfl, rfl⟩
  | ok h => exact Or.inr ⟨_, _, rfl, rfl, h.marks, h.components, h.attention⟩

/-- The tree of `/* a */ let f = () => 1`, without its punctuation. -/
def boundArrow : List FlatNode :=
  [⟨0, "program", "", 1, 1, 0, 23, true, none⟩,
   ⟨1, "comment", "/* a */", 1, 1, 0, 7, false, none⟩,
   ⟨1, "lexical_declaration", "let f = () => 1", 1, 1, 8, 23, true, none⟩,
   ⟨2, "variable_declarator", "f = () => 1", 1, 1, 12, 23, true, none⟩,
   ⟨3, "identifier", "f", 1, 1, 12, 13, false, some "name"⟩,
   ⟨3, "arrow_function", "() => 1", 1, 1, 16, 23, true, some "value"⟩]

/-- A tree of the same form that says nothing. -/
def wordlessArrow : List FlatNode :=
  boundArrow.map fun n => ⟨n.depth, n.kind, "", 7, 7, 0, 0, false, n.field⟩

/-- Without any words, and with someone to ask for files, the name is still noted as that of a function. -/
theorem ofNodes_alike_wordlessArrow :
    List.Forall₂ FlatNode.Alike boundArrow wordlessArrow ∧
      ∃ s t, ofNodes boundArrow none = .ok s ∧ ofNodes wordlessArrow (some some) = .ok t ∧
        (s.mark 1).category = (t.mark 1).category ∧ (s.mark 4).category = (t.mark 4).category ∧
        (s.mark 4).note = (t.mark 4).note ∧ (s.mark 3).link = (t.mark 3).link ∧
        s.components = t.components := by
  have same : List.Forall₂ FlatNode.Alike boundArrow wordlessArrow :=
    List.forall₂_map_right_iff.mpr (List.forall₂_same.mpr fun n _ => ⟨rfl, rfl, rfl⟩)
  obtain ⟨s, walked⟩ : ∃ s, ofNodes boundArrow none = .ok s := exists_ofNodes (by decide) (by decide) none
  rcases ofNodes_alike same none (some some) with ⟨e, failed, -⟩ | ⟨s', t, walked', other, marks, components, -⟩
  · rw [walked] at failed
    cases failed
  · exact ⟨same, s', t, walked', other, (marks 1).category, (marks 4).category, (marks 4).note (by decide),
      (marks 3).link, components⟩

end Markings

end SourceSurvey
