import SourceSurvey.Proofs.Marking.Conflicts
import SourceSurvey.Proofs.Marking.Steps

/-!
# What the walk leaves on a node

The category, the note and the label of a node are its tag. An action tags the visited node or none
(`MarkAction.tag_of_perform`), and the one thing that a later visit can write over is the note on the name of
a variable (`Markings.Steady`). So what a node is tagged with is decided on its own visit, when nothing has
been said of it before (`Markings.exists_visited`), by the last action that tags it.
-/

namespace SourceSurvey

/-! ## Actions -/

namespace Markings

variable {s t u : Markings} {i j : Nat} {category : Category} {note label : String}

theorem tag_attend (present : i < s.marks.size) : ((s.attend i category note label).mark j).tag =
    if j = i then ⟨some category, note, label⟩ else (s.mark j).tag := by
  show ((s.change i _).mark j).tag = _
  rw [mark_change_eq]
  by_cases h : i = j
  · rw [if_pos ⟨h, present⟩, if_pos h.symm]
    rfl
  · rw [if_neg fun both => h both.1, if_neg fun same => h same.symm]

/-- The markings say the same of every node itself. -/
structure SameTags (s t : Markings) : Prop where
  size : t.marks.size = s.marks.size
  tag : ∀ j, (t.mark j).tag = (s.mark j).tag

namespace SameTags

theorem refl : s.SameTags s := ⟨rfl, fun _ => rfl⟩

theorem trans (h : s.SameTags t) (h' : t.SameTags u) : s.SameTags u :=
  ⟨h'.size.trans h.size, fun j => (h'.tag j).trans (h.tag j)⟩

theorem change {f : Mark → Mark} (hf : ∀ m, (f m).tag = m.tag) : s.SameTags (s.change i f) :=
  ⟨size_change, fun _ => part_change Mark.tag hf⟩

theorem path (path : Option String) : s.SameTags (s.change i fun m => { m with path }) :=
  change fun _ => rfl

theorem exported (exported : Bool) : s.SameTags (s.change i fun m => { m with exported }) :=
  change fun _ => rfl

theorem linked (link : Option Nat) : s.SameTags (s.change i fun m => { m with link }) :=
  change fun _ => rfl

theorem named (name : Nat) (components : List Nat) :
    s.SameTags { s.change i fun m => { m with link := some name } with components } :=
  ⟨(linked (some name)).size, (linked (some name)).tag⟩

theorem linkAround {v : Visit} : s.SameTags (s.linkAround v) :=
  ⟨size_linkAround, fun _ => part_linkAround Mark.tag fun _ _ => rfl⟩

theorem exportAll {l : List Ancestor} : s.SameTags (s.exportAll l) :=
  ⟨size_exportAll, fun _ => part_exportAll Mark.tag fun _ => rfl⟩

theorem resolved {resolve : Option (String → Option String)} {v : Visit} {specifier : String} :
    s.SameTags (s.resolved resolve v specifier) := by
  unfold Markings.resolved
  split
  · exact refl
  · dsimp only
    split
    · exact (path _).trans (path _)
    · exact path _

theorem attend (h : s.SameTags t) (present : i < s.marks.size) :
    ((t.attend i category note label).mark j).tag =
      if j = i then ⟨some category, note, label⟩ else (s.mark j).tag := by
  rw [tag_attend (by rwa [h.size]), h.tag]

end SameTags

end Markings

namespace MarkAction

open Markings

/-- The action writes on another node than the visited one. -/
def isFunctionValue : MarkAction → Bool
  | functionValue _ => true
  | _ => false

variable {a : Arena} {resolve : Option (String → Option String)} {v : Visit} {s t : Markings}
  {action : MarkAction}

/-- **An action tags the visited node or none.** -/
theorem tag_of_perform (present : v.index < s.marks.size) (other : action.isFunctionValue = false)
    (h : action.perform a resolve v s = .ok t) (j : Nat) :
    (t.mark j).tag =
      if j = v.index then (action.tag? a v s).getD (s.mark j).tag else (s.mark j).tag := by
  have untagged (same : s.SameTags t) (none : action.tag? a v s = none) : (t.mark j).tag =
      if j = v.index then (action.tag? a v s).getD (s.mark j).tag else (s.mark j).tag := by
    rw [none, Option.getD_none, ite_self, same.tag]
  cases effect_of_perform h with
  | idle none => exact untagged .refl none
  | tag _ put given =>
      rw [tag?_of_gives? put given]
      exact tag_attend present
  | linkTag name _ _ put given =>
      rw [tag?_of_gives? put given]
      exact (SameTags.linked (some name)).attend present
  | importPath => exact SameTags.resolved.attend present
  | declaredName category note steps =>
      exact ((SameTags.linkAround.trans .exportAll).trans (.exported _)).attend present
  | @patternField steps pattern binding out looked =>
      have tag : tag? a v s (patternField steps) =
          some ⟨some binding.category, binding.note, binding.name ++ "." ++ fieldName a v⟩ := by
        simp [tag?, gives?, category?, out, looked]
      rw [tag]
      exact (SameTags.exported binding.exported).attend present
  | exportName note => exact (SameTags.exported true).attend present
  | returned =>
      rw [(SameTags.named _ _).tag, tag_attend present]
      rfl
  | functionValue => cases other
  | exportKeyword => exact untagged .exportAll rfl
  | objectPattern => exact untagged ⟨rfl, fun _ => rfl⟩ rfl

theorem category_of_tag? {tag : Tag} (h : action.tag? a v s = some tag) : tag.category = action.category? v s := by
  cases action with
  | importPath =>
      cases h
      rfl
  | _ =>
      simp only [tag?, Option.map_eq_some_iff] at h
      obtain ⟨_, -, rfl⟩ := h
      rfl

/-- An action puts the visited node into its category, or leaves all nodes where they are. -/
theorem category_of_perform (present : v.index < s.marks.size) (h : action.perform a resolve v s = .ok t)
    (i : Nat) : (t.mark i).category = (s.mark i).category ∨
      i = v.index ∧ (t.mark i).category = action.category? v s := by
  cases bound : action.isFunctionValue with
  | true =>
      cases action with
      | functionValue note =>
          refine Or.inl (keeps_perform (p := fun u => (u.mark i).category = (s.mark i).category) ?_ rfl h)
          intro u w same write
          cases write with
          | exported | rename =>
              refine Eq.trans (part_change Mark.category ?_) same
              exact fun _ => rfl
          | link _ links => cases links
          | attend _ gives => cases gives
          | component => exact same
      | _ => cases bound
  | false =>
      have tagged := tag_of_perform present bound h i
      split at tagged
      · next own =>
        cases given : action.tag? a v s with
        | none =>
            rw [given] at tagged
            exact Or.inl (congrArg Tag.category tagged)
        | some tag =>
            rw [given] at tagged
            exact Or.inr ⟨own, (congrArg Tag.category tagged).trans (category_of_tag? given)⟩
      · exact Or.inl (congrArg Tag.category tagged)

end MarkAction

/-! ## Where names are declared -/

namespace Arena

/-- The node can be the name of a variable: it stands as an identifier in a declarator. -/
def NamesVariable (a : Arena) (i : Nat) : Prop :=
  a.kind i = "identifier" ∧ ∃ d, a.parent? i = some d ∧ a.kind d = "variable_declarator"

/-- The first node is the name of the second, a declaration. -/
structure NameOf (a : Arena) (i d : Nat) : Prop where
  parent : a.parent? i = some d
  field : a.field i = some "name"
  kind : a.kind d = "variable_declarator" → a.kind i = "identifier"

end Arena

namespace Visit

open Arena MarkAction MarkRule

variable {nodes : List FlatNode} {v : Visit} (shaped : TreeShaped nodes) (hv : v ∈ list nodes)
  {action : MarkAction}

include shaped hv

theorem nameOf_of_declaredName {category : Category} {note : String} {steps : Nat}
    (h : declaredName category note steps ∈ v.actions (ofNodes nodes)) :
    ∃ d, v.trail.outward? 1 = some ((ofNodes nodes).ancestor d) ∧ (ofNodes nodes).kind d ∈ nameHosts ∧
      (ofNodes nodes).NameOf v.index d := by
  obtain ⟨path, place, fits⟩ := fits_of_mem_actions shaped hv h rfl
  -- only in a declarator the rule asks for the kind of the name
  have known : ∃ d, (ofNodes nodes).parent? v.index = some d ∧ (ofNodes nodes).field v.index = some "name" ∧
      ((ofNodes nodes).kind d ∈ nameHosts.drop 1 ∨
        (ofNodes nodes).kind d = "variable_declarator" ∧ (ofNodes nodes).kind v.index = "identifier") := by
    obtain ⟨rfl, -⟩ | ⟨rfl, -⟩ | ⟨rfl, -⟩ | ⟨rfl, -⟩ := by simpa [places] using place
    · obtain ⟨⟨kind, field⟩, d, around, host⟩ := by simpa [Fits] using fits
      exact ⟨d, around, field, Or.inr ⟨host, kind⟩⟩
    · obtain ⟨⟨-, field⟩, d, around, host⟩ := by simpa [Fits] using fits
      exact ⟨d, around, field, Or.inl (by simp [nameHosts, host])⟩
    · obtain ⟨field, d, around, host⟩ := by simpa [Fits] using fits
      exact ⟨d, around, field, Or.inl (by simp [nameHosts, host])⟩
    · obtain ⟨⟨-, field⟩, d, around, host⟩ := by simpa [Fits] using fits
      exact ⟨d, around, field, Or.inl (by simp [nameHosts, host])⟩
  obtain ⟨d, around, field, host⟩ := known
  refine ⟨d, by rw [outward?_one_eq shaped hv, around]; rfl, ?_, around, field, ?_⟩
  · rcases host with host | ⟨host, -⟩
    · exact List.mem_of_mem_drop host
    · rw [host]
      decide
  · intro declarator
    rcases host with host | ⟨-, kind⟩
    · rw [declarator] at host
      exact absurd host (by decide)
    · exact kind

omit shaped in
theorem kind_not_mem_nameHosts (mem : action ∈ v.actions (ofNodes nodes)) (links : action.linksOwn = true) :
    (ofNodes nodes).kind v.index ∉ nameHosts := by
  have rules : ∀ y ∈ table, y.2.linksOwn = true → ∀ k ∈ nameHosts, Pattern.misses k y.1 = true := by decide
  exact kind_not_mem hv rules mem links

end Visit

/-! ## One visit -/

/-- Nothing is said of the node, and it is linked with none. -/
structure Mark.Blank (m : Mark) : Prop where
  tag : m.tag = {}
  link : m.link = none

namespace Markings

open Arena MarkAction

/-- What is known when the visits of `k` nodes have been begun: nothing is said of the others, and declarations
are linked with their names. -/
structure Begun (nodes : List FlatNode) (k : Nat) (s : Markings) : Prop where
  size : s.marks.size = nodes.length
  blank : ∀ i, k ≤ i → (s.mark i).Blank
  names : ∀ d i, (Arena.ofNodes nodes).kind d ∈ nameHosts → (s.mark d).link = some i →
    i < k ∧ (Arena.ofNodes nodes).NameOf i d
  bindings : ∀ e ∈ s.bindings, e.2.note ∈ bindingNotes

/-- From `s` to `t` nothing is said anew of node `i`, but for the note on the name of a variable, and it is
linked with no other node if it is no declaration. -/
structure Steady (a : Arena) (i : Nat) (s t : Markings) : Prop where
  category : (t.mark i).category = (s.mark i).category
  label : (t.mark i).label = (s.mark i).label
  note : ¬ a.NamesVariable i → (t.mark i).note = (s.mark i).note
  link : a.kind i ∉ nameHosts → (t.mark i).link = (s.mark i).link

namespace Steady

variable {a : Arena} {i j : Nat} {s t u : Markings} {f : Mark → Mark}

theorem refl : s.Steady a i s := ⟨rfl, rfl, fun _ => rfl, fun _ => rfl⟩

theorem trans (h : s.Steady a i t) (h' : t.Steady a i u) : s.Steady a i u where
  category := h'.category.trans h.category
  label := h'.label.trans h.label
  note := fun other => (h'.note other).trans (h.note other)
  link := fun other => (h'.link other).trans (h.link other)

theorem change (category : ∀ m, (f m).category = m.category) (label : ∀ m, (f m).label = m.label)
    (note : ¬ a.NamesVariable i → j = i → ∀ m, (f m).note = m.note)
    (link : a.kind i ∉ nameHosts → j = i → ∀ m, (f m).link = m.link) : s.Steady a i (s.change j f) := by
  by_cases here : j = i
  · exact ⟨part_change Mark.category category, part_change Mark.label label,
      fun other => part_change Mark.note (note other here), fun other => part_change Mark.link (link other here)⟩
  · have same : (s.change j f).mark i = s.mark i := mark_change_of_ne here
    exact ⟨by rw [same], by rw [same], fun _ => by rw [same], fun _ => by rw [same]⟩

theorem attend (other : j ≠ i) (category : Category) (note label : String) :
    s.Steady a i (s.attend j category note label) := by
  have same : (s.attend j category note label).mark i = s.mark i := mark_change_of_ne other
  exact ⟨by rw [same], by rw [same], fun _ => by rw [same], fun _ => by rw [same]⟩

theorem tag (h : s.Steady a i t) (plain : ¬ a.NamesVariable i) : (t.mark i).tag = (s.mark i).tag := by
  rw [Mark.tag, h.category, h.note plain, h.label]
  rfl

end Steady

theorem exists_of_map {ε α β : Type} {x : Except ε α} {f : α → β} {b : β} (h : x.map f = .ok b) :
    ∃ r, x = .ok r ∧ f r = b := by
  cases x with
  | error e => cases h
  | ok r => exact ⟨r, rfl, Except.ok.inj h⟩

theorem visit_eq_perform {a : Arena} {resolve : Option (String → Option String)} {s : Markings} {v : Visit}
    {action : MarkAction} (only : v.actions a = [action]) :
    visit a resolve s v = action.perform a resolve v s := by
  rw [visit, only, List.foldlM_cons]
  simp only [List.foldlM_nil, bind_pure]

theorem exists_of_visit_append {a : Arena} {resolve : Option (String → Option String)} {s t : Markings}
    {v : Visit} {front : List MarkAction} {action : MarkAction} (split : v.actions a = front ++ [action])
    (visited : visit a resolve s v = .ok t) :
    ∃ u, front.foldlM (fun s action => action.perform a resolve v s) s = .ok u ∧
      action.perform a resolve v u = .ok t := by
  rw [visit, split, List.foldlM_append] at visited
  cases before : front.foldlM (fun s action => action.perform a resolve v s) s with
  | error e =>
      rw [before] at visited
      cases visited
  | ok u =>
      rw [before] at visited
      simp only [List.foldlM_cons, List.foldlM_nil, bind_pure] at visited
      exact ⟨u, rfl, visited⟩

variable {nodes : List FlatNode} (shaped : TreeShaped nodes) {resolve : Option (String → Option String)}
  {s t : Markings} {v : Visit} {action : MarkAction} {i k : Nat}

theorem begun_init : Begun nodes 0 (init nodes.length) where
  size := size_init _
  blank := by
    intro i _
    rw [mark_init]
    exact ⟨rfl, rfl⟩
  names := by
    intro d i _ linked
    rw [mark_init] at linked
    cases linked
  bindings := nofun

theorem Begun.present (h : Begun nodes k s) (hv : v ∈ Visit.list nodes) : v.index < s.marks.size := by
  rw [h.size]
  exact (Visit.exists_outer hv).1

theorem Begun.mono {l : Nat} (h : Begun nodes k s) (le : k ≤ l) : Begun nodes l s where
  size := h.size
  blank := fun i hi => h.blank i (Nat.le_trans le hi)
  names := fun d i kind linked => ⟨Nat.lt_of_lt_of_le (h.names d i kind linked).1 le, (h.names d i kind linked).2⟩
  bindings := h.bindings

/-- A change of a begun node may say anything of it, and link a declaration with its name. -/
theorem Begun.change {f : Mark → Mark} {j : Nat} (h : Begun nodes k s)
    (begun : j < k ∨ ∀ m, (f m).tag = m.tag ∧ (f m).link = m.link)
    (names : ∀ m i, (Arena.ofNodes nodes).kind j ∈ nameHosts → (f m).link = some i →
      m.link = some i ∨ i < k ∧ (Arena.ofNodes nodes).NameOf i j) : Begun nodes k (s.change j f) where
  size := size_change.trans h.size
  blank := by
    intro i hi
    have before := h.blank i hi
    rw [mark_change_eq]
    split
    · next here =>
      obtain ⟨rfl, -⟩ := here
      rcases begun with begun | same
      · exact absurd begun (Nat.not_lt_of_le hi)
      · exact ⟨(same _).1.trans before.tag, (same _).2.trans before.link⟩
    · exact before
  names := by
    intro d i kind linked
    rw [mark_change_eq] at linked
    split at linked
    · next here =>
      obtain ⟨rfl, -⟩ := here
      rcases names _ i kind linked with before | named
      · exact h.names j i kind before
      · exact named
    · exact h.names d i kind linked
  bindings := h.bindings

theorem Begun.attend (h : Begun nodes k s) (begun : i < k) (category : Category) (note label : String) :
    Begun nodes k (s.attend i category note label) := by
  have changed := h.change (f := fun m => { m with category := some category, note, label }) (Or.inl begun)
    fun _ _ _ linked => Or.inl linked
  exact ⟨changed.size, changed.blank, changed.names, changed.bindings⟩

theorem Begun.writePath (h : Begun nodes k s) (specifier : String) :
    Begun nodes k (writePath resolve i specifier s) := by
  unfold MarkAction.writePath
  split
  · exact h
  · exact h.change (Or.inr fun _ => ⟨rfl, rfl⟩) fun _ _ _ linked => Or.inl linked

section Visit

variable (hv : v ∈ Visit.list nodes) (mem : action ∈ v.actions (Arena.ofNodes nodes))

include shaped hv mem

theorem Begun.renames {note : String} {declarator : Ancestor} {name : Nat} (b : Begun nodes k s)
    (same : action = functionValue note) (out : v.trail.outward? 1 = some declarator)
    (linked : (s.mark declarator.index).link = some name) :
    name < k ∧ (Arena.ofNodes nodes).NamesVariable name := by
  subst same
  obtain ⟨d, out', kind⟩ := Visit.place_of_functionValue shaped hv mem
  obtain rfl := Option.some.inj (out.symm.trans out')
  have host : (Arena.ofNodes nodes).kind d ∈ nameHosts := by
    rw [kind]
    decide
  obtain ⟨begun, named⟩ := b.names d name host linked
  exact ⟨begun, named.kind kind, d, named.parent, kind⟩

/-- **Every write of a visit is on a begun node.** -/
theorem Begun.write (b : Begun nodes (v.index + 1) s)
    (h : action.Write (Arena.ofNodes nodes) resolve v s t) : Begun nodes (v.index + 1) t := by
  have own := Nat.lt_succ_self v.index
  have bound := h.bindings b.bindings
  cases h with
  | exported | statement => exact b.change (Or.inr fun _ => ⟨rfl, rfl⟩) fun _ _ _ linked => Or.inl linked
  | link _ links =>
      refine b.change (Or.inl own) fun _ _ kind => ?_
      exact absurd kind (Visit.kind_not_mem_nameHosts hv mem links)
  | around out =>
      obtain ⟨d, out', -, named⟩ := Visit.nameOf_of_declaredName shaped hv mem
      obtain rfl := Option.some.inj (out.symm.trans out')
      have before := (spec_of_parent? named.parent).1
      refine b.change (Or.inl (Nat.lt_succ_of_lt before)) ?_
      rintro _ i - ⟨⟩
      exact Or.inr ⟨own, named⟩
  | path => exact (b.writePath _).attend own _ _ _
  | attend => exact b.attend own _ _ _
  | rename _ out linked =>
      have begun := (b.renames shaped hv mem rfl out linked).1
      exact b.change (Or.inl begun) fun _ _ _ linked => Or.inl linked
  | bind | component => exact ⟨b.size, b.blank, b.names, bound⟩

/-- **No write of a visit says anything anew of another node.** -/
theorem Begun.steady_write (b : Begun nodes (v.index + 1) s) (other : v.index ≠ i)
    (h : action.Write (Arena.ofNodes nodes) resolve v s t) : s.Steady (Arena.ofNodes nodes) i t := by
  cases h with
  | exported | statement =>
      exact .change (fun _ => rfl) (fun _ => rfl) (fun _ _ _ => rfl) fun _ _ _ => rfl
  | link =>
      exact .change (fun _ => rfl) (fun _ => rfl) (fun _ _ _ => rfl) fun _ own => absurd own other
  | around out =>
      obtain ⟨d, out', host, -⟩ := Visit.nameOf_of_declaredName shaped hv mem
      obtain rfl := Option.some.inj (out.symm.trans out')
      refine .change (fun _ => rfl) (fun _ => rfl) (fun _ _ _ => rfl) ?_
      rintro plain rfl
      exact absurd host plain
  | path =>
      refine Steady.trans ?_ (Steady.attend other _ _ _)
      unfold MarkAction.writePath
      split
      · exact .refl
      · exact .change (fun _ => rfl) (fun _ => rfl) (fun _ _ _ => rfl) fun _ _ _ => rfl
  | attend => exact .attend other _ _ _
  | rename _ out linked =>
      have named := (b.renames shaped hv mem rfl out linked).2
      refine .change (fun _ => rfl) (fun _ => rfl) ?_ fun _ _ _ => rfl
      rintro plain rfl
      exact absurd named plain
  | bind | component => exact ⟨rfl, rfl, fun _ => rfl, fun _ => rfl⟩

theorem Begun.perform (b : Begun nodes (v.index + 1) s)
    (h : action.perform (Arena.ofNodes nodes) resolve v s = .ok t) : Begun nodes (v.index + 1) t :=
  keeps_perform (fun _ _ b write => b.write shaped hv mem write) b h

omit mem in
theorem Begun.visit (b : Begun nodes v.index s)
    (visited : Markings.visit (Arena.ofNodes nodes) resolve s v = .ok t) : Begun nodes (v.index + 1) t :=
  keeps_foldlM (fun _ mem _ _ b performed => b.perform shaped hv mem performed) (b.mono (Nat.le_succ _)) visited

omit mem in
theorem Begun.steady_visit (b : Begun nodes v.index s) (other : v.index ≠ i)
    (visited : Markings.visit (Arena.ofNodes nodes) resolve s v = .ok t) :
    s.Steady (Arena.ofNodes nodes) i t := by
  refine (keeps_foldlM (p := fun u => Begun nodes (v.index + 1) u ∧ s.Steady (Arena.ofNodes nodes) i u) ?_
    ⟨b.mono (Nat.le_succ _), .refl⟩ visited).2
  rintro action mem u w ⟨b, steady⟩ performed
  refine keeps_perform (p := fun u => Begun nodes (v.index + 1) u ∧ s.Steady (Arena.ofNodes nodes) i u) ?_
    ⟨b, steady⟩ performed
  rintro u w ⟨b, steady⟩ write
  exact ⟨b.write shaped hv mem write, steady.trans (b.steady_write shaped hv mem other write)⟩

omit mem in
theorem Begun.exists_last {front : List MarkAction} (b : Begun nodes v.index s)
    (split : v.actions (Arena.ofNodes nodes) = front ++ [action])
    (visited : Markings.visit (Arena.ofNodes nodes) resolve s v = .ok t) :
    ∃ u, Begun nodes (v.index + 1) u ∧ action.perform (Arena.ofNodes nodes) resolve v u = .ok t := by
  obtain ⟨u, before, performed⟩ := exists_of_visit_append split visited
  refine ⟨u, keeps_foldlM ?_ (b.mono (Nat.le_succ _)) before, performed⟩
  intro action hf _ _ b performed
  exact b.perform shaped hv (by rw [split]; exact List.mem_append_left _ hf) performed

end Visit

/-! ## The visit of a node in a walk -/

/-- A walk comes to the visit of a node with all that the visits before have kept, and goes on from it with
visits of later nodes. -/
theorem exists_visit_of_listFrom {a : Arena} {p : Nat → Markings → Prop} {trail : Trail} {rest : List FlatNode}
    (step : ∀ w ∈ Visit.listFrom trail k rest, ∀ s t, p w.index s → visit a resolve s w = .ok t →
      p (w.index + 1) t)
    (hs : p k s) (h : (Visit.listFrom trail k rest).foldlM (visit a resolve) s = .ok t)
    (hv : v ∈ Visit.listFrom trail k rest) :
    ∃ s₁ s₂, p v.index s₁ ∧ visit a resolve s₁ v = .ok s₂ ∧ ∀ q : Markings → Prop,
      (∀ w ∈ Visit.listFrom trail k rest, v.index < w.index → ∀ s t, p w.index s → q s →
        visit a resolve s w = .ok t → q t) → q s₂ → q t := by
  induction rest generalizing trail k s with
  | nil => cases hv
  | cons n rest ih =>
      rw [Visit.listFrom] at hv
      rw [Visit.listFrom, List.foldlM_cons] at h
      cases first : visit a resolve s ⟨k, trail.enter n.depth ⟨⟨n.field, n.kind⟩, k⟩⟩ with
      | error e =>
          rw [first] at h
          cases h
      | ok u =>
          rw [first] at h
          have step' := fun w hw => step w (List.mem_cons_of_mem _ hw)
          have hu := step _ List.mem_cons_self s u hs first
          rcases List.mem_cons.mp hv with rfl | hv
          · refine ⟨s, u, hs, first, fun q stays made => ?_⟩
            refine (keeps_listFrom (p := fun k s => p k s ∧ q s) ?_ ⟨hu, made⟩ h).2
            intro w hw s t hs visited
            have later : k < w.index := by
              have listed := List.mem_map_of_mem (f := Visit.index) hw
              rw [Visit.map_index_listFrom] at listed
              exact (List.mem_range'_1.mp listed).1
            exact ⟨step' w hw s t hs.1 visited,
              stays w (List.mem_cons_of_mem _ hw) later s t hs.1 hs.2 visited⟩
          · obtain ⟨s₁, s₂, known, visited, after⟩ := ih step' hu h hv
            exact ⟨s₁, s₂, known, visited, fun q stays =>
              after q fun w hw => stays w (List.mem_cons_of_mem _ hw)⟩

include shaped

/-- **What is said of a node is said on its own visit**, when all holds that the visits before have kept. -/
theorem exists_visited {p : Nat → Markings → Prop} (start : p 0 (init nodes.length))
    (step : ∀ w ∈ Visit.list nodes, ∀ s t, Begun nodes w.index s → p w.index s →
      visit (Arena.ofNodes nodes) resolve s w = .ok t → p (w.index + 1) t)
    (h : ofNodes nodes resolve = .ok s) (hv : v ∈ Visit.list nodes) :
    ∃ s₁ s₂, Begun nodes v.index s₁ ∧ p v.index s₁ ∧
      visit (Arena.ofNodes nodes) resolve s₁ v = .ok s₂ ∧ s₂.Steady (Arena.ofNodes nodes) v.index s := by
  obtain ⟨s₁, s₂, ⟨begun, known⟩, visited, after⟩ := exists_visit_of_listFrom
    (p := fun k s => Begun nodes k s ∧ p k s)
    (fun w hw s t hs visited => ⟨hs.1.visit shaped hw visited, step w hw s t hs.1 hs.2 visited⟩)
    ⟨begun_init, start⟩ h hv
  refine ⟨s₁, s₂, begun, known, visited, after (s₂.Steady (Arena.ofNodes nodes) v.index) ?_ .refl⟩
  intro w hw later s t hs steady visited
  exact steady.trans (hs.1.steady_visit shaped hw (Nat.ne_of_gt later) visited)

/-- **The last action on a node decides its tag**, if what it says does not depend on the marks. -/
theorem tag_of_last {front : List MarkAction} {tag : Tag} (h : ofNodes nodes resolve = .ok s)
    (hv : v ∈ Visit.list nodes) (split : v.actions (Arena.ofNodes nodes) = front ++ [action])
    (gives : ∀ u, action.tag? (Arena.ofNodes nodes) v u = some tag)
    (plain : ¬ (Arena.ofNodes nodes).NamesVariable v.index) : (s.mark v.index).tag = tag := by
  obtain ⟨s₁, s₂, begun, -, visited, steady⟩ := exists_visited (p := fun _ _ => True) shaped trivial
    (fun _ _ _ _ _ _ _ => trivial) h hv
  obtain ⟨u, begun, performed⟩ := begun.exists_last shaped hv split visited
  have other : action.isFunctionValue = false := by
    cases action with
    | functionValue => cases gives u
    | _ => rfl
  rw [steady.tag plain, tag_of_perform (begun.present hv) other performed, if_pos rfl, gives u]
  rfl

end Markings

end SourceSurvey
