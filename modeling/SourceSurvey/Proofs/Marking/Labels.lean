import SourceSurvey.Proofs.Marking.Form
import SourceSurvey.Proofs.Marking.ImportPaths
import SourceSurvey.Proofs.Marking.Tags
import SourceSurvey.Proofs.Outline.Nesting
import SourceSurvey.Proofs.Tree.Solid

/-!
# Labels

The nodes of interest are those with a category and a label, in order. Their labels are for one line: they hold
no blank, wherever they come from, as long as the dots of access chains hold none. Two kinds of labels are not
made for display and keep their blanks, the text of a comment and the path of an import (`attentionOf_labelled`).
Nothing is assumed of the depths of the nodes.

- `Mark.Worded`, `Markings.Worded` — what every write keeps of notes, labels and links.
- `Markings.SameShown` — nothing is said about what is shown.
- `MarkedNode.Labelled` — what is known of a node of interest.
-/

namespace SourceSurvey

open Text

/-! ## The labels that actions give -/

theorem isSolid_parameterName (a : Arena) (parameter : Nat) : IsSolid (parameterName a parameter) := by
  have numbered (n : Nat) : IsSolid ("arg" ++ toString n) := IsSolid.append (by decide) (isSolid_toString n)
  unfold parameterName
  cases a.childOfKind? parameter "type_annotation" with
  | none => exact numbered _
  | some t =>
      dsimp only
      split
      · exact (isSolid_compact _).dropWhile _
      · exact numbered _

/-- A binding that its fields can be shown below, and that makes them no comments. -/
structure Binding.Worded (b : Binding) : Prop where
  name : IsSolid b.name
  note : b.note ∈ MarkAction.bindingNotes
  category : b.category ≠ .comment

namespace MarkAction

variable {a : Arena} {v : Visit} {s : Markings} {action : MarkAction}

theorem isSolid_fieldName : IsSolid (fieldName a v) := by
  unfold fieldName
  split
  · split
    · split
      · exact isSolid_compact _
      · exact isSolid_compact _
    · exact isSolid_compact _
  · exact isSolid_compact _

/-- A binding is named for a parameter, for a value, or for the pattern around and a key. -/
theorem worded_of_bindingOf {b : Binding} (bound : ∀ e ∈ s.bindings, e.2.Worded)
    (h : bindingOf a v s = .ok (some b)) : b.Worded := by
  unfold bindingOf at h
  split at h
  · cases h
  split at h
  · cases h
    exact ⟨isSolid_parameterName _ _, List.mem_cons_self, Category.noConfusion⟩
  split at h
  · cases h
    refine ⟨?_, List.mem_cons_of_mem _ List.mem_cons_self, Category.noConfusion⟩
    dsimp only
    split
    · exact isSolid_compact _
    · decide
  split at h
  · split at h
    · cases h
    split at h
    · next outer key looked _ =>
      cases h
      have around := bound _ (mem_of_lookup looked)
      exact ⟨(around.name.append (by decide)).append (isSolid_compact _), around.note, around.category⟩
    · cases h
  · cases h

variable (dots : ∀ j, a.kind j ∈ Arena.dotKinds → IsSolid (a.text j))

include dots

theorem isSolid_tagLabel (i : Nat) (note : String) : IsSolid (tagLabel a i note) := by
  unfold tagLabel
  split
  · decide
  split
  · exact Arena.isSolid_chainText dots i
  · exact isSolid_compact _

/-- **Every label that an action gives is solid**, the text of a comment apart. -/
theorem isSolid_of_gives? {note label : String} (bound : ∀ e ∈ s.bindings, e.2.Worded)
    (code : action ≠ comment) (h : action.gives? a v s = some (note, label)) : IsSolid label := by
  cases action with
  | importStatement =>
      cases h
      decide
  | call field note =>
      cases h
      split
      · exact Arena.isSolid_chainText dots _
      · decide
  | component | returnedComponent =>
      cases h
      exact isSolid_tagLabel dots _ _
  | propertyChain =>
      cases h
      exact Arena.isSolid_chainText dots _
  | patternField steps =>
      obtain ⟨b, found, same⟩ := Option.map_eq_some_iff.mp h
      obtain ⟨pattern, -, looked⟩ := Option.bind_eq_some_iff.mp found
      cases same
      exact ((bound _ (mem_of_lookup looked)).name.append (by decide)).append isSolid_fieldName
  | objectProperty | importName | declaredName | parameter | punctuation | exportName =>
      cases h
      exact isSolid_compact _
  | comment => exact absurd rfl code
  | importPath | objectPattern | functionValue | exportKeyword => cases h

end MarkAction

/-! ## Names and declarators at any depth -/

namespace Visit

open Arena MarkAction MarkRule

variable {nodes : List FlatNode} {v : Visit} (hv : v ∈ list nodes) {d : Ancestor}
  (out : v.trail.outward? 1 = some d)

include hv out

theorem accepts_pair {s t : Step} (firm : s.isOptional = false ∧ t.isOptional = false)
    (fits : Pattern.matchesInward [s, t] v.trail.inward = true) :
    s.accepts ((ofNodes nodes).ancestor v.index).toPathStep = true ∧
      t.accepts ((ofNodes nodes).ancestor d.index).toPathStep = true := by
  obtain ⟨-, outer, trail, known⟩ := exists_outer hv
  rw [Trail.outward?, trail, List.getElem?_cons_succ] at out
  cases outer with
  | nil => cases out
  | cons d' outer =>
      cases out
      obtain ⟨j, -, rfl⟩ := known d List.mem_cons_self
      rw [inStep_list hv, trail, List.map_cons, List.map_cons, Pattern.matchesInward_cons firm.1,
        Pattern.matchesInward_cons firm.2] at fits
      exact ⟨fits.1, fits.2.1⟩

theorem kind_of_declaredName {category : Category} {note : String} {steps : Nat}
    (mem : declaredName category note steps ∈ v.actions (ofNodes nodes))
    (host : (ofNodes nodes).kind d.index = "variable_declarator") :
    (ofNodes nodes).kind v.index = "identifier" := by
  obtain ⟨path, place, fits⟩ := exists_place mem rfl
  obtain ⟨rfl, -⟩ | ⟨rfl, -⟩ | ⟨rfl, -⟩ | ⟨rfl, -⟩ := by simpa [places] using place
  · exact (Step.accepts_under_kind.mp (accepts_pair hv out (by decide) fits).1).1
  · have other := Step.accepts_oneOf.mp (accepts_pair hv out (by decide) fits).2
    exact absurd (host ▸ other) (by decide)
  · have other := Step.accepts_kind.mp (accepts_pair hv out (by decide) fits).2
    exact absurd (host.symm.trans other) (by decide)
  · have other := Step.accepts_oneOf.mp (accepts_pair hv out (by decide) fits).2
    exact absurd (host ▸ other) (by decide)

theorem host_of_functionValue {note : String} (mem : functionValue note ∈ v.actions (ofNodes nodes)) :
    (ofNodes nodes).kind d.index = "variable_declarator" := by
  obtain ⟨path, place, fits⟩ := exists_place mem rfl
  obtain ⟨rfl, -⟩ | ⟨rfl, -⟩ := by simpa [places] using place
  all_goals exact Step.accepts_kind.mp (accepts_pair hv out (by decide) fits).2

end Visit

/-! ## Notes and labels -/

/-- A mark as node `i` can have it. The name of a variable can be noted again later, so declarators are known to
be linked with identifiers: none of them is the path of an import. -/
structure Mark.Worded (a : Arena) (i : Nat) (m : Mark) : Prop where
  link : a.kind i = "variable_declarator" → ∀ j, m.link = some j → a.kind j = "identifier"
  path : m.note = "import-path" → a.kind i = "string" ∧ m.label = specifierOf (a.text i)
  label : m.note ≠ "import-path" → IsSolid m.label ∨ a.kind i ∈ commentKinds ∧ m.label = a.text i

namespace Markings

open MarkAction

/-- All marks and bindings are as they can be. -/
structure Worded (a : Arena) (s : Markings) : Prop where
  marks : ∀ i, (s.mark i).Worded a i
  bindings : ∀ e ∈ s.bindings, e.2.Worded

namespace Worded

variable {a : Arena} {resolve : Option (String → Option String)} {s t : Markings} {i : Nat}

theorem init (size : Nat) : (init size).Worded a where
  marks := by
    intro i
    rw [mark_init]
    exact ⟨fun _ _ linked => absurd linked (by simp), fun noted => absurd noted (by decide),
      fun _ => Or.inl (by decide)⟩
  bindings := by simp [Markings.init]

theorem change {f : Mark → Mark} (h : s.Worded a) (keeps : ∀ m, m.Worded a i → (f m).Worded a i) :
    (s.change i f).Worded a where
  marks := by
    intro j
    rw [mark_change_eq]
    split
    · next here =>
      obtain ⟨rfl, -⟩ := here
      exact keeps _ (h.marks i)
    · exact h.marks j
  bindings := h.bindings

theorem attend {note label : String} (h : s.Worded a) (category : Category)
    (path : note = "import-path" → a.kind i = "string" ∧ label = specifierOf (a.text i))
    (shown : note ≠ "import-path" → IsSolid label ∨ a.kind i ∈ commentKinds ∧ label = a.text i) :
    (s.attend i category note label).Worded a := by
  have changed := h.change (i := i) (f := fun m => { m with category := some category, note, label })
    fun _ w => ⟨w.link, path, shown⟩
  exact ⟨changed.marks, changed.bindings⟩

variable {nodes : List FlatNode} {v : Visit} {action : MarkAction}

/-- **Every write keeps notes, labels and links as they can be.** -/
theorem write
    (dots : ∀ j, (Arena.ofNodes nodes).kind j ∈ Arena.dotKinds → IsSolid ((Arena.ofNodes nodes).text j))
    (hv : v ∈ Visit.list nodes) (mem : action ∈ v.actions (Arena.ofNodes nodes))
    (h : s.Worded (Arena.ofNodes nodes)) (write : action.Write (Arena.ofNodes nodes) resolve v s t) :
    t.Worded (Arena.ofNodes nodes) := by
  have other := note?_ne_importPath mem
  cases write with
  | exported | statement => exact h.change fun _ w => ⟨w.link, w.path, w.label⟩
  | link _ links =>
      refine h.change fun _ w => ⟨fun host => ?_, w.path, w.label⟩
      have plain := Visit.kind_not_mem_nameHosts hv mem links
      rw [host] at plain
      exact absurd (by decide) plain
  | around out =>
      refine h.change fun _ w => ⟨?_, w.path, w.label⟩
      rintro host _ ⟨⟩
      exact Visit.kind_of_declaredName hv out mem host
  | path =>
      have written : (writePath resolve v.index (specifierOf ((Arena.ofNodes nodes).text v.index)) s).Worded
          (Arena.ofNodes nodes) := by
        unfold writePath
        split
        · exact h
        · exact h.change fun _ w => ⟨w.link, w.path, w.label⟩
      exact written.attend _ (fun _ => ⟨kind_of_importPath hv mem, rfl⟩) fun noted => absurd rfl noted
  | @attend _ _ category note label gives =>
      refine h.attend _ (fun noted => ?_) fun _ => ?_
      · rcases note_of_gives?_of_bindings (fun e he => (h.bindings e he).note) gives with carried | own
        · exact absurd (carried.trans (congrArg some noted)) other
        · rw [noted] at own
          exact absurd own (by decide)
      · by_cases code : action = comment
        · subst code
          cases gives
          exact Or.inr ⟨Visit.kind_of_comment hv mem, rfl⟩
        · exact Or.inl (isSolid_of_gives? dots h.bindings code gives)
  | rename _ out linked =>
      have named := (h.marks _).link (Visit.host_of_functionValue hv out mem) _ linked
      refine h.change fun m w => ⟨w.link, fun noted => absurd (congrArg some noted) other, fun _ => w.label ?_⟩
      -- what is noted again is an identifier, and no string
      intro noted
      exact absurd (named.symm.trans (w.path noted).1) (by decide)
  | bind made => exact ⟨h.marks, List.forall_mem_cons.mpr ⟨worded_of_bindingOf h.bindings made, h.bindings⟩⟩
  | component => exact ⟨h.marks, h.bindings⟩

end Worded

end Markings

/-! ## Categories -/

namespace Markings

/-- The same nodes are attended, in the same categories and with the same labels. -/
structure SameShown (s t : Markings) : Prop where
  size : t.marks.size = s.marks.size
  attended : t.attended = s.attended
  category : ∀ j, (t.mark j).category = (s.mark j).category
  label : ∀ j, (t.mark j).label = (s.mark j).label

variable {s : Markings}

theorem SameShown.refl : s.SameShown s := ⟨rfl, rfl, fun _ => rfl, fun _ => rfl⟩

theorem SameShown.change {i : Nat} {f : Mark → Mark} (category : ∀ m, (f m).category = m.category)
    (label : ∀ m, (f m).label = m.label) : s.SameShown (s.change i f) :=
  ⟨size_change, rfl, fun _ => part_change Mark.category category, fun _ => part_change Mark.label label⟩

end Markings

namespace MarkAction

open Markings

variable {a : Arena} {resolve : Option (String → Option String)} {v : Visit} {s t : Markings}
  {action : MarkAction}

/-- **A write attends the visited node, or what is shown stays the same.** -/
theorem Write.shown (h : action.Write a resolve v s t) : s.SameShown t ∨
    ∃ u category note label, s.SameShown u ∧ t = u.attend v.index category note label := by
  cases h with
  | exported | link | around | statement | rename => exact Or.inl (.change (fun _ => rfl) fun _ => rfl)
  | attend category => exact Or.inr ⟨s, category, _, _, .refl, rfl⟩
  | path =>
      refine Or.inr ⟨_, _, _, _, ?_, rfl⟩
      unfold writePath
      split
      · exact .refl
      · exact .change (fun _ => rfl) fun _ => rfl
  | bind | component => exact Or.inl ⟨rfl, rfl, fun _ => rfl, fun _ => rfl⟩

def carried? : MarkAction → Option Category
  | declaredName category _ _ => some category
  | punctuation category _ => some category
  | _ => none

theorem eq_comment_of_category? (bound : ∀ e ∈ s.bindings, e.2.Worded) (mem : action ∈ v.actions a)
    (h : action.category? v s = some .comment) : action = comment := by
  have table : ∀ y ∈ MarkRule.table, y.2.carried? ≠ some .comment := by decide
  obtain ⟨steps, listed, -⟩ := Visit.exists_steps mem
  have other := table _ listed
  cases action with
  | comment => rfl
  | declaredName | punctuation => exact absurd h other
  | patternField steps =>
      obtain ⟨b, found, category⟩ := Option.map_eq_some_iff.mp h
      obtain ⟨pattern, -, looked⟩ := Option.bind_eq_some_iff.mp found
      exact absurd category (bound _ (mem_of_lookup looked)).category
  | _ => cases h

end MarkAction

namespace Markings

open MarkAction

variable {nodes : List FlatNode} {resolve : Option (String → Option String)} {s : Markings} {i : Nat}

/-- **The attended nodes are those in a category.** -/
theorem mem_attended_iff (h : ofNodes nodes resolve = .ok s) : i ∈ s.attended ↔ (s.mark i).category ≠ none := by
  refine (keeps_ofNodes (p := fun s => s.marks.size = nodes.length ∧
    ∀ i, i ∈ s.attended ↔ (s.mark i).category ≠ none) ?_ ⟨size_init _, ?_⟩ h).2 i
  · rintro v hv action - s t ⟨size, known⟩ write
    rcases write.shown with same | ⟨u, category, note, label, same, rfl⟩
    · refine ⟨same.size.trans size, fun i => ?_⟩
      rw [same.attended, same.category, known i]
    · have present : v.index < u.marks.size := by
        rw [same.size, size]
        exact (Visit.exists_outer hv).1
      refine ⟨(size_attend.trans same.size).trans size, fun i => ?_⟩
      have given : ((u.attend v.index category note label).mark i).category =
          (if i = v.index then ⟨some category, note, label⟩ else (u.mark i).tag : Tag).category :=
        congrArg Tag.category (tag_attend present)
      rw [mem_attended_attend, same.attended, known i, given, ← same.category i]
      split
      · next own => simp [own]
      · next other => simp [other, Mark.tag]
  · intro i
    rw [mark_init]
    simp [init]

/-! ## Comments -/

theorem shown_of_visit {a : Arena} {v : Visit} {t : Markings} (other : v.index ≠ i)
    (visited : visit a resolve s v = .ok t) :
    (t.mark i).category = (s.mark i).category ∧ (t.mark i).label = (s.mark i).label := by
  refine keeps_foldlM (p := fun u => (u.mark i).category = (s.mark i).category ∧
    (u.mark i).label = (s.mark i).label) ?_ ⟨rfl, rfl⟩ visited
  intro action _ u w known performed
  refine keeps_perform (p := fun u => (u.mark i).category = (s.mark i).category ∧
    (u.mark i).label = (s.mark i).label) ?_ known performed
  intro u w known write
  rcases write.shown with same | ⟨u', category, note, label, same, rfl⟩
  · rwa [same.category, same.label]
  · have apart : (u'.attend v.index category note label).mark i = u'.mark i := mark_change_of_ne other
    rwa [apart, same.category, same.label]

/-- The rules for comments are asked last, and apply to every comment. -/
theorem exists_actions_comment {v : Visit} (hv : v ∈ Visit.list nodes)
    (kind : (Arena.ofNodes nodes).kind v.index ∈ commentKinds) :
    ∃ front, v.actions (Arena.ofNodes nodes) = front ++ [comment] := by
  have listed : MarkRule.groups[12]? = some MarkRule.comments := rfl
  refine Visit.exists_actions_append listed (by simp [MarkRule.groups]) ?_
  obtain ⟨outer, inward⟩ := Visit.exists_inward hv
  rw [Visit.actionOf?, inward]
  rcases List.mem_pair.mp kind with kind | kind
  · rw [kind]
    rfl
  · rw [kind]
    rfl

/-- **Every comment is in their category and labelled with its text**, whatever else applies to it. -/
theorem comment_of_kind (h : ofNodes nodes resolve = .ok s) (kind : (Arena.ofNodes nodes).kind i ∈ commentKinds) :
    (s.mark i).category = some .comment ∧ (s.mark i).label = (Arena.ofNodes nodes).text i := by
  have present : i < nodes.length := by
    apply Arena.lt_length_of_kind
    intro blank
    rw [blank] at kind
    exact absurd kind (by decide)
  obtain ⟨v, hv, rfl⟩ := Visit.exists_visit present
  obtain ⟨s₁, s₂, size, visited, after⟩ := exists_visit_of_listFrom (p := fun _ s => s.marks.size = nodes.length)
    (fun w _ s t hs visited => keeps_visit hs visited fun _ _ _ _ hs outcome => outcome.size.trans hs)
    (size_init _) h hv
  refine after (fun s => (s.mark v.index).category = some .comment ∧
    (s.mark v.index).label = (Arena.ofNodes nodes).text v.index) ?_ ?_
  · intro w _ later s t _ known visited
    have same := shown_of_visit (Nat.ne_of_gt later) visited
    rwa [same.1, same.2]
  · obtain ⟨front, split⟩ := exists_actions_comment hv kind
    obtain ⟨u, before, performed⟩ := exists_of_visit_append split visited
    have size' : u.marks.size = nodes.length := by
      refine keeps_foldlM (p := fun s => s.marks.size = nodes.length) ?_ size before
      intro action mem s t size performed
      have listed : action ∈ v.actions (Arena.ofNodes nodes) := by
        rw [split]
        exact List.mem_append_left _ mem
      exact (outcome_of_mem_actions listed performed).size.trans size
    have tagged := tag_of_perform (by rwa [size']) rfl performed v.index
    rw [if_pos rfl] at tagged
    exact ⟨congrArg Tag.category tagged, congrArg Tag.label tagged⟩

/-- What every action keeps: all marks are as they can be, and nothing but comments is in their category. -/
structure Classed (nodes : List FlatNode) (s : Markings) : Prop where
  size : s.marks.size = nodes.length
  worded : s.Worded (Arena.ofNodes nodes)
  comment : ∀ i, (s.mark i).category = some .comment → (Arena.ofNodes nodes).kind i ∈ commentKinds

section Dots

variable (dots : ∀ j, (Arena.ofNodes nodes).kind j ∈ Arena.dotKinds → IsSolid ((Arena.ofNodes nodes).text j))

include dots

theorem Classed.perform {t : Markings} {v : Visit} {action : MarkAction} (hv : v ∈ Visit.list nodes)
    (mem : action ∈ v.actions (Arena.ofNodes nodes)) (known : s.Classed nodes)
    (performed : action.perform (Arena.ofNodes nodes) resolve v s = .ok t) : t.Classed nodes where
  size := (outcome_of_mem_actions mem performed).size.trans known.size
  worded := keeps_perform (fun _ _ worded write => worded.write dots hv mem write) known.worded performed
  comment := by
    intro i comment
    have present : v.index < s.marks.size := by
      rw [known.size]
      exact (Visit.exists_outer hv).1
    rcases category_of_perform present performed i with same | ⟨rfl, given⟩
    · exact known.comment i (same.symm.trans comment)
    · obtain rfl := eq_comment_of_category? known.worded.bindings mem (given.symm.trans comment)
      exact Visit.kind_of_comment hv mem

theorem classed_ofNodes (h : ofNodes nodes resolve = .ok s) : s.Classed nodes := by
  have start : (init nodes.length).Classed nodes := by
    refine ⟨size_init _, .init _, fun i comment => ?_⟩
    rw [mark_init] at comment
    cases comment
  refine keeps_foldlM ?_ start h
  intro v hv s t known visited
  exact keeps_foldlM (fun action mem s t known performed => known.perform dots hv mem performed) known visited

end Dots

end Markings

/-! ## The nodes of interest -/

/-- The inner text is the text without the blanks at its ends and without its first and last character; if not two
characters are there, it is the text as it stands. -/
def Text.Unquoted (text inner : String) : Prop :=
  (∃ first last, (strip text).toList = first :: (inner.toList ++ [last])) ∨
    (strip text).toList.length < 2 ∧ inner = text

theorem unquoted_specifierOf (text : String) : Unquoted text (specifierOf text) := by
  unfold specifierOf
  dsimp only
  split
  · next long =>
    refine Or.inl ?_
    cases chars : (strip text).toList with
    | nil =>
        rw [chars] at long
        cases long
    | cons first rest =>
        have more : rest ≠ [] := by
          rintro rfl
          rw [chars] at long
          exact absurd long (Nat.not_succ_le_self 1)
        refine ⟨first, rest.getLast more, ?_⟩
        rw [List.drop_one, List.tail_cons, String.toList_ofList, List.dropLast_append_getLast]
  · next short => exact Or.inr ⟨Nat.lt_of_not_le short, rfl⟩

/-- The label of a node of interest: of a comment its text, of the path of an import what is between the quotes,
and of all else a text without blanks. -/
structure MarkedNode.Labelled (m : MarkedNode) : Prop where
  comment : m.mark.category = some .comment ↔ m.node.kind ∈ commentKinds
  verbatim : m.node.kind ∈ commentKinds → m.mark.label = m.node.text
  path : m.mark.note = "import-path" → m.node.kind = "string" ∧ Unquoted m.node.text m.mark.label
  solid : m.node.kind ∉ commentKinds → m.mark.note ≠ "import-path" → IsSolid m.mark.label

namespace Markings

variable {nodes : List FlatNode} {resolve : Option (String → Option String)} {s : Markings}

theorem mem_markedNodes {m : MarkedNode} : m ∈ s.markedNodes nodes ↔
    ∃ i < nodes.length, ⟨i, nodes.getD i default, s.mark i⟩ = m := by
  simp [markedNodes, Outline.zipIdx_eq_map_range]

theorem mem_attentionNodes (h : ofNodes nodes resolve = .ok s) {m : MarkedNode} : m ∈ s.attentionNodes nodes ↔
    m ∈ s.markedNodes nodes ∧ m.mark.category ≠ none ∧ m.mark.label ≠ "" := by
  rw [attentionNodes, List.mem_map, mem_markedNodes]
  constructor
  · rintro ⟨i, mem, rfl⟩
    have present := lt_of_mem_attention mem
    rw [size_ofNodes h] at present
    rw [mem_attention, mem_attended_iff h] at mem
    exact ⟨⟨i, present, rfl⟩, mem⟩
  · rintro ⟨⟨i, -, rfl⟩, shown⟩
    refine ⟨i, ?_, rfl⟩
    rw [mem_attention, mem_attended_iff h]
    exact shown

theorem labelled_of_index
    (dots : ∀ j, (Arena.ofNodes nodes).kind j ∈ Arena.dotKinds → IsSolid ((Arena.ofNodes nodes).text j))
    (h : ofNodes nodes resolve = .ok s) (i : Nat) :
    MarkedNode.Labelled ⟨i, nodes.getD i default, s.mark i⟩ := by
  have classed := classed_ofNodes dots h
  have worded := classed.worded.marks i
  have kind : (Arena.ofNodes nodes).kind i = (nodes.getD i default).kind := by rw [Arena.kind, Arena.getD_nodes]
  have text : (Arena.ofNodes nodes).text i = (nodes.getD i default).text := by rw [Arena.text, Arena.getD_nodes]
  refine ⟨?_, ?_, ?_, ?_⟩
  · dsimp only
    rw [← kind]
    exact ⟨classed.comment i, fun comment => (comment_of_kind h comment).1⟩
  · dsimp only
    rw [← kind, ← text]
    exact fun comment => (comment_of_kind h comment).2
  · intro noted
    obtain ⟨string, label⟩ := worded.path noted
    dsimp only
    rw [← kind, ← text, label]
    exact ⟨string, unquoted_specifierOf _⟩
  · intro code noted
    rcases worded.label noted with solid | ⟨comment, -⟩
    · exact solid
    · exact absurd (kind ▸ comment) code

end Markings

/-- **The nodes of interest are those with a category and a label, each once and in order, and their labels hold no
blank**, but for the texts of comments and what stands between the quotes of import paths. -/
theorem attentionOf_labelled {nodes : List FlatNode} {resolve : Option (String → Option String)} {s : Markings}
    (dots : ∀ n ∈ nodes, n.kind ∈ Arena.dotKinds → IsSolid n.text)
    (h : Markings.ofNodes nodes resolve = .ok s) :
    ∃ shown, attentionOf nodes resolve = .ok shown ∧
      shown.Pairwise (fun m n => m.index < n.index) ∧
      (∀ m, m ∈ shown ↔ m ∈ s.markedNodes nodes ∧ m.mark.category ≠ none ∧ m.mark.label ≠ "") ∧
      ∀ m ∈ shown, m.Labelled := by
  refine ⟨s.attentionNodes nodes, by rw [attentionOf, h]; rfl, ?_, fun m => Markings.mem_attentionNodes h, ?_⟩
  · exact List.pairwise_map.mpr (Markings.sorted_attention h)
  · intro m hm
    obtain ⟨i, -, rfl⟩ := List.mem_map.mp hm
    refine Markings.labelled_of_index ?_ h i
    intro j dot
    have present : j < nodes.length := by
      apply Arena.lt_length_of_kind
      intro blank
      rw [blank] at dot
      exact absurd dot (by decide)
    rw [Arena.kind, Arena.getD_nodes, List.getD_eq_getElem _ _ present] at dot
    rw [Arena.text, Arena.getD_nodes, List.getD_eq_getElem _ _ present]
    exact dots _ (List.getElem_mem present) dot

/-- A comment, an import and an access with blanks in them, and a comment in the place of a method's name. -/
def spacedOut : List FlatNode :=
  [⟨0, "program", "// a b\nimport 'c d'\nx\n .y", 1, 4, 0, 3, true, none⟩,
   ⟨1, "comment", "// a b", 1, 1, 0, 6, false, none⟩,
   ⟨1, "import_statement", "import 'c d'", 2, 2, 0, 12, true, none⟩,
   ⟨2, "import", "import", 2, 2, 0, 6, false, none⟩,
   ⟨2, "string", "'c d'", 2, 2, 7, 12, false, some "source"⟩,
   ⟨1, "member_expression", "x\n .y", 3, 4, 0, 3, true, none⟩,
   ⟨2, "identifier", "x", 3, 3, 0, 1, false, some "object"⟩,
   ⟨2, ".", ".", 4, 4, 1, 2, false, none⟩,
   ⟨2, "property_identifier", "y", 4, 4, 2, 3, false, some "property"⟩,
   ⟨1, "method_definition", "/* e f */", 5, 5, 0, 9, true, none⟩,
   ⟨2, "comment", "/* e f */", 5, 5, 0, 9, false, some "name"⟩]

theorem attentionOf_labelled_spacedOut : (∀ n ∈ spacedOut, n.kind ∈ Arena.dotKinds → IsSolid n.text) ∧
    ∃ s, Markings.ofNodes spacedOut none = .ok s ∧
      s.attended.map (fun i => (i, (s.mark i).label)) =
        [(10, "/* e f */"), (5, "x.y"), (4, "c d"), (2, ""), (1, "// a b")] ∧
      ∃ shown, attentionOf spacedOut none = .ok shown ∧
        shown.Pairwise (fun m n => m.index < n.index) ∧
        (∀ m, m ∈ shown ↔ m ∈ s.markedNodes spacedOut ∧ m.mark.category ≠ none ∧ m.mark.label ≠ "") ∧
        ∀ m ∈ shown, m.Labelled := by
  have dots : ∀ n ∈ spacedOut, n.kind ∈ Arena.dotKinds → IsSolid n.text := by decide
  have run : (Markings.ofNodes spacedOut none).map (fun s => s.attended.map fun i => (i, (s.mark i).label)) =
      .ok [(10, "/* e f */"), (5, "x.y"), (4, "c d"), (2, ""), (1, "// a b")] := by
    decide +kernel
  obtain ⟨s, h, labels⟩ := Markings.exists_of_map run
  exact ⟨dots, s, h, labels, attentionOf_labelled dots h⟩

end SourceSurvey
