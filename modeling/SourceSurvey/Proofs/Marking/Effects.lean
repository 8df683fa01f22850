import SourceSurvey.Marking.Action
import SourceSurvey.Proofs.Marking.Overlay

/-!
# What an action does

An action has many branches, but there are few things that it can come to: it tags the visited node, after it has
linked or exported something or noted a path, or it does one of four things that have nothing to do with a tag,
or nothing at all. `MarkAction.Effect` lists them with all that is known of each, and `MarkAction.effect_of_perform`
is the one place where the branches are gone through. What else there is to say about actions follows from it.
-/

namespace SourceSurvey

/-- What is said of a node itself. -/
structure Tag where
  category : Option Category := none
  note : String := ""
  label : String := ""
deriving DecidableEq, Repr

def Mark.tag (m : Mark) : Tag := ⟨m.category, m.note, m.label⟩

namespace Markings

variable {s t : Markings} {i j : Nat} {f : Mark → Mark}

/-! ## Reading after a write -/

theorem mark_change_eq : (s.change i f).mark j =
    if i = j ∧ i < s.marks.size then f (s.mark j) else s.mark j := by
  by_cases hi : i < s.marks.size
  · simp only [mark_change hi, hi, and_true]
  · have untouched : s.marks.modify i f = s.marks := by
      refine Array.ext Array.size_modify ?_
      intro k hk hk'
      rw [Array.getElem_modify, if_neg (by omega)]
    rw [if_neg (fun h => hi h.2), mark, mark]
    exact congrArg (fun marks => Array.getD marks j {}) untouched

theorem mark_change_of_ne (h : i ≠ j) : (s.change i f).mark j = s.mark j := by
  rw [mark_change_eq, if_neg (fun both => h both.1)]

theorem part_change {β : Type} (part : Mark → β) (hf : ∀ m, part (f m) = part m) :
    part ((s.change i f).mark j) = part (s.mark j) := by
  rw [mark_change_eq]
  split
  · exact hf _
  · rfl

/-- A change that makes nothing true of a mark makes it true of no mark. -/
theorem of_change {p : Mark → Prop} (h : p ((s.change i f).mark j)) (hf : ∀ m, p (f m) → p m) :
    p (s.mark j) := by
  rw [mark_change_eq] at h
  split at h
  · exact hf _ h
  · exact h

theorem size_attend {category : Category} {note label : String} :
    (s.attend i category note label).marks.size = s.marks.size :=
  size_change

/-! ## Writes by name -/

def exportAll (s : Markings) (l : List Ancestor) : Markings :=
  l.foldl (fun s n => s.change n.index fun m => { m with exported := true }) s

variable {l : List Ancestor}

theorem size_exportAll : (s.exportAll l).marks.size = s.marks.size := by
  induction l generalizing s with
  | nil => rfl
  | cons n rest ih => exact ih.trans size_change

theorem bindings_exportAll : (s.exportAll l).bindings = s.bindings := by
  induction l generalizing s with
  | nil => rfl
  | cons n rest ih => exact ih

theorem part_exportAll {β : Type} (part : Mark → β) (h : ∀ m, part { m with exported := true } = part m) :
    part ((s.exportAll l).mark j) = part (s.mark j) := by
  induction l generalizing s with
  | nil => rfl
  | cons n rest ih => exact ih.trans (part_change part h)

theorem exported_exportAll : ((s.exportAll l).mark j).exported = true ↔
    (s.mark j).exported = true ∨ j < s.marks.size ∧ ∃ n ∈ l, n.index = j := by
  induction l generalizing s with
  | nil =>
      show (s.mark j).exported = true ↔ _
      simp
  | cons n rest ih =>
      have one : ((s.change n.index fun m => { m with exported := true }).mark j).exported = true ↔
          (s.mark j).exported = true ∨ j < s.marks.size ∧ n.index = j := by
        rw [mark_change_eq]
        split
        · next here =>
          obtain ⟨rfl, present⟩ := here
          simp [present]
        · next elsewhere =>
          constructor
          · exact Or.inl
          · rintro (h | ⟨present, rfl⟩)
            · exact h
            · exact absurd ⟨rfl, present⟩ elsewhere
      show ((exportAll (s.change n.index _) rest).mark j).exported = true ↔ _
      rw [ih, one, size_change]
      simp only [List.mem_cons, exists_eq_or_imp]
      tauto

/-- Whether a statement is exported is read off the exports alone. -/
theorem isExported_congr (h : ∀ j, (t.mark j).exported = (s.mark j).exported) (trail : Trail) (steps : Nat) :
    t.isExported trail steps = s.isExported trail steps := by
  unfold isExported
  simp only [h]

/-- The declaration directly around a visit is linked with the visited node as its name. -/
def linkAround (s : Markings) (v : Visit) : Markings :=
  match v.trail.outward? 1 with
  | some declaration => s.change declaration.index fun m => { m with link := some v.index }
  | none => s

theorem size_linkAround {v : Visit} : (s.linkAround v).marks.size = s.marks.size := by
  unfold linkAround
  split
  · exact size_change
  · rfl

theorem bindings_linkAround {v : Visit} : (s.linkAround v).bindings = s.bindings := by
  unfold linkAround
  split <;> rfl

theorem part_linkAround {β : Type} (part : Mark → β) (h : ∀ m k, part { m with link := some k } = part m)
    {v : Visit} : part ((s.linkAround v).mark j) = part (s.mark j) := by
  unfold linkAround
  split
  · exact part_change part fun m => h m _
  · rfl

/-- The visited node is the name of a declaration, whose statement stands `steps` outwards: an exported
statement exports the name and everything between. -/
def declare (s : Markings) (v : Visit) (category : Category) (note label : String) (steps : Nat) : Markings :=
  let exported := s.isExported v.trail steps
  let around := if exported then (v.trail.nodes.drop 1).take steps else []
  (((s.linkAround v).exportAll around).change v.index fun m => { m with exported }).attend v.index
    category note label

/-- The file of a specifier is written down at the visited node and at the import statement around it, if
there is anyone to ask. -/
def resolved (s : Markings) (resolve : Option (String → Option String)) (v : Visit) (specifier : String) :
    Markings :=
  match resolve with
  | none => s
  | some find =>
    let path := find specifier
    let s := s.change v.index fun m => { m with path }
    match v.trail.findKind? ["import_statement"] 0 with
    | some statement => s.change statement.index fun m => { m with path }
    | none => s

end Markings

namespace MarkAction

open Markings

/-! ## What an action says of the visited node -/

def note? : MarkAction → Option String
  | importName note => some note
  | declaredName _ note _ => some note
  | call _ note => some note
  | component note => some note
  | returnedComponent note => some note
  | parameter note => some note
  | punctuation _ note => some note
  | functionValue note => some note
  | exportName note => some note
  | _ => none

/-- The note and the label that an action gives to the visited node, the path of an import apart. -/
def gives? (a : Arena) (v : Visit) (s : Markings) : MarkAction → Option (String × String)
  | importStatement => some ("import-declaration", "")
  | call field note => some (note, match a.childByField? v.index field with
      | some callee => a.chainText callee
      | none => "")
  | component note => some (note, tagLabel a v.index note)
  | returnedComponent note => some (note, tagLabel a v.index note)
  | propertyChain => some ("property", a.chainText v.index)
  | objectProperty => some ("object-prop", Text.compact (a.text v.index))
  | comment => some (commentNote (a.text v.index), a.text v.index)
  | patternField steps =>
    ((v.trail.outward? steps).bind fun pattern => s.bindings.lookup pattern.index).map fun b =>
      (b.note, b.name ++ "." ++ fieldName a v)
  | importName note => some (note, Text.compact (a.text v.index))
  | declaredName _ note _ => some (note, Text.compact (a.text v.index))
  | parameter note => some (note, Text.compact (a.text v.index))
  | punctuation _ note => some (note, Text.compact (a.text v.index))
  | exportName note => some (note, Text.compact (a.text v.index))
  | importPath | objectPattern | functionValue _ | exportKeyword => none

def category? (v : Visit) (s : Markings) : MarkAction → Option Category
  | importStatement | importName _ | importPath => some .imported
  | declaredName category _ _ => some category
  | call .. => some .call
  | component _ | returnedComponent _ => some .component
  | propertyChain | objectProperty => some .property
  | parameter _ => some .parameter
  | patternField steps =>
    ((v.trail.outward? steps).bind fun pattern => s.bindings.lookup pattern.index).map Binding.category
  | punctuation category _ => some category
  | exportName _ => some .exported
  | comment => some .comment
  | objectPattern | functionValue _ | exportKeyword => none

def tag? (a : Arena) (v : Visit) (s : Markings) : MarkAction → Option Tag
  | importPath => some ⟨some .imported, "import-path", specifierOf (a.text v.index)⟩
  | action => (action.gives? a v s).map fun given => ⟨action.category? v s, given.1, given.2⟩

def linksOwn : MarkAction → Bool
  | importStatement | importName _ | returnedComponent _ => true
  | _ => false

/-- The action decides anew whether the visited node is exported. -/
def assigns : MarkAction → Bool
  | declaredName .. => true
  | patternField _ => true
  | _ => false

variable {a : Arena} {resolve : Option (String → Option String)} {v : Visit} {s t : Markings}
  {action : MarkAction}

theorem tag?_of_gives? {category : Category} {note label : String} (put : action.category? v s = some category)
    (given : action.gives? a v s = some (note, label)) :
    action.tag? a v s = some ⟨some category, note, label⟩ := by
  cases action with
  | importPath => cases given
  | _ => simp only [tag?, given, put, Option.map_some]

theorem gives?_change {i : Nat} {f : Mark → Mark} : action.gives? a v (s.change i f) = action.gives? a v s := by
  cases action <;> rfl

/-- The notes that actions have of themselves, and not from a rule or a pattern. -/
def fixedNotes : List String :=
  ["import-declaration", "property", "object-prop", "doc-comment", "block-comment", "line-comment"]

theorem commentNote_mem_fixedNotes (text : String) : commentNote text ∈ fixedNotes := by
  unfold commentNote
  split
  · decide
  · split <;> decide

/-- A visited node is noted as the rule says, with a note that belongs to the action, or as the pattern around says. -/
theorem note_of_gives? {note label : String} (given : action.gives? a v s = some (note, label)) :
    action.note? = some note ∨ note ∈ fixedNotes ∨ ∃ steps pattern b, action = patternField steps ∧
      v.trail.outward? steps = some pattern ∧ s.bindings.lookup pattern.index = some b ∧ b.note = note := by
  cases action with
  | patternField steps =>
      obtain ⟨b, found, same⟩ := Option.map_eq_some_iff.mp given
      obtain ⟨pattern, out, looked⟩ := Option.bind_eq_some_iff.mp found
      cases same
      exact Or.inr (Or.inr ⟨steps, pattern, b, rfl, out, looked, rfl⟩)
  | importStatement | propertyChain | objectProperty =>
      cases given
      exact Or.inr (Or.inl (by decide))
  | comment =>
      cases given
      exact Or.inr (Or.inl (commentNote_mem_fixedNotes _))
  | importName | declaredName | call | component | returnedComponent | parameter | punctuation | exportName =>
      cases given
      exact Or.inl rfl
  | importPath | objectPattern | functionValue | exportKeyword => cases given

/-! ## Effects -/

/-- Everything that performing an action on a visit can come to. -/
inductive Effect (a : Arena) (resolve : Option (String → Option String)) (v : Visit) (s : Markings) :
    MarkAction → Markings → Prop
  | idle {action : MarkAction} : action.tag? a v s = none → Effect a resolve v s action s
  | tag {action : MarkAction} {category : Category} {note label : String} : action.assigns = false →
      action.category? v s = some category → action.gives? a v s = some (note, label) →
      Effect a resolve v s action (s.attend v.index category note label)
  | linkTag {action : MarkAction} {category : Category} {note label : String} (j : Nat) :
      action.linksOwn = true → action.assigns = false → action.category? v s = some category →
      action.gives? a v s = some (note, label) → Effect a resolve v s action
        ((s.change v.index fun m => { m with link := some j }).attend v.index category note label)
  | importPath : Effect a resolve v s importPath
      ((s.resolved resolve v (specifierOf (a.text v.index))).attend v.index .imported "import-path"
        (specifierOf (a.text v.index)))
  | declaredName (category : Category) (note : String) (steps : Nat) :
      Effect a resolve v s (declaredName category note steps)
        (s.declare v category note (Text.compact (a.text v.index)) steps)
  | patternField {steps : Nat} {pattern : Ancestor} {binding : Binding} :
      v.trail.outward? steps = some pattern → s.bindings.lookup pattern.index = some binding →
      Effect a resolve v s (patternField steps)
        ((s.change v.index fun m => { m with exported := binding.exported }).attend v.index
          binding.category binding.note (binding.name ++ "." ++ fieldName a v))
  | exportName (note : String) : Effect a resolve v s (exportName note)
      ((s.change v.index fun m => { m with exported := true }).attend v.index .exported note
        (Text.compact (a.text v.index)))
  | returned {note : String} {name : Nat} {components : List Nat} :
      Effect a resolve v s (returnedComponent note)
        { (s.attend v.index .component note (tagLabel a v.index note)).change v.index
            fun m => { m with link := some name } with components }
  | functionValue {note : String} {declarator : Ancestor} {name : Nat} :
      v.trail.outward? 1 = some declarator → (s.mark declarator.index).link = some name →
      Effect a resolve v s (functionValue note) (s.change name fun m =>
        { m with note, exported := m.exported || (s.mark declarator.index).exported })
  | exportKeyword : Effect a resolve v s exportKeyword (s.exportAll (v.trail.nodes.take 2))
  | objectPattern {binding : Binding} : bindingOf a v s = .ok (some binding) →
      Effect a resolve v s objectPattern { s with bindings := (v.index, binding) :: s.bindings }

theorem perform_declaredName (category : Category) (note : String) (steps : Nat) :
    (declaredName category note steps).perform a resolve v s =
      .ok (s.declare v category note (Text.compact (a.text v.index)) steps) := by
  have reads : (s.linkAround v).isExported v.trail steps = s.isExported v.trail steps :=
    isExported_congr (fun _ => part_linkAround Mark.exported fun _ _ => rfl) _ _
  rw [declare, ← reads]
  show Except.ok ((Markings.change (if (s.linkAround v).isExported v.trail steps = true then
    (s.linkAround v).exportAll ((v.trail.nodes.drop 1).take steps) else s.linkAround v) v.index _).attend
      v.index category note _) = _
  split
  · rfl
  · rfl

/-- **What performing an action comes to.** -/
theorem effect_of_perform (h : action.perform a resolve v s = .ok t) : action.Effect a resolve v s t := by
  cases action with
  | importStatement =>
      cases h
      split
      · exact .linkTag _ rfl rfl rfl rfl
      · exact .tag rfl rfl rfl
  | importName note =>
      cases h
      split
      · exact .linkTag _ rfl rfl rfl rfl
      · exact .tag rfl rfl rfl
  | importPath =>
      cases h
      exact .importPath
  | declaredName category note steps =>
      rw [perform_declaredName] at h
      cases h
      exact .declaredName ..
  | returnedComponent note =>
      simp only [perform] at h
      split at h
      · cases h
        exact .tag rfl rfl rfl
      · cases h
        exact .returned
  | objectPattern =>
      simp only [perform] at h
      cases bound : bindingOf a v s with
      | error e =>
          rw [bound] at h
          cases h
      | ok b =>
          rw [bound] at h
          cases b with
          | none =>
              cases h
              exact .idle rfl
          | some b =>
              cases h
              exact .objectPattern bound
  | patternField steps =>
      simp only [perform] at h
      split at h
      · next free =>
        cases h
        exact .idle (by simp [tag?, gives?, free])
      · next b found =>
        cases h
        obtain ⟨pattern, out, looked⟩ := Option.bind_eq_some_iff.mp found
        exact .patternField out looked
  | functionValue note =>
      simp only [perform] at h
      split at h
      · cases h
        exact .idle rfl
      · next declarator out =>
        split at h
        · cases h
          exact .idle rfl
        · next name linked =>
          cases h
          exact .functionValue out linked
  | exportKeyword =>
      cases h
      exact .exportKeyword
  | exportName note =>
      cases h
      exact .exportName note
  | call | component | propertyChain | parameter | punctuation | objectProperty | comment =>
      cases h
      exact .tag rfl rfl rfl

end MarkAction

end SourceSurvey
