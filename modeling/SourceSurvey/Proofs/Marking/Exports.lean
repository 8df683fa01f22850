import SourceSurvey.Proofs.Marking.Places
import SourceSurvey.Proofs.Marking.Writes

/-!
# Exports reach what is declared in them

The walk hands exports on from node to node: a keyword marks the export statement, the first name of a
statement marks the statement and its declarator, a function marks the name it is bound to, and the
fields of an object pattern inherit what the pattern found. The invariant of the walk says for each of
these nodes what an export on it stands for (`Arena.Licensed`), and which nodes have theirs by now
(`Markings.Complete`). Asking a statement whether it is exported then gives the answer of the tree
(`Markings.Right.isExported_iff`), although it may be answered from different marks.
-/

namespace SourceSurvey

open Arena

/-! ## What an export stands for -/

/-- What an export on node `i` stands for when the first `k` nodes have been visited. -/
structure Arena.Licensed (a : Arena) (k i : Nat) : Prop where
  wrapper : a.kind i = "export_statement" →
    ∃ keyword < k, a.parent? keyword = some i ∧ a.kind keyword = "export"
  statement : a.kind i ∈ declarationKinds → a.InExport i
  declarator : a.kind i = "variable_declarator" → ∀ statement, a.parent? i = some statement →
    a.InExport statement
  declared : ∀ statement, a.Declares i statement → a.InExport statement

namespace Arena.Licensed

variable {a : Arena} {k i statement : Nat}

theorem of_kind (plain : a.kind i ∉ carrierKinds)
    (declared : ∀ statement, a.Declares i statement → a.InExport statement) : a.Licensed k i where
  wrapper := fun h => absurd (by simp [carrierKinds, h]) plain
  statement := fun h => absurd (by simp [carrierKinds, h]) plain
  declarator := fun h => absurd (by simp [carrierKinds, h]) plain
  declared := declared

theorem of_declares (g : a.Grammatical) (h : a.Declares i statement) (inside : a.InExport statement) :
    a.Licensed k i :=
  of_kind (g.kind_of_declares h) fun _ h' => h.unique h' ▸ inside

theorem of_statement (g : a.Grammatical) (kind : a.kind i ∈ declarationKinds) (inside : a.InExport i) :
    a.Licensed k i where
  wrapper := fun h => absurd (h ▸ kind) (by decide)
  statement := fun _ => inside
  declarator := fun h => absurd (h ▸ kind) (by decide)
  declared := fun _ h => absurd (List.mem_append_right _ kind) (g.kind_of_declares h)

theorem of_declarator (g : a.Grammatical) (kind : a.kind i = "variable_declarator")
    (around : a.parent? i = some statement) (inside : a.InExport statement) : a.Licensed k i where
  wrapper := fun h => absurd (kind.symm.trans h) (by decide)
  statement := fun h => absurd (kind ▸ h) (by decide)
  declarator := fun _ _ around' => Option.some.inj (around.symm.trans around') ▸ inside
  declared := fun _ h => absurd (by simp [carrierKinds, kind]) (g.kind_of_declares h)

theorem of_wrapper (g : a.Grammatical) {keyword : Nat} (kind : a.kind i = "export_statement")
    (before : keyword < k) (around : a.parent? keyword = some i) (kind' : a.kind keyword = "export") :
    a.Licensed k i where
  wrapper := fun _ => ⟨keyword, before, around, kind'⟩
  statement := fun h => absurd (kind ▸ h) (by decide)
  declarator := fun h => absurd (kind.symm.trans h) (by decide)
  declared := fun _ h => absurd (by simp [carrierKinds, kind]) (g.kind_of_declares h)

theorem mono {l : Nat} (h : a.Licensed k i) (le : k ≤ l) : a.Licensed l i :=
  { h with wrapper := fun kind => (h.wrapper kind).imp fun _ hk => ⟨Nat.lt_of_lt_of_le hk.1 le, hk.2⟩ }

end Arena.Licensed

/-- A binding says that its fields are destructured if they are, and then whether they are exported. -/
def Binding.Suits (a : Arena) (pattern : Nat) (b : Binding) : Prop :=
  (∃ statement, a.Destructures pattern statement ∧ b.note = "destructured" ∧
    (b.exported = true ↔ a.InExport statement)) ∨
  (∀ statement, ¬ a.Destructures pattern statement) ∧ b.note ≠ "destructured"

namespace Markings

/-! ## The invariant of the walk -/

/-- Nothing is written that does not hold, when `k` nodes have been begun. -/
structure Sound (a : Arena) (k : Nat) (s : Markings) : Prop where
  exported : ∀ i, (s.mark i).exported = true → a.Licensed k i
  link : ∀ d i, a.kind d = "variable_declarator" → (s.mark d).link = some i →
    a.kind i = "identifier" ∧ a.field i = some "name" ∧ a.parent? i = some d
  binding : ∀ pattern b, s.bindings.lookup pattern = some b → b.Suits a pattern
  note : ∀ i, (s.mark i).note = "destructured" → ∃ statement, a.Destructured i statement

/-- What holds is written, of the first `k` nodes. -/
structure Complete (a : Arena) (k : Nat) (s : Markings) : Prop where
  wrapper : ∀ keyword < k, ∀ x, a.parent? keyword = some x → a.kind keyword = "export" →
    a.kind x = "export_statement" → (s.mark x).exported = true
  declared : ∀ i < k, ∀ statement, a.Declares i statement → a.InExport statement →
    (s.mark i).exported = true
  binding : ∀ pattern < k, ∀ statement, a.Destructures pattern statement →
    ∃ b, s.bindings.lookup pattern = some b
  note : ∀ i < k, ∀ statement, a.Destructured i statement → (s.mark i).note = "destructured"

/-- The markings are right when `done` nodes have been visited, and the visits of `begun` nodes begun. -/
structure Right (nodes : List FlatNode) (done begun : Nat) (s : Markings) : Prop where
  size : s.marks.size = nodes.length
  sound : s.Sound (Arena.ofNodes nodes) begun
  complete : s.Complete (Arena.ofNodes nodes) done

theorem right_init (nodes : List FlatNode) : Right nodes 0 0 (init nodes.length) where
  size := size_init nodes.length
  sound := by
    constructor
    · intro i h
      rw [mark_init] at h
      cases h
    · intro d i _ h
      rw [mark_init] at h
      cases h
    · intro pattern b h
      cases h
    · intro i h
      rw [mark_init] at h
      exact absurd h (by decide)
  complete := ⟨nofun, nofun, nofun, nofun⟩

theorem Right.begin {nodes : List FlatNode} {k : Nat} {s : Markings} (r : Right nodes k k s) :
    Right nodes k (k + 1) s :=
  { r with sound := { r.sound with exported := fun i h => (r.sound.exported i h).mono (Nat.le_succ k) } }

namespace Right

variable {nodes : List FlatNode} (shaped : TreeShaped nodes) (g : (Arena.ofNodes nodes).Grammatical)
  {v : Visit} (hv : v ∈ Visit.list nodes) {s t : Markings} (r : Right nodes v.index (v.index + 1) s)

include shaped hv r

theorem present : v.index < s.marks.size :=
  r.size ▸ Visit.index_lt shaped hv

/-! ## Reading -/

/-- **A statement on the trail is found exported if it stands in an export.** -/
theorem isExported_iff {steps statement : Nat}
    (out : ((Arena.ofNodes nodes).lineage v.index)[steps]? = some statement)
    (kind : (Arena.ofNodes nodes).kind statement ∈ declarationKinds) :
    s.isExported v.trail steps = true ↔ (Arena.ofNodes nodes).InExport statement := by
  have here : v.trail.outward? steps = some ((Arena.ofNodes nodes).ancestor statement) := by
    rw [Visit.outward?_eq shaped hv, out]
    rfl
  have around : v.trail.outward? (steps + 1) =
      ((Arena.ofNodes nodes).parent? statement).map (Arena.ofNodes nodes).ancestor := by
    rw [Visit.outward?_eq shaped hv, getElem?_lineage_succ, out]
    rfl
  obtain ⟨le, deeper⟩ := deeper_of_mem_lineage (List.mem_of_getElem? out)
  rw [isExported, here, around]
  constructor
  · intro h
    rcases Bool.or_eq_true_iff.mp h with h | h
    · exact (r.sound.exported statement h).statement kind
    · cases outer : (Arena.ofNodes nodes).parent? statement with
      | none =>
          rw [outer] at h
          cases h
      | some x =>
          rw [outer] at h
          obtain ⟨wrapper, exported⟩ := Bool.and_eq_true_iff.mp h
          have wrapper : (Arena.ofNodes nodes).kind x = "export_statement" := eq_of_beq wrapper
          obtain ⟨keyword, begun, around', kind'⟩ := (r.sound.exported x exported).wrapper wrapper
          refine ⟨x, keyword, outer, wrapper, ?_, around', kind'⟩
          -- the keyword is as deep as the statement, so it is not inside, and it has been visited
          have level : (Arena.ofNodes nodes).depth keyword = (Arena.ofNodes nodes).depth statement := by
            rw [shaped.depth_of_parent? around', shaped.depth_of_parent? outer]
          rcases Nat.lt_trichotomy keyword statement with before | rfl | after
          · exact before
          · rw [kind'] at kind
            exact absurd kind (by decide)
          · have := deeper keyword after (Nat.le_of_lt_succ begun)
            omega
  · rintro ⟨x, keyword, outer, wrapper, before, around', kind'⟩
    have exported := r.complete.wrapper keyword (Nat.lt_of_lt_of_le before le) x around' kind' wrapper
    rw [outer]
    refine Bool.or_eq_true_iff.mpr (Or.inr (Bool.and_eq_true_iff.mpr ⟨?_, exported⟩))
    exact beq_iff_eq.mpr wrapper

include g

theorem suits_of_bindingOf {b : Binding} (kind : (Arena.ofNodes nodes).kind v.index = "object_pattern")
    (h : MarkAction.bindingOf (Arena.ofNodes nodes) v s = .ok (some b)) :
    b.Suits (Arena.ofNodes nodes) v.index := by
  obtain ⟨parent, out, source⟩ := MarkAction.cases_of_bindingOf h
  rw [Visit.outward?_one_eq shaped hv] at out
  obtain ⟨p, around, rfl⟩ := Option.map_eq_some_iff.mp out
  rcases source with ⟨parameter, note⟩ | ⟨host, field, note, exported⟩ |
    ⟨host, field, key, x, outer, out', bound, note, exported⟩
  · refine Or.inr ⟨?_, by rw [note]; decide⟩
    intro statement destructures
    cases destructures <;> grind [Arena.ancestor]
  · obtain ⟨statement, outer, -⟩ := g.declarator p host
    refine Or.inl ⟨statement, .declared kind field around host outer, note, ?_⟩
    rw [exported]
    exact r.isExported_iff shaped hv (statementAt_two around host outer).1
      (g.kind_statement_of_declarator host outer)
  · rw [Visit.outward?_two_eq shaped hv, around] at out'
    obtain ⟨q, around', rfl⟩ := Option.map_eq_some_iff.mp out'
    -- the binding is handed down as it is, so it suits this pattern if it suits the one around
    rcases r.sound.binding q outer bound with ⟨statement, destructures, note', exported'⟩ | ⟨apart, note'⟩
    · refine Or.inl ⟨statement, .nested kind field around host key around' destructures, ?_, ?_⟩
      · exact note.trans note'
      · rw [exported]
        exact exported'
    · refine Or.inr ⟨?_, note ▸ note'⟩
      intro statement destructures
      cases destructures with
      | declared => grind [Arena.ancestor]
      | nested _ _ around₂ _ _ outer₂ inner =>
          obtain rfl := Option.some.inj (around.symm.trans around₂)
          obtain rfl := Option.some.inj (around'.symm.trans outer₂)
          exact apart statement inner

omit g in
theorem exists_bindingOf {statement : Nat} (h : (Arena.ofNodes nodes).Destructures v.index statement) :
    ∃ b, MarkAction.bindingOf (Arena.ofNodes nodes) v s = .ok (some b) := by
  cases h with
  | declared _ field around host _ =>
      rw [MarkAction.bindingOf, Visit.outward?_one_eq shaped hv, around]
      simp [Arena.ancestor, host, field]
  | nested _ field around host key outer inner =>
      have before := Nat.lt_trans (spec_of_parent? outer).1 (spec_of_parent? around).1
      obtain ⟨b, bound⟩ := r.complete.binding _ before statement inner
      obtain ⟨j, held⟩ := Option.isSome_iff_exists.mp key
      rw [MarkAction.bindingOf, Visit.outward?_one_eq shaped hv, Visit.outward?_two_eq shaped hv, around]
      simp [Arena.ancestor, host, field, outer, bound, held]

/-! ## Writing -/

omit r in
theorem kind_ne_of_mem_actions {action : MarkAction} (mem : action ∈ v.actions (Arena.ofNodes nodes)) :
    (Arena.ofNodes nodes).kind v.index ≠ "variable_declarator" := by
  intro kind
  obtain ⟨statement, around, host⟩ := g.declarator v.index kind
  have offered := Visit.mem_offers shaped hv mem around
  have none : ∀ k ∈ ["lexical_declaration", "variable_declaration"],
      MarkRule.offers "variable_declarator" k = [] := by decide
  rw [kind, none _ (by simpa using host)] at offered
  cases offered

/-- **An action exports what it has a licence for.** -/
theorem licensed_of_outcome {action : MarkAction} (mem : action ∈ v.actions (Arena.ofNodes nodes))
    (outcome : action.Outcome (Arena.ofNodes nodes) v s t) {i : Nat} (exported : (t.mark i).exported = true) :
    (Arena.ofNodes nodes).Licensed (v.index + 1) i := by
  have present := r.present shaped hv
  cases outcome with
  | plain plain => exact r.sound.exported i ((plain.exported i).symm.trans exported)
  | declaredName category note steps =>
      obtain ⟨statement, named, out, between⟩ := Visit.place_of_declaredName shaped hv g mem
      have reads := r.isExported_iff shaped hv out (g.kind_of_names named)
      rw [exported_declare present] at exported
      split at exported
      · next own =>
        rw [own]
        exact .of_declares g (Or.inl named) (reads.mp exported)
      · rcases exported with exported | ⟨exported, -, n, hn, rfl⟩
        · exact r.sound.exported i exported
        · -- what is marked on the way is the statement or the declarator in it
          rw [Visit.trail_eq shaped hv, ← List.map_drop, ← List.map_take] at hn
          obtain ⟨j, hj, rfl⟩ := List.mem_map.mp hn
          rcases between j hj with rfl | ⟨host, outer⟩
          · exact .of_statement g (g.kind_of_names named) (reads.mp exported)
          · exact .of_declarator g host outer (reads.mp exported)
  | patternField out bound =>
      obtain ⟨p, field, place⟩ := Visit.place_of_patternField shaped hv mem
      cases place.symm.trans out
      rw [exported_attend, exported_change present] at exported
      split at exported
      · next own =>
        rw [own]
        refine .of_kind field.kind ?_
        rintro statement (named | ⟨p', field', destructures⟩)
        · exact absurd field named.not_fieldOf
        · obtain rfl := field.unique field'
          rcases r.sound.binding _ _ bound with ⟨statement', destructures', -, answer⟩ | ⟨apart, -⟩
          · exact destructures'.unique destructures ▸ answer.mp exported
          · exact absurd destructures (apart statement)
      · exact r.sound.exported i exported
  | functionValue out linked =>
      obtain ⟨d, place, host⟩ := Visit.place_of_functionValue shaped hv mem
      cases place.symm.trans out
      rw [mark_change_eq] at exported
      split at exported
      · next here =>
        obtain ⟨rfl, -⟩ := here
        rcases Bool.or_eq_true_iff.mp exported with exported | exported
        · exact r.sound.exported _ exported
        · -- the name that a declarator is linked with is its own, so both have the same statement
          obtain ⟨kind, field, around'⟩ := r.sound.link d _ host linked
          obtain ⟨statement, outer, -⟩ := g.declarator d host
          have inside := (r.sound.exported d exported).declarator host statement outer
          exact .of_declares g (Or.inl (.ofVariable kind field around' host outer)) inside
      · exact r.sound.exported i exported
  | exportKeyword =>
      obtain ⟨kind, x, around, wrapper⟩ := Visit.place_of_exportKeyword shaped hv mem
      rcases exported_exportAll.mp exported with exported | ⟨-, n, hn, rfl⟩
      · exact r.sound.exported i exported
      · rw [Visit.trail_eq shaped hv, ← List.map_take, lineage_of_parent? around, lineage_eq x] at hn
        obtain ⟨j, hj, rfl⟩ := List.mem_map.mp hn
        rcases List.mem_pair.mp hj with rfl | rfl
        · refine .of_kind (kind ▸ by decide) fun statement h => absurd h ?_
          exact not_declares around (wrapper ▸ by decide)
        · exact .of_wrapper g wrapper (Nat.lt_succ_self _) around kind
  | exportName note =>
      obtain ⟨kind, p, around, host⟩ := Visit.place_of_exportName shaped hv mem
      rw [exported_attend, exported_change present] at exported
      split at exported
      · next own =>
        rw [own]
        have other : ∀ k ∈ ["export_specifier", "export_statement"], k ∉ nameHosts ++ fieldHosts := by decide
        exact .of_kind (kind ▸ by decide) fun statement h => absurd h (not_declares around (other _ host))
      · exact r.sound.exported i exported
  | objectPattern => exact r.sound.exported i exported

theorem link_of_outcome {action : MarkAction} (mem : action ∈ v.actions (Arena.ofNodes nodes))
    (outcome : action.Outcome (Arena.ofNodes nodes) v s t) {d i : Nat}
    (kind : (Arena.ofNodes nodes).kind d = "variable_declarator") (linked : (t.mark d).link = some i) :
    (Arena.ofNodes nodes).kind i = "identifier" ∧ (Arena.ofNodes nodes).field i = some "name" ∧
      (Arena.ofNodes nodes).parent? i = some d := by
  cases outcome with
  | plain plain =>
      have other : d ≠ v.index := fun h => kind_ne_of_mem_actions shaped g hv mem (h ▸ kind)
      exact r.sound.link d i kind ((plain.link d other).symm.trans linked)
  | declaredName category note steps =>
      obtain ⟨statement, named, -⟩ := Visit.place_of_declaredName shaped hv g mem
      rcases link_declare linked with linked | ⟨rfl, n, out, rfl⟩
      · exact r.sound.link d i kind linked
      · rw [Visit.outward?_one_eq shaped hv] at out
        obtain ⟨d, around, rfl⟩ := Option.map_eq_some_iff.mp out
        have host : (Arena.ofNodes nodes).kind d = "variable_declarator" := kind
        cases named <;> grind [functionKinds, classKinds, Arena.ancestor]
  | patternField =>
      rw [link_attend, part_exported Mark.link fun _ _ => rfl] at linked
      exact r.sound.link d i kind linked
  | functionValue =>
      exact r.sound.link d i kind (of_change (p := fun m => m.link = some i) linked fun _ h => h)
  | exportKeyword =>
      rw [part_exportAll Mark.link fun _ => rfl] at linked
      exact r.sound.link d i kind linked
  | exportName note =>
      rw [link_attend, part_exported Mark.link fun _ _ => rfl] at linked
      exact r.sound.link d i kind linked
  | objectPattern => exact r.sound.link d i kind linked

theorem suits_of_outcome {action : MarkAction} (mem : action ∈ v.actions (Arena.ofNodes nodes))
    (outcome : action.Outcome (Arena.ofNodes nodes) v s t) {pattern : Nat} {b : Binding}
    (bound : t.bindings.lookup pattern = some b) : b.Suits (Arena.ofNodes nodes) pattern := by
  cases outcome with
  | plain plain => exact r.sound.binding pattern b (plain.bindings ▸ bound)
  | declaredName category note steps =>
      rw [bindings_declare] at bound
      exact r.sound.binding pattern b bound
  | patternField | functionValue | exportName => exact r.sound.binding pattern b bound
  | exportKeyword =>
      rw [bindings_exportAll] at bound
      exact r.sound.binding pattern b bound
  | objectPattern made =>
      have kind := Visit.place_of_objectPattern hv mem
      rw [List.lookup_cons] at bound
      split at bound
      · next own =>
        cases bound
        rw [eq_of_beq own]
        exact r.suits_of_bindingOf shaped g hv kind made
      · exact r.sound.binding pattern b bound

omit g in
theorem destructured_of_outcome {action : MarkAction} (mem : action ∈ v.actions (Arena.ofNodes nodes))
    (outcome : action.Outcome (Arena.ofNodes nodes) v s t) {i : Nat}
    (noted : (t.mark i).note = "destructured") :
    ∃ statement, (Arena.ofNodes nodes).Destructured i statement := by
  have present := r.present shaped hv
  have own_note := MarkAction.note?_of_mem_actions mem
  cases outcome with
  | plain plain =>
      by_cases own : i = v.index
      · subst own
        exact r.sound.note _ (plain.own noted)
      · exact r.sound.note i ((plain.note i own).symm.trans noted)
  | declaredName category note steps =>
      rw [note_declare present] at noted
      split at noted
      · exact absurd (congrArg some noted) own_note
      · exact r.sound.note i noted
  | patternField out bound =>
      obtain ⟨p, field, place⟩ := Visit.place_of_patternField shaped hv mem
      cases place.symm.trans out
      rw [note_attend (by rwa [size_change]), part_exported Mark.note fun _ _ => rfl] at noted
      split at noted
      · next own =>
        rcases r.sound.binding _ _ bound with ⟨statement, destructures, -, -⟩ | ⟨-, other⟩
        · exact ⟨statement, p, own ▸ field, destructures⟩
        · exact absurd noted other
      · exact r.sound.note i noted
  | functionValue =>
      rw [mark_change_eq] at noted
      split at noted
      · exact absurd (congrArg some noted) own_note
      · exact r.sound.note i noted
  | exportKeyword =>
      rw [part_exportAll Mark.note fun _ => rfl] at noted
      exact r.sound.note i noted
  | exportName note =>
      rw [note_attend (by rwa [size_change]), part_exported Mark.note fun _ _ => rfl] at noted
      split at noted
      · exact absurd (congrArg some noted) own_note
      · exact r.sound.note i noted
  | objectPattern => exact r.sound.note i noted

theorem note_of_outcome {action : MarkAction} (mem : action ∈ v.actions (Arena.ofNodes nodes))
    (outcome : action.Outcome (Arena.ofNodes nodes) v s t) {i statement : Nat} (other : i ≠ v.index)
    (field : (Arena.ofNodes nodes).Destructured i statement) (noted : (s.mark i).note = "destructured") :
    (t.mark i).note = "destructured" := by
  have present := r.present shaped hv
  cases outcome with
  | plain plain => exact (plain.note i other).trans noted
  | declaredName category note steps => rwa [note_declare present, if_neg other]
  | patternField =>
      rwa [note_attend (by rwa [size_change]), if_neg other, part_exported Mark.note fun _ _ => rfl]
  | functionValue out linked =>
      obtain ⟨d, place, host⟩ := Visit.place_of_functionValue shaped hv mem
      cases place.symm.trans out
      obtain ⟨kind, held, around'⟩ := r.sound.link d _ host linked
      obtain ⟨statement', outer, -⟩ := g.declarator d host
      -- the renamed node is a name, and no name is a field
      have named : (Arena.ofNodes nodes).Names _ statement' := .ofVariable kind held around' host outer
      obtain ⟨p, field, -⟩ := field
      rwa [mark_change_of_ne]
      rintro rfl
      exact named.not_fieldOf field
  | exportKeyword => rwa [part_exportAll Mark.note fun _ => rfl]
  | exportName note =>
      rwa [note_attend (by rwa [size_change]), if_neg other, part_exported Mark.note fun _ _ => rfl]
  | objectPattern => exact noted

/-- **An action keeps the markings right.** -/
theorem outcome {action : MarkAction} (mem : action ∈ v.actions (Arena.ofNodes nodes))
    (outcome : action.Outcome (Arena.ofNodes nodes) v s t) : Right nodes v.index (v.index + 1) t where
  size := outcome.size.trans r.size
  sound := {
    exported := fun _ h => r.licensed_of_outcome shaped g hv mem outcome h
    link := fun _ _ kind h => r.link_of_outcome shaped g hv mem outcome kind h
    binding := fun _ _ h => r.suits_of_outcome shaped g hv mem outcome h
    note := fun _ h => r.destructured_of_outcome shaped hv mem outcome h }
  complete := by
    have present := r.present shaped hv
    have kept {j : Nat} (before : j < v.index) :
        (s.mark j).exported = true → (t.mark j).exported = true :=
      outcome.exported_mono present fun own => absurd own (Nat.ne_of_lt before)
    constructor
    · intro keyword before x around kind wrapper
      refine kept (Nat.lt_trans (spec_of_parent? around).1 before) ?_
      exact r.complete.wrapper keyword before x around kind wrapper
    · intro i before statement declared inside
      exact kept before (r.complete.declared i before statement declared inside)
    · intro pattern before statement destructures
      exact outcome.exists_lookup (r.complete.binding pattern before statement destructures)
    · intro i before statement field
      refine r.note_of_outcome shaped g hv mem outcome (Nat.ne_of_lt before) field ?_
      exact r.complete.note i before statement field

end Right

end Markings

end SourceSurvey
