import SourceSurvey.Proofs.Marking.Failure
import SourceSurvey.Proofs.Marking.Locality
import SourceSurvey.Proofs.Marking.Places
import SourceSurvey.Proofs.Marking.Steps
import SourceSurvey.Proofs.Marking.Strict

/-!
# What a walk can miss

The strict walk ends as the walk does (`Strict.ofNodes_eq`): on each visit every action finds what it asks for
(`Strict.perform_eq`), because links only ever lead to nodes of the list (`Markings.Linked`) and the rules ask
for the nodes around before an action does. So whatever the depths, kinds and fields are, the one lookup that
can miss is the one around a pair. It misses exactly where an object pattern is the value of a pair and nothing
else is open (`Markings.fails_iff`).
-/

namespace SourceSurvey

/-! ## Links lead to nodes of the list -/

namespace Markings

/-- There are `n` marks, and every link leads to one of them. -/
structure Linked (n : Nat) (s : Markings) : Prop where
  size : s.marks.size = n
  links : ∀ i j, (s.mark i).link = some j → j < n

namespace Linked

variable {n i : Nat} {s t : Markings} {f : Mark → Mark}

theorem init (n : Nat) : (Markings.init n).Linked n where
  size := size_init n
  links := by
    intro i j linked
    rw [mark_init] at linked
    cases linked

theorem change (h : s.Linked n) (hf : ∀ m j, (f m).link = some j → m.link = some j ∨ j < n) :
    (s.change i f).Linked n where
  size := size_change.trans h.size
  links := by
    intro k j linked
    rw [mark_change_eq] at linked
    split at linked
    · rcases hf _ _ linked with linked | inside
      · exact h.links k j linked
      · exact inside
    · exact h.links k j linked

theorem link (h : s.Linked n) {j : Nat} (inside : j < n) :
    (s.change i fun m => { m with link := some j }).Linked n :=
  h.change fun _ _ linked => Or.inr (Option.some.inj linked ▸ inside)

theorem attend (h : s.Linked n) (category : Category) (note label : String) :
    (s.attend i category note label).Linked n :=
  have changed := h.change (i := i) (f := fun m => { m with category := some category, note, label })
    fun _ _ linked => Or.inl linked
  ⟨changed.size, changed.links⟩

variable {a : Arena} {resolve : Option (String → Option String)} {v : Visit} {action : MarkAction}

theorem write (h : s.Linked n) (present : v.index < n) (other : action.linksOwn = false)
    (written : action.Write a resolve v s t) : t.Linked n := by
  cases written with
  | exported | statement | rename => exact h.change fun _ _ linked => Or.inl linked
  | link _ own =>
      rw [own] at other
      cases other
  | around => exact h.link present
  | path =>
      apply attend
      unfold MarkAction.writePath
      split
      · exact h
      · exact h.change fun _ _ linked => Or.inl linked
  | attend => exact h.attend _ _ _
  | bind | component => exact ⟨h.size, h.links⟩

/-- **No action links a node with one that is not there.** -/
theorem perform {nodes : List FlatNode} (h : s.Linked nodes.length) (hv : v ∈ Visit.list nodes)
    (done : action.perform (Arena.ofNodes nodes) resolve v s = .ok t) : t.Linked nodes.length := by
  have present := (Visit.exists_outer hv).1
  cases action with
  | importStatement =>
      cases done
      apply attend
      split
      · next j source => exact h.link (Strict.lt_length_of_sourceOf? source)
      · exact h
  | importName note =>
      cases done
      apply attend
      split
      · next statement found => exact h.link (Strict.index_lt_of_mem hv (List.mem_of_find?_eq_some found))
      · exact h
  | returnedComponent note =>
      simp only [MarkAction.perform] at done
      split at done
      · cases done
        exact h.attend _ _ _
      · next name host =>
        cases done
        obtain ⟨i, linked⟩ := exists_link_of_hostName? host
        have tagged := h.attend (i := v.index) .component note
          (MarkAction.tagLabel (Arena.ofNodes nodes) v.index note)
        have named := tagged.link (i := v.index) (tagged.links i name linked)
        exact ⟨named.size, named.links⟩
  | _ => exact MarkAction.keeps_perform (fun _ _ hs written => hs.write present rfl written) h done

end Linked

end Markings

/-! ## The strict walk ends as the walk does -/

namespace Strict

variable {nodes : List FlatNode} {resolve : Option (String → Option String)} {v : Visit} {s : Markings}
  {action : MarkAction}

theorem entry_marks (h : s.Linked nodes.length) {i : Nat} (present : i < nodes.length) :
    entry s.marks i = pure (s.mark i) :=
  entry_eq (h.size ▸ present) _

/-- A declared name finds the declaration around it and, if it is exported, all that is exported with it. -/
theorem perform_declaredName {parent : Ancestor} (hv : v ∈ Visit.list nodes)
    (out : v.trail.outward? 1 = some parent) (category : Category) (note : String) (steps : Nat) :
    perform (Arena.ofNodes nodes) resolve v s (.declaredName category note steps) =
      pure (s.declare v category note (Text.compact ((Arena.ofNodes nodes).text v.index)) steps) := by
  have linked : s.linkAround v = s.change parent.index fun m => { m with link := some v.index } := by
    rw [Markings.linkAround, out]
  have reads : (s.linkAround v).isExported v.trail steps = s.isExported v.trail steps :=
    Markings.isExported_congr (fun _ => Markings.part_linkAround Mark.exported fun _ _ => rfl) _ _
  simp only [perform, entry_nodes (Visit.exists_outer hv).1, around_eq out, pure_bind, ← linked, reads,
    Markings.declare, text_found]
  cases exported : s.isExported v.trail steps with
  | false => rfl
  | true =>
      obtain ⟨statement, there⟩ : ∃ x, v.trail.outward? steps = some x := by
        unfold Markings.isExported at exported
        split at exported
        · cases exported
        · next x there => exact ⟨x, there⟩
      simp only [reduceIte, mapM_around there, pure_bind]

/-- **An action misses what it misses on the walk, and nothing else.** -/
theorem perform_eq (hv : v ∈ Visit.list nodes) (h : s.Linked nodes.length)
    (mem : action ∈ v.actions (Arena.ofNodes nodes)) : perform (Arena.ofNodes nodes) resolve v s action =
      (action.perform (Arena.ofNodes nodes) resolve v s).mapError Missing.ofPattern := by
  have present := (Visit.exists_outer hv).1
  -- the pattern has asked for the node around before the action does
  have inside : action.usesAround = true → ∃ x, v.trail.outward? 1 = some x := by
    intro around
    obtain ⟨group, hgroup, rule, hrule, pattern, hpattern, fits⟩ := Visit.exists_of_mem_actions mem
    exact exists_outward?_one (Visit.inStep_list hv)
      ((MarkRule.spares_root group hgroup rule hrule _ hpattern).2.2 (Or.inl around)) fits
  cases action with
  | importStatement =>
      rw [perform, importSource_eq present, pure_bind, sourceOf?, MarkAction.perform]
      cases (Arena.ofNodes nodes).childByField? v.index "source" with
      | some j => rfl
      | none =>
          dsimp only
          cases ((Arena.ofNodes nodes).childOfKind? v.index "import_require_clause").bind fun c =>
              (Arena.ofNodes nodes).childByField? c "source" with
          | none => rfl
          | some j => rfl
  | declaredName category note steps =>
      obtain ⟨parent, out⟩ := inside rfl
      rw [perform_declaredName hv out, MarkAction.perform_declaredName]
      rfl
  | call field note =>
      simp only [perform, MarkAction.perform, childByField_eq present, pure_bind]
      cases callee : (Arena.ofNodes nodes).childByField? v.index field with
      | none => rfl
      | some j =>
          have listed := lt_length_of_mem_children (List.mem_of_find?_eq_some callee)
          simp only [Option.map_some, index_found, chainText_eq listed, pure_bind]
          rfl
  | component note =>
      rw [perform, tagLabel_eq present, pure_bind]
      rfl
  | returnedComponent note =>
      rw [perform, tagLabel_eq present, pure_bind, MarkAction.perform]
      generalize s.attend v.index .component note (MarkAction.tagLabel (Arena.ofNodes nodes) v.index note) = tagged
      dsimp only
      cases tagged.hostName? v.trail.nodes with
      | none => rfl
      | some name => rfl
  | propertyChain =>
      rw [perform, chainText_eq present, pure_bind]
      rfl
  | objectPattern =>
      rw [perform, bindingOf_eq hv, MarkAction.perform]
      cases MarkAction.bindingOf (Arena.ofNodes nodes) v s with
      | error e => rfl
      | ok b =>
          cases b with
          | none => rfl
          | some b => rfl
  | patternField steps =>
      obtain ⟨parent, out⟩ := inside rfl
      rw [perform, MarkAction.perform, fieldName_eq hv out]
      cases (v.trail.outward? steps).bind fun pattern => s.bindings.lookup pattern.index with
      | none => rfl
      | some binding => rfl
  | functionValue note =>
      obtain ⟨declarator, out⟩ := inside rfl
      simp only [perform, MarkAction.perform, around_eq out, out, pure_bind,
        entry_marks h (index_lt_of_outward? hv out)]
      cases linked : (s.mark declarator.index).link with
      | none => rfl
      | some name =>
          simp only [entry_marks h (h.links _ name linked), pure_bind]
          rfl
  | _ => simp only [perform, entry_nodes present, pure_bind]

theorem foldlM_mapError {ε δ σ β : Type} {e : ε → δ} {f : σ → β → Except ε σ} {g : σ → β → Except δ σ}
    {p : σ → Prop} {l : List β} (keeps : ∀ x ∈ l, ∀ s t, p s → f s x = .ok t → p t)
    (step : ∀ x ∈ l, ∀ s, p s → g s x = (f s x).mapError e) {s : σ} (hs : p s) :
    l.foldlM g s = (l.foldlM f s).mapError e := by
  induction l generalizing s with
  | nil => rfl
  | cons x rest ih =>
      rw [List.foldlM_cons, List.foldlM_cons, step x List.mem_cons_self s hs]
      cases first : f s x with
      | error _ => rfl
      | ok t =>
          refine ih (fun y hy => keeps y (List.mem_cons_of_mem x hy)) ?_ (keeps x List.mem_cons_self s t hs first)
          exact fun y hy => step y (List.mem_cons_of_mem x hy)

theorem forM_entry (h : s.Linked nodes.length) {l : List Ancestor} (present : ∀ x ∈ l, x.index < nodes.length) :
    (l.forM fun x => discard (entry s.marks x.index)) = pure ⟨⟩ := by
  induction l with
  | nil => rfl
  | cons x rest ih =>
      have later := ih fun y hy => present y (List.mem_cons_of_mem x hy)
      rw [List.forM_eq_forM] at later ⊢
      rw [List.forM_cons, entry_marks h (present x List.mem_cons_self)]
      exact later

theorem actionOf?_eq (hv : v ∈ Visit.list nodes) {group : List MarkRule} (hgroup : group ∈ MarkRule.groups) :
    group.findSomeM? (chosen (Arena.ofNodes nodes) v) = pure (v.actionOf? (Arena.ofNodes nodes) group) := by
  have rules : ∀ l : List MarkRule, (∀ rule ∈ l, rule ∈ group) →
      l.findSomeM? (chosen (Arena.ofNodes nodes) v) = pure (v.actionOf? (Arena.ofNodes nodes) l) := by
    intro l within
    induction l with
    | nil => rfl
    | cons rule rest ih =>
        have later := ih fun r hr => within r (List.mem_cons_of_mem rule hr)
        rw [List.findSomeM?_cons, chosen_eq hv hgroup (within rule List.mem_cons_self), pure_bind, Visit.actionOf?,
          List.findSome?_cons]
        cases rule.choose (Guard.holds (Arena.ofNodes nodes) v) v.trail.inward with
        | none => exact later
        | some action => rfl
  exact rules group fun _ hr => hr

theorem visit_eq (hv : v ∈ Visit.list nodes) (h : s.Linked nodes.length) :
    visit (Arena.ofNodes nodes) resolve s v =
      (Markings.visit (Arena.ofNodes nodes) resolve s v).mapError Missing.ofPattern := by
  rw [visit, forM_entry h fun x hx => index_lt_of_mem hv hx, pure_bind, Markings.visit, Visit.actions,
    List.foldlM_filterMap]
  refine foldlM_mapError (p := Markings.Linked nodes.length) ?_ ?_ h
  · intro group _ s t h done
    cases chosen : v.actionOf? (Arena.ofNodes nodes) group with
    | none =>
        rw [chosen] at done
        cases done
        exact h
    | some action =>
        rw [chosen] at done
        exact h.perform hv done
  · intro group hgroup s h
    rw [actionOf?_eq hv hgroup, pure_bind]
    cases chosen : v.actionOf? (Arena.ofNodes nodes) group with
    | none => rfl
    | some action => exact perform_eq hv h (List.mem_filterMap.mpr ⟨group, hgroup, chosen⟩)

/-- **The strict walk ends as the walk does.** -/
theorem ofNodes_eq (nodes : List FlatNode) (resolve : Option (String → Option String)) :
    ofNodes nodes resolve = (Markings.ofNodes nodes resolve).mapError Missing.ofPattern := by
  refine foldlM_mapError (p := Markings.Linked nodes.length) ?_ (fun v hv s h => visit_eq hv h) (.init _)
  intro v hv s t h visited
  exact keeps_foldlM (fun action _ _ _ hs done => hs.perform hv done) h visited

end Strict

/-! ## Where the walk fails -/

theorem exists_error_foldlM {ε σ β : Type} {f : σ → β → Except ε σ} {l : List β} {x : β} (mem : x ∈ l)
    (fails : ∀ s, ∃ e, f s x = .error e) (s : σ) : ∃ e, l.foldlM f s = .error e := by
  induction l generalizing s with
  | nil => cases mem
  | cons y rest ih =>
      rw [List.foldlM_cons]
      cases first : f s y with
      | error e => exact ⟨e, rfl⟩
      | ok t =>
          rcases List.mem_cons.mp mem with rfl | mem
          · obtain ⟨e, failed⟩ := fails s
            rw [failed] at first
            cases first
          · exact ih mem t

theorem exists_step_of_error {ε σ β : Type} {f : σ → β → Except ε σ} {l : List β} {s : σ} {e : ε}
    (failed : l.foldlM f s = .error e) : ∃ x ∈ l, ∃ s e, f s x = .error e := by
  by_contra none_fails
  obtain ⟨t, ended⟩ := exists_foldlM (fun x hx s e failed => none_fails ⟨x, hx, s, e, failed⟩) s
  rw [ended] at failed
  cases failed

namespace Markings

variable {nodes : List FlatNode} {resolve : Option (String → Option String)}

/-- **The walk fails exactly where an object pattern and the pair that it is the value of are all that is
open.** -/
theorem fails_iff : (∃ e, ofNodes nodes resolve = .error e) ↔ ∃ v ∈ Visit.list nodes, ∃ pair,
    v.trail.nodes = [⟨⟨some "value", "object_pattern"⟩, v.index⟩, pair] ∧ pair.kind = "pair_pattern" := by
  constructor
  · rintro ⟨e, failed⟩
    obtain ⟨v, hv, s, e, failed⟩ := exists_step_of_error failed
    obtain ⟨action, mem, s, e, failed⟩ := exists_step_of_error failed
    obtain ⟨rfl, ⟨field, x, pair, nodes', kind⟩, -⟩ := MarkAction.perform_eq_error_iff.mp failed
    obtain ⟨-, outer, trail, -⟩ := Visit.exists_outer hv
    refine ⟨v, hv, pair, ?_, kind⟩
    -- the innermost node of the trail is the visited one
    rw [nodes', List.cons.injEq] at trail
    rw [nodes', trail.1, Arena.ancestor, field, Visit.place_of_objectPattern hv mem]
  · rintro ⟨v, hv, pair, open_nodes, kind⟩
    obtain ⟨-, outer, trail, -⟩ := Visit.exists_outer hv
    rw [open_nodes, List.cons.injEq] at trail
    have field : (Arena.ofNodes nodes).field v.index = some "value" := congrArg (·.field) trail.1.symm
    have object : (Arena.ofNodes nodes).kind v.index = "object_pattern" := congrArg (·.kind) trail.1.symm
    refine exists_error_foldlM hv (fun s => ?_) _
    refine exists_error_foldlM (Visit.objectPattern_mem_actions hv object) (fun s => ?_) s
    exact ⟨⟨v.index⟩, MarkAction.perform_eq_error_iff.mpr ⟨rfl, ⟨field, _, pair, open_nodes, kind⟩, rfl⟩⟩

/-- **The one thing that a walk can miss.** For nodes of any depths, kinds and fields, a walk on which every
lookup has to find something ends as the walk does, but for the one lookup around a pair; that lookup misses
exactly where an object pattern is the value of a pair and nothing else is open. So the walk comes to its end
below every first node that is no pair, as long as nothing after it has depth zero. -/
theorem ofNodes_misses (nodes : List FlatNode) (resolve : Option (String → Option String)) :
    Strict.ofNodes nodes resolve = (ofNodes nodes resolve).mapError Missing.ofPattern ∧
      ((∃ e, ofNodes nodes resolve = .error e) ↔ ∃ v ∈ Visit.list nodes, ∃ pair,
        v.trail.nodes = [⟨⟨some "value", "object_pattern"⟩, v.index⟩, pair] ∧ pair.kind = "pair_pattern") ∧
      ∀ root rest, nodes = root :: rest → root.kind ≠ "pair_pattern" → (∀ n ∈ rest, 0 < n.depth) →
        ∃ s, ofNodes nodes resolve = .ok s := by
  refine ⟨Strict.ofNodes_eq nodes resolve, fails_iff, ?_⟩
  rintro root rest rfl other deep
  exact exists_ofNodes other deep resolve

/-- A pair that is deep and an object pattern that is deeper, as they stand in no tree. -/
def loosePair : List FlatNode :=
  [⟨5, "pair_pattern", "a: \x7b\x7d", 1, 1, 0, 5, false, none⟩,
   ⟨9, "object_pattern", "\x7b\x7d", 1, 1, 3, 5, true, some "value"⟩]

/-- The loose pair stops the walk, and inside of another pattern it does not. -/
theorem ofNodes_misses_loosePair :
    (∃ e, ofNodes loosePair none = .error e) ∧
      ∃ s, ofNodes (⟨0, "object_pattern", "\x7ba: \x7b\x7d\x7d", 1, 1, 0, 7, true, none⟩ :: loosePair) none =
        .ok s := by
  constructor
  · have second : (Visit.list loosePair)[1]? = some _ := rfl
    exact (ofNodes_misses loosePair none).2.1.mpr ⟨_, List.mem_of_getElem? second, _, rfl, rfl⟩
  · exact (ofNodes_misses _ none).2.2 _ _ rfl (by decide) (by decide)

end Markings

end SourceSurvey
