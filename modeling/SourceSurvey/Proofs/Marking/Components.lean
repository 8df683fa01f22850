import SourceSurvey.Proofs.Marking.Ends
import SourceSurvey.Proofs.Marking.Tags
import SourceSurvey.Proofs.Scan.Reach

/-!
# Components and the functions that return them

A tag that is returned is linked with the name of the function around it, and the names so linked are the
components of the source. The walk finds the name by going outwards from the tag to the first declaration
(`Arena.Hosts`), and what it has listed at any time are the links of the tags so far, each once
(`Markings.Collected`).
-/

namespace SourceSurvey

/-! ## The function around a node -/

/-- Node `i` stands in the declaration `host`, and in no other function inside of that, unless the function is
the value of the declarator. -/
structure Arena.Hosts (a : Arena) (host i : Nat) : Prop where
  kind : a.kind host ∈ Markings.namedHosts
  line : ∃ between, a.lineage i = i :: (between ++ a.lineage host) ∧ ∀ m ∈ between,
    a.kind m ∉ Markings.namedHosts ∧ (a.kind m ∈ Markings.namelessHosts →
      a.kind host = "variable_declarator" ∧ a.parent? m = some host)

namespace Markings

open Arena MarkAction

variable {nodes : List FlatNode} {s t : Markings} {v : Visit} {i j : Nat}

/-- **The walk outwards ends at the first declaration.** -/
theorem exists_host (h : s.hostName? (((Arena.ofNodes nodes).lineage i).map (Arena.ofNodes nodes).ancestor) =
    some j) : ∃ host between, (Arena.ofNodes nodes).kind host ∈ namedHosts ∧ (s.mark host).link = some j ∧
      (Arena.ofNodes nodes).lineage i = between ++ (Arena.ofNodes nodes).lineage host ∧ ∀ m ∈ between,
        (Arena.ofNodes nodes).kind m ∉ namedHosts ∧ ((Arena.ofNodes nodes).kind m ∈ namelessHosts →
          (Arena.ofNodes nodes).kind host = "variable_declarator" ∧
            (Arena.ofNodes nodes).parent? m = some host) := by
  induction i using Nat.strong_induction_on with
  | _ i ih =>
      rw [lineage_eq, List.map_cons, hostName?.eq_def] at h
      dsimp only at h
      by_cases named : (Arena.ofNodes nodes).kind i ∈ namedHosts
      · rw [if_pos (by simpa [ancestor] using named)] at h
        exact ⟨i, [], named, h, rfl, by simp⟩
      · rw [if_neg (by simpa [ancestor] using named)] at h
        cases around : (Arena.ofNodes nodes).parent? i with
        | none =>
            rw [around] at h
            simp [hostName?] at h
        | some p =>
            rw [around, Option.map_some, Option.getD_some] at h
            by_cases nameless : (Arena.ofNodes nodes).kind i ∈ namelessHosts
            · rw [if_pos (by simpa [ancestor] using nameless), lineage_eq p, List.map_cons] at h
              obtain ⟨declarator, linked⟩ := Option.ite_none_right_eq_some.mp h
              have kind : (Arena.ofNodes nodes).kind p = "variable_declarator" := by
                simpa [ancestor] using declarator
              refine ⟨p, [i], by rw [kind]; decide, linked, lineage_of_parent? around, ?_⟩
              intro m hm
              rw [List.mem_singleton.mp hm]
              exact ⟨named, fun _ => ⟨kind, around⟩⟩
            · rw [if_neg (by simpa [ancestor] using nameless)] at h
              obtain ⟨host, between, kind, linked, line, all⟩ := ih p (spec_of_parent? around).1 h
              refine ⟨host, i :: between, kind, linked, ?_, ?_⟩
              · rw [lineage_of_parent? around, line, List.cons_append]
              · exact List.forall_mem_cons.mpr ⟨⟨named, fun held => absurd held nameless⟩, all⟩

end Markings

/-! ## Rules for components -/

namespace Markings

variable {s : Markings} {v : Visit} {i : Nat}

@[simp] theorem components_change {f : Mark → Mark} : (s.change i f).components = s.components := rfl

@[simp] theorem components_attend {category : Category} {note label : String} :
    (s.attend i category note label).components = s.components := rfl

@[simp] theorem components_exportAll {l : List Ancestor} : (s.exportAll l).components = s.components := by
  induction l generalizing s with
  | nil => rfl
  | cons n l ih => exact ih

@[simp] theorem components_linkAround : (s.linkAround v).components = s.components := by
  unfold linkAround
  split <;> rfl

theorem components_resolved {resolve : Option (String → Option String)} {specifier : String} :
    (s.resolved resolve v specifier).components = s.components := by
  unfold resolved
  split
  · rfl
  · dsimp only
    split <;> rfl

end Markings

namespace MarkAction

open Markings

/-- The action links the visited node with the function around it. -/
def isReturned : MarkAction → Bool
  | returnedComponent _ => true
  | _ => false

def isComponent : MarkAction → Bool
  | component _ | returnedComponent _ => true
  | _ => false

/-- The category of the visited node can become that of components. -/
def mayCompose : MarkAction → Bool
  | component _ | returnedComponent _ | patternField _ => true
  | declaredName category _ _ | punctuation category _ => category == .component
  | _ => false

variable {a : Arena} {resolve : Option (String → Option String)} {v : Visit} {s t : Markings}
  {action : MarkAction} {i : Nat}

theorem category_ne_component (present : v.index < s.marks.size) (plain : action.mayCompose = false)
    (h : action.perform a resolve v s = .ok t) (other : (s.mark i).category ≠ some .component) :
    (t.mark i).category ≠ some .component := by
  rcases category_of_perform present h i with same | ⟨-, given⟩
  · rwa [same]
  · rw [given]
    cases action with
    | component | returnedComponent | patternField => cases plain
    | declaredName | punctuation => simpa [mayCompose, category?] using plain
    | _ => simp [category?]

theorem components_of_perform (plain : action.isReturned = false)
    (h : action.perform a resolve v s = .ok t) : t.components = s.components := by
  cases effect_of_perform h with
  | idle | tag | linkTag | patternField | exportName | functionValue | objectPattern => rfl
  | importPath => rw [components_attend, components_resolved]
  | declaredName => simp [declare]
  | returned => cases plain
  | exportKeyword => exact components_exportAll

end MarkAction

namespace Visit

open Arena MarkAction MarkRule

variable {nodes : List FlatNode} {v : Visit} (shaped : TreeShaped nodes) (hv : v ∈ list nodes)
  {action : MarkAction} {note : String}

include shaped hv

theorem propertyChain_not_mem (mem : returnedComponent note ∈ v.actions (ofNodes nodes)) :
    propertyChain ∉ v.actions (ofNodes nodes) := by
  have returned : ∀ y ∈ table, y.2.isReturned = true →
      Pattern.clash y.1 [Step.kind "member_expression"] = true ∨
        ∃ k ∈ tagParents, [MarkRule.tag, Step.kind k] <+: y.1 := by decide
  have accesses : ∀ y ∈ table, y.2 = propertyChain → y.1 = [Step.kind "member_expression"] := by decide
  intro chain
  obtain ⟨steps, entry, fits⟩ := exists_steps mem
  rcases returned _ entry rfl with clash | ⟨k, tag, outer, rfl⟩
  · obtain ⟨steps', entry', fits'⟩ := exists_steps chain
    obtain rfl : steps' = _ := accesses _ entry' rfl
    rw [Pattern.matchesInward_of_clash clash fits] at fits'
    cases fits'
  · have firm : ∀ s ∈ [MarkRule.tag, Step.kind k], s.isOptional = false := by
      simp [MarkRule.tag, Step.oneOf, Step.kind]
    have front := (matchesInward_iff shaped hv ⟨by simp, firm⟩).mp (Pattern.matchesInward_front firm fits)
    obtain ⟨-, p, around, kind⟩ := front
    rw [Fits, Step.accepts_kind] at kind
    exact not_mem_tagParents shaped hv chain around (kind ▸ tag)

/-- **Nothing else is done on a returned tag.** -/
theorem actions_of_returned (mem : returnedComponent note ∈ v.actions (ofNodes nodes)) :
    v.actions (ofNodes nodes) = [returnedComponent note] := by
  have rules : ∀ y ∈ table, y.2.isReturned = true → ∀ y' ∈ table,
      (!y'.2.isComponent && y'.2 != propertyChain) = true → Pattern.clash y.1 y'.1 = true := by decide +kernel
  have others : ∀ g ∈ groups.take 4 ++ groups.drop 5, ∀ rule ∈ g, ∀ y ∈ rule.alternatives,
      y.2.isComponent = false := by decide
  refine actions_eq_singleton (n := 4) rfl ?_ mem
  intro g hg rule hrule y hy performed
  have clashed := not_both (q := fun x => !x.isComponent && x != propertyChain) rules mem rfl performed
  rw [others g hg rule hrule y hy] at clashed
  have chain : y.2 = propertyChain := by simpa using clashed
  exact propertyChain_not_mem shaped hv mem (chain ▸ performed)

end Visit

/-! ## One visit -/

namespace Markings

open Arena MarkAction

def componentLink? (s : Markings) (i : Nat) : Option Nat :=
  if (s.mark i).category = some .component then (s.mark i).link else none

theorem componentLink?_eq_some {s : Markings} {i j : Nat} : s.componentLink? i = some j ↔
    (s.mark i).category = some .component ∧ (s.mark i).link = some j := by
  simp [componentLink?]

section Visit

variable {nodes : List FlatNode} (shaped : TreeShaped nodes) {resolve : Option (String → Option String)}
  {s t : Markings} {v : Visit} (hv : v ∈ Visit.list nodes)

include shaped hv

theorem link_of_visit (plain : ∀ action ∈ v.actions (Arena.ofNodes nodes), action.linksOwn = false)
    (visited : visit (Arena.ofNodes nodes) resolve s v = .ok t) :
    (t.mark v.index).link = (s.mark v.index).link := by
  refine keeps_foldlM (p := fun u => (u.mark v.index).link = (s.mark v.index).link) ?_ rfl visited
  intro action mem u w hu performed
  refine keeps_perform (p := fun u => (u.mark v.index).link = (s.mark v.index).link) ?_ hu performed
  intro u w hu write
  refine Eq.trans ?_ hu
  cases write with
  | exported | statement | rename => exact part_change Mark.link fun _ => rfl
  | link _ links =>
      rw [plain action mem] at links
      cases links
  | around out =>
      obtain ⟨d, out', -, named⟩ := Visit.nameOf_of_declaredName shaped hv mem
      obtain rfl := Option.some.inj (out.symm.trans out')
      have apart : d ≠ v.index := Nat.ne_of_lt (spec_of_parent? named.parent).1
      exact congrArg Mark.link (mark_change_of_ne apart)
  | path =>
      rw [link_attend]
      unfold writePath
      split
      · rfl
      · exact part_change Mark.link fun _ => rfl
  | attend => exact link_attend
  | bind | component => rfl

theorem category_of_visit (b : Begun nodes v.index s)
    (plain : ∀ action ∈ v.actions (Arena.ofNodes nodes), action.mayCompose = false)
    (visited : visit (Arena.ofNodes nodes) resolve s v = .ok t) :
    (t.mark v.index).category ≠ some .component := by
  have blank : (s.mark v.index).category = none := congrArg Tag.category (b.blank v.index (Nat.le_refl _)).tag
  refine (keeps_foldlM (p := fun u => Begun nodes (v.index + 1) u ∧ (u.mark v.index).category ≠ some .component)
    ?_ ⟨b.mono (Nat.le_succ _), by simp [blank]⟩ visited).2
  rintro action mem u w ⟨b, other⟩ performed
  exact ⟨b.perform shaped hv mem performed,
    category_ne_component (b.present hv) (plain action mem) performed other⟩

theorem kind_of_component (b : Begun nodes v.index s)
    (visited : visit (Arena.ofNodes nodes) resolve s v = .ok t)
    (component : (t.mark v.index).category = some .component) :
    (Arena.ofNodes nodes).kind v.index ∉ nameHosts := by
  have rules : ∀ y ∈ MarkRule.table, y.2.mayCompose = true → ∀ k ∈ nameHosts, Pattern.misses k y.1 = true := by
    decide
  intro host
  refine category_of_visit shaped hv b ?_ visited component
  intro action mem
  cases composes : action.mayCompose with
  | false => rfl
  | true => exact absurd host (Visit.kind_not_mem hv rules mem composes)

theorem components_of_visit (b : Begun nodes v.index s)
    (plain : ∀ action ∈ v.actions (Arena.ofNodes nodes), action.isReturned = false)
    (visited : visit (Arena.ofNodes nodes) resolve s v = .ok t) :
    t.components = s.components ∧ t.componentLink? v.index = none := by
  constructor
  · refine keeps_foldlM (p := fun u => u.components = s.components) ?_ rfl visited
    intro action mem u w hu performed
    exact (components_of_perform (plain action mem) performed).trans hu
  · have rules : ∀ y ∈ MarkRule.table, (y.2.linksOwn && !y.2.isReturned) = true → ∀ y' ∈ MarkRule.table,
        y'.2.mayCompose = true → Pattern.clash y.1 y'.1 = true := by decide +kernel
    refine Option.eq_none_iff_forall_ne_some.mpr fun j linked => ?_
    obtain ⟨component, linked⟩ := componentLink?_eq_some.mp linked
    by_cases quiet : ∀ action ∈ v.actions (Arena.ofNodes nodes), action.linksOwn = false
    · rw [link_of_visit shaped hv quiet visited, (b.blank v.index (Nat.le_refl _)).link] at linked
      cases linked
    · simp only [not_forall, Bool.not_eq_false] at quiet
      obtain ⟨action, mem, links⟩ := quiet
      have own : (action.linksOwn && !action.isReturned) = true := by simp [plain action mem, links]
      refine category_of_visit shaped hv b ?_ visited component
      intro action' mem'
      exact Visit.not_both (p := fun x => x.linksOwn && !x.isReturned) rules mem own mem'

/-- **A returned tag is linked with the name of the function around it.** -/
theorem host_of_visit {note : String} (b : Begun nodes v.index s)
    (mem : returnedComponent note ∈ v.actions (Arena.ofNodes nodes))
    (visited : visit (Arena.ofNodes nodes) resolve s v = .ok t) :
    t.components = s.components ∧ t.componentLink? v.index = none ∨
      ∃ name host, t.componentLink? v.index = some name ∧ (s.mark host).link = some name ∧
        (Arena.ofNodes nodes).Hosts host v.index ∧
        t.components = if s.components.contains name then s.components else s.components ++ [name] := by
  have kinds : ∀ y ∈ MarkRule.table, y.2.isReturned = true → ∀ k ∈ namedHosts, Pattern.misses k y.1 = true := by
    decide
  have blank := (b.blank v.index (Nat.le_refl _)).link
  have present := b.present hv
  rw [visit_eq_perform (Visit.actions_of_returned shaped hv mem)] at visited
  have tagged := tag_of_perform present rfl visited v.index
  rw [if_pos rfl] at tagged
  have component : (t.mark v.index).category = some .component := congrArg Tag.category tagged
  simp only [MarkAction.perform] at visited
  split at visited
  · cases visited
    refine Or.inl ⟨rfl, ?_⟩
    rw [componentLink?, if_pos component, link_attend, blank]
  · next name found =>
    rw [Visit.trail_eq shaped hv] at found
    obtain ⟨host, between, kind, linked, line, all⟩ := exists_host found
    cases visited
    refine Or.inr ⟨name, host, componentLink?_eq_some.mpr ⟨component, ?_⟩, ?_, ⟨kind, ?_⟩, rfl⟩
    · show ((Markings.change _ _ _).mark v.index).link = some name
      rw [mark_change_eq, if_pos ⟨rfl, by rwa [size_attend]⟩]
    · rwa [link_attend] at linked
    · cases between with
      | nil =>
          rw [List.nil_append, lineage_eq v.index, lineage_eq host] at line
          rw [← List.head_eq_of_cons_eq line] at kind
          exact absurd kind (Visit.kind_not_mem hv kinds mem rfl)
      | cons first between =>
          have same := line
          rw [lineage_eq v.index, List.cons_append] at same
          obtain rfl := List.head_eq_of_cons_eq same
          exact ⟨between, line, fun m hm => all m (List.mem_cons_of_mem _ hm)⟩

/-- What a visit adds to the components is what it links the visited node with. -/
theorem visit_component (b : Begun nodes v.index s)
    (visited : visit (Arena.ofNodes nodes) resolve s v = .ok t) :
    t.components = s.components ∧ t.componentLink? v.index = none ∨
      ∃ name host, t.componentLink? v.index = some name ∧ (s.mark host).link = some name ∧
        (Arena.ofNodes nodes).Hosts host v.index ∧
        t.components = if s.components.contains name then s.components else s.components ++ [name] := by
  by_cases plain : ∀ action ∈ v.actions (Arena.ofNodes nodes), action.isReturned = false
  · exact Or.inl (components_of_visit shaped hv b plain visited)
  · simp only [not_forall, Bool.not_eq_false] at plain
    obtain ⟨action, mem, returned⟩ := plain
    cases action with
    | returnedComponent note => exact host_of_visit shaped hv b mem visited
    | _ => cases returned

end Visit

/-! ## The walk -/

/-- When `k` nodes have been visited, the components are what their tags are linked with, each once, and no
declaration is among the tags. -/
structure Collected (nodes : List FlatNode) (k : Nat) (s : Markings) : Prop where
  components : s.components = ((List.range k).filterMap s.componentLink?).eraseDups
  kinds : ∀ i, (s.mark i).category = some .component → (Arena.ofNodes nodes).kind i ∉ nameHosts

section Walk

variable {nodes : List FlatNode} (shaped : TreeShaped nodes) {resolve : Option (String → Option String)}
  {s t : Markings} {v : Visit} {i j : Nat}

theorem collected_init : Collected nodes 0 (init nodes.length) where
  components := rfl
  kinds := by
    intro i component
    rw [mark_init] at component
    cases component

theorem Steady.componentLink? (h : s.Steady (Arena.ofNodes nodes) i t)
    (kind : (t.mark i).category = some .component → (Arena.ofNodes nodes).kind i ∉ nameHosts) :
    t.componentLink? i = s.componentLink? i := by
  unfold Markings.componentLink?
  rw [← h.category]
  split
  · next component => exact h.link (kind component)
  · rfl

theorem eraseDups_append_singleton (l : List Nat) (x : Nat) :
    (l ++ [x]).eraseDups = if l.eraseDups.contains x then l.eraseDups else l.eraseDups ++ [x] := by
  rw [List.eraseDups_append]
  by_cases h : x ∈ l
  · rw [if_pos (List.contains_iff_mem.mpr (List.mem_eraseDups.mpr h))]
    simp [List.removeAll, h]
  · rw [if_neg fun listed => h (List.mem_eraseDups.mp (List.contains_iff_mem.mp listed))]
    simp [List.removeAll, h, List.eraseDups_cons]

include shaped

/-- **A visit lists what it links.** -/
theorem Collected.visit (hv : v ∈ Visit.list nodes) (b : Begun nodes v.index s) (c : Collected nodes v.index s)
    (visited : Markings.visit (Arena.ofNodes nodes) resolve s v = .ok t) : Collected nodes (v.index + 1) t := by
  have kinds : ∀ i, (t.mark i).category = some .component → (Arena.ofNodes nodes).kind i ∉ nameHosts := by
    intro i component
    by_cases own : v.index = i
    · subst own
      exact kind_of_component shaped hv b visited component
    · rw [(b.steady_visit shaped hv own visited).category] at component
      exact c.kinds i component
  refine ⟨?_, kinds⟩
  have before : (List.range v.index).filterMap t.componentLink? =
      (List.range v.index).filterMap s.componentLink? := by
    refine List.filterMap_congr fun i hi => ?_
    have other := Nat.ne_of_gt (List.mem_range.mp hi)
    exact (b.steady_visit shaped hv other visited).componentLink? (kinds i)
  rw [List.range_succ, List.filterMap_append, before]
  rcases visit_component shaped hv b visited with ⟨same, link⟩ | ⟨name, -, link, -, -, listed⟩
  · rw [same, c.components]
    simp [link]
  · rw [listed, c.components, List.filterMap_cons_some link, List.filterMap_nil, eraseDups_append_singleton]

/-- **The components are the functions that return tags.** They are listed once each, in the order of the
first tag, and each is named by the function that the tag stands in. -/
theorem components_eq_links (h : ofNodes nodes resolve = .ok s) : s.components.Nodup ∧
    s.components = ((List.range nodes.length).filterMap s.componentLink?).eraseDups ∧
    ∀ i j, (s.mark i).category = some .component → (s.mark i).link = some j →
      j < i ∧ (Arena.ofNodes nodes).field j = some "name" ∧
        ∃ host, (Arena.ofNodes nodes).parent? j = some host ∧ (Arena.ofNodes nodes).Hosts host i := by
  have collected : Begun nodes (0 + nodes.length) s ∧ Collected nodes (0 + nodes.length) s := by
    refine keeps_listFrom (p := fun k s => Begun nodes k s ∧ Collected nodes k s) ?_ ⟨begun_init, collected_init⟩ h
    rintro v hv s t ⟨b, c⟩ visited
    exact ⟨b.visit shaped hv visited, c.visit shaped hv b visited⟩
  rw [Nat.zero_add] at collected
  have listed := collected.2.components
  refine ⟨?_, listed, ?_⟩
  · rw [listed]
    exact (firstOccurrences_eraseDups _).distinct
  intro i j component linked
  have present : i < nodes.length := by
    rw [← collected.1.size]
    by_contra beyond
    rw [mark, Array.getD_eq_getD_getElem?, Array.getElem?_eq_none (Nat.not_lt.mp beyond)] at component
    cases component
  obtain ⟨v, hv, rfl⟩ := Visit.exists_visit present
  obtain ⟨u, t, begun, -, visited, steady⟩ := exists_visited (p := fun _ _ => True) shaped trivial
    (fun _ _ _ _ _ _ _ => trivial) h hv
  have stays := steady.componentLink? (collected.2.kinds v.index)
  rw [componentLink?_eq_some.mpr ⟨component, linked⟩] at stays
  rcases visit_component shaped hv begun visited with ⟨-, unlinked⟩ | ⟨name, host, link, held, hosts, -⟩
  · rw [unlinked] at stays
    cases stays
  · rw [link] at stays
    cases stays
    have inside : ∀ k ∈ namedHosts, k ∈ nameHosts := by decide
    obtain ⟨before, named⟩ := begun.names host j (inside _ hosts.kind) held
    exact ⟨before, named.field, host, named.parent, hosts⟩

end Walk

/-- A variable whose value is a function that returns a tag: `const App = () => <Main/>`. -/
def returnedTag : List FlatNode :=
  [⟨0, "lexical_declaration", "const App = () => <Main/>", 1, 1, 0, 25, true, none⟩,
   ⟨1, "variable_declarator", "App = () => <Main/>", 1, 1, 6, 25, true, none⟩,
   ⟨2, "identifier", "App", 1, 1, 6, 9, false, some "name"⟩,
   ⟨2, "arrow_function", "() => <Main/>", 1, 1, 12, 25, true, some "value"⟩,
   ⟨3, "formal_parameters", "()", 1, 1, 12, 14, true, some "parameters"⟩,
   ⟨3, "=>", "=>", 1, 1, 15, 17, false, none⟩,
   ⟨3, "jsx_self_closing_element", "<Main/>", 1, 1, 18, 25, true, some "body"⟩,
   ⟨4, "identifier", "Main", 1, 1, 19, 23, false, some "name"⟩]

/-- The tag is linked with the variable, through the function that is its value. -/
theorem components_eq_links_returnedTag : ∃ s, ofNodes returnedTag none = .ok s ∧ s.components = [2] ∧
    s.componentLink? 7 = some 2 ∧ ∃ host, (Arena.ofNodes returnedTag).parent? 2 = some host ∧
      (Arena.ofNodes returnedTag).Hosts host 7 := by
  have shaped : TreeShaped returnedTag := ⟨by decide, by decide⟩
  have run : (ofNodes returnedTag none).map (fun s => (s.components, s.componentLink? 7)) = .ok ([2], some 2) := by
    rfl
  obtain ⟨s, h, found⟩ := exists_of_map run
  obtain ⟨listed, linked⟩ := Prod.mk.inj found
  obtain ⟨-, -, hosts⟩ := components_eq_links shaped h
  obtain ⟨component, link⟩ := componentLink?_eq_some.mp linked
  exact ⟨s, h, listed, linked, (hosts 7 2 component link).2.2⟩

end Markings

end SourceSurvey
