import SourceSurvey.Proofs.Marking.Places

/-!
# Rules that exclude each other

Which rules apply to a node together is read off the table of rules. A rule does not apply to a node of a kind
that its innermost step does not name (`Visit.kind_not_mem`), and two rules do not apply to one node if at some
place they ask for different kinds (`Visit.not_both`). A group yields one action at most, so an action that
excludes the rules of all other groups is the only one of its visit (`Visit.actions_eq_singleton`).
-/

namespace SourceSurvey

/-- The steps name their kinds, and have none in common. -/
def Step.apart (s t : Step) : Bool :=
  s.kinds.any fun ks => ks.all fun k => t.excludes k

theorem Step.accepts_of_apart {s t : Step} {p : PathStep} (h : s.apart t = true) (hs : s.accepts p = true) :
    t.accepts p = false := by
  obtain ⟨ks, named, all⟩ := (Option.any_eq_true _ _).mp h
  refine accepts_eq_false (List.all_eq_true.mp all p.kind ?_)
  have own := Pattern.excludes_eq_false hs
  rw [excludes, named] at own
  simpa using own

namespace Pattern

/-- Steps, from the innermost outwards, that do not fit a node of the kind. -/
def misses (inner : String) (steps : List Step) : Bool :=
  steps.head?.any fun s => !s.isOptional && s.excludes inner

/-- Steps, from the innermost outwards, that ask for different kinds at some place, and before it leave
nothing out. -/
def clash : List Step → List Step → Bool
  | s :: outer, t :: outer' => !s.isOptional && !t.isOptional && (s.apart t || clash outer outer')
  | _, _ => false

/-- **Patterns that clash do not fit one path.** -/
theorem matchesInward_of_clash {l l' : List Step} {path : List PathStep} (h : clash l l' = true)
    (fits : matchesInward l path = true) : matchesInward l' path = false := by
  induction l generalizing l' path with
  | nil => cases h
  | cons s outer ih =>
      cases l' with
      | nil => cases h
      | cons t outer' =>
          simp only [clash, Bool.and_eq_true, Bool.or_eq_true, Bool.not_eq_true'] at h
          obtain ⟨⟨hs, ht⟩, apart⟩ := h
          cases path with
          | nil => rw [matchesInward, ht, Bool.false_and]
          | cons p path =>
              obtain ⟨accepted, fits⟩ := (matchesInward_cons hs).mp fits
              rw [matchesInward, ht, Bool.false_and, Bool.or_false]
              rcases apart with apart | apart
              · rw [Step.accepts_of_apart apart accepted, Bool.false_and]
              · rw [ih apart fits, Bool.and_false]

end Pattern

namespace Visit

open MarkRule

/-! ## Kinds and places -/

section Kinds

variable {nodes : List FlatNode} {v : Visit} {action action' : MarkAction}

theorem kind_not_mem (hv : v ∈ list nodes) {p : MarkAction → Bool} {ks : List String}
    (rules : ∀ y ∈ table, p y.2 = true → ∀ k ∈ ks, Pattern.misses k y.1 = true)
    (mem : action ∈ v.actions (Arena.ofNodes nodes)) (hp : p action = true) :
    (Arena.ofNodes nodes).kind v.index ∉ ks := by
  intro listed
  obtain ⟨steps, entry, fits⟩ := exists_steps mem
  obtain ⟨s, first, missed⟩ := (Option.any_eq_true _ _).mp (rules _ entry hp _ listed)
  obtain ⟨outer, rfl⟩ := List.head?_eq_some_iff.mp first
  rw [Bool.and_eq_true, Bool.not_eq_true'] at missed
  have accepted := Pattern.excludes_eq_false (accepts_of_matchesInward hv missed.1 fits)
  rw [show ((Arena.ofNodes nodes).ancestor v.index).kind = (Arena.ofNodes nodes).kind v.index from rfl,
    missed.2] at accepted
  cases accepted

theorem not_both {a : Arena} {p q : MarkAction → Bool}
    (rules : ∀ y ∈ table, p y.2 = true → ∀ y' ∈ table, q y'.2 = true → Pattern.clash y.1 y'.1 = true)
    (mem : action ∈ v.actions a) (hp : p action = true) (mem' : action' ∈ v.actions a) : q action' = false := by
  obtain ⟨steps, entry, fits⟩ := exists_steps mem
  obtain ⟨steps', entry', fits'⟩ := exists_steps mem'
  cases hq : q action' with
  | false => rfl
  | true =>
      rw [Pattern.matchesInward_of_clash (rules _ entry hp _ entry' hq) fits] at fits'
      cases fits'

end Kinds

/-! ## The actions of a visit -/

variable {a : Arena} {v : Visit} {action : MarkAction} {group : List MarkRule} {n : Nat}

theorem actions_eq (listed : groups[n]? = some group) : v.actions a =
    (groups.take n).filterMap (actionOf? a v) ++ ((actionOf? a v group).toList
      ++ (groups.drop (n + 1)).filterMap (actionOf? a v)) := by
  obtain ⟨here, rfl⟩ := List.getElem?_eq_some_iff.mp listed
  have whole : groups = groups.take n ++ groups[n] :: groups.drop (n + 1) := by
    rw [List.getElem_cons_drop, List.take_append_drop]
  calc v.actions a = (groups.take n ++ groups[n] :: groups.drop (n + 1)).filterMap (actionOf? a v) := by
        rw [← whole, actions]
    _ = _ := by
        rw [List.filterMap_append, List.filterMap_cons]
        cases actionOf? a v groups[n] <;> rfl

theorem filterMap_eq_nil {gs : List (List MarkRule)} (listed : ∀ g ∈ gs, g ∈ groups)
    (others : ∀ g ∈ gs, ∀ rule ∈ g, ∀ y ∈ rule.alternatives, y.2 ∉ v.actions a) :
    gs.filterMap (actionOf? a v) = [] := by
  refine List.filterMap_eq_nil_iff.mpr fun g hg => ?_
  cases chosen : actionOf? a v g with
  | none => rfl
  | some action =>
      obtain ⟨rule, hrule, chosen'⟩ := List.exists_of_findSome?_eq_some chosen
      obtain ⟨pattern, mem, -⟩ := Rule.exists_of_choose chosen'
      exact absurd (List.mem_filterMap.mpr ⟨g, listed g hg, chosen⟩) (others g hg rule hrule _ mem)

/-- The action of a group is the last one if no later group yields one of the actions. -/
theorem exists_actions_append (listed : groups[n]? = some group)
    (later : ∀ g ∈ groups.drop (n + 1), ∀ rule ∈ g, ∀ y ∈ rule.alternatives, y.2 ∉ v.actions a)
    (chosen : actionOf? a v group = some action) : ∃ front, v.actions a = front ++ [action] := by
  refine ⟨(groups.take n).filterMap (actionOf? a v), ?_⟩
  rw [actions_eq listed, chosen, filterMap_eq_nil (fun _ => List.mem_of_mem_drop) later]
  rfl

/-- The action of a group is the last one if the kind of the node rules out the later groups. -/
theorem exists_actions_append_of_kind {nodes : List FlatNode} (hv : v ∈ list nodes)
    (listed : groups[n]? = some group) {k : String} (kind : (Arena.ofNodes nodes).kind v.index = k)
    (rules : ∀ g ∈ groups.drop (n + 1), ∀ rule ∈ g, ∀ y ∈ rule.alternatives, ∀ e ∈ table,
      (e.2 == y.2) = true → Pattern.misses k e.1 = true)
    (chosen : actionOf? (Arena.ofNodes nodes) v group = some action) :
    ∃ front, v.actions (Arena.ofNodes nodes) = front ++ [action] := by
  refine exists_actions_append listed ?_ chosen
  intro g hg rule hrule y hy performed
  have missed : ∀ e ∈ table, (e.2 == y.2) = true → ∀ k' ∈ [k], Pattern.misses k' e.1 = true := by
    intro e he same k' hk
    rw [List.mem_singleton.mp hk]
    exact rules g hg rule hrule y hy e he same
  exact kind_not_mem hv (p := fun x => x == y.2) missed performed (by simp) (by simp [kind])

/-- An action is the only one if no other group yields one of the actions. -/
theorem actions_eq_singleton (listed : groups[n]? = some group)
    (others : ∀ g ∈ groups.take n ++ groups.drop (n + 1), ∀ rule ∈ g, ∀ y ∈ rule.alternatives,
      y.2 ∉ v.actions a) (mem : action ∈ v.actions a) : v.actions a = [action] := by
  have front := filterMap_eq_nil (fun _ => List.mem_of_mem_take) fun g hg =>
    others g (List.mem_append_left _ hg)
  have back := filterMap_eq_nil (fun _ => List.mem_of_mem_drop) fun g hg =>
    others g (List.mem_append_right _ hg)
  have only : v.actions a = (actionOf? a v group).toList := by
    rw [actions_eq listed, front, back, List.nil_append, List.append_nil]
  rw [only] at mem ⊢
  rw [Option.mem_toList.mp mem]
  rfl

end Visit

end SourceSurvey
