import Mathlib.Data.List.Find
import SourceSurvey.Marking.Walk

/-!
# What a visit chooses

A rule chooses the first alternative that fits and is let through (`choose_eq_find?`). So every action of
a visit comes from an alternative whose pattern fits the trail (`exists_of_mem_actions`), and the choice
depends on nothing but which patterns fit and what the guards of fitting alternatives say
(`choose_congr`).

The root of a program has a kind that no rule names. No rule applies to the root itself, whether a rule
applies below it does not depend on the root, and some rules only apply below a node that is not the
root; all three are read off the table of rules.
-/

namespace SourceSurvey

/-! ## Choosing an alternative -/

namespace Rule

variable {γ α : Type} {holds holds' : γ → Bool} {rule : Rule γ α} {path path' : List PathStep} {x : α}

/-- A guard that always gives the same answer lets the first fitting alternative through or none. -/
theorem choose_eq_find? : rule.choose holds path =
    (rule.alternatives.find? fun y =>
      Pattern.matchesInward y.1.reverse path && rule.guard.all holds).map Prod.snd := by
  obtain ⟨alternatives, guard⟩ := rule
  unfold choose
  generalize 0 = asked
  induction alternatives generalizing asked with
  | nil => rfl
  | cons first rest ih =>
      obtain ⟨pattern, y⟩ := first
      simp only [chooseFrom]
      split
      · next fits =>
        cases guard with
        | none => simp [fits]
        | some g =>
            cases hg : holds g with
            | true => simp [fits, hg]
            | false =>
                simp only [Option.map_some, hg, Bool.false_eq_true, if_false]
                rw [List.find?_cons_of_neg (by simp [hg])]
                simpa only [Option.map_some, hg] using ih (asked + 1)
      · next fits =>
        rw [List.find?_cons_of_neg (by simp [fits])]
        exact ih asked

theorem exists_of_choose (h : rule.choose holds path = some x) :
    ∃ pattern, (pattern, x) ∈ rule.alternatives ∧ Pattern.matchesInward pattern.reverse path = true := by
  rw [choose_eq_find?, Option.map_eq_some_iff] at h
  obtain ⟨⟨pattern, y⟩, found, rfl⟩ := h
  have accepted := List.find?_some found
  rw [Bool.and_eq_true] at accepted
  exact ⟨pattern, List.mem_of_find?_eq_some found, accepted.1⟩

/-- The choice depends on which patterns fit, and on the guard where one fits. -/
theorem choose_congr
    (fits : ∀ y ∈ rule.alternatives,
      Pattern.matchesInward y.1.reverse path = Pattern.matchesInward y.1.reverse path')
    (answers : ∀ y ∈ rule.alternatives, Pattern.matchesInward y.1.reverse path = true →
      ∀ g, rule.guard = some g → holds g = holds' g) :
    rule.choose holds path = rule.choose holds' path' := by
  rw [choose_eq_find?, choose_eq_find?]
  congr 1
  refine List.find?_congr fun y hy => ?_
  rw [← fits y hy]
  cases hfit : Pattern.matchesInward y.1.reverse path with
  | false => rfl
  | true =>
      rw [Bool.true_and, Bool.true_and]
      cases hg : rule.guard with
      | none => rfl
      | some g => exact answers y hy hfit g hg

end Rule

theorem Visit.exists_of_mem_actions {a : Arena} {v : Visit} {action : MarkAction}
    (h : action ∈ v.actions a) :
    ∃ group ∈ MarkRule.groups, ∃ rule ∈ group, ∃ pattern, (pattern, action) ∈ rule.alternatives ∧
      Pattern.matchesInward pattern.reverse v.trail.inward = true := by
  obtain ⟨group, hgroup, chosen⟩ := List.mem_filterMap.mp h
  obtain ⟨rule, hrule, chosen⟩ := List.exists_of_findSome?_eq_some chosen
  obtain ⟨pattern, mem, fits⟩ := Rule.exists_of_choose chosen
  exact ⟨group, hgroup, rule, hrule, pattern, mem, fits⟩

/-! ## The root of a program -/

/-- The step names its kinds, and the given one is not among them. -/
def Step.excludes (kind : String) (s : Step) : Bool :=
  match s.kinds with
  | some ks => !ks.contains kind
  | none => false

theorem Step.accepts_eq_false {s : Step} {p : PathStep} (h : s.excludes p.kind = true) :
    s.accepts p = false := by
  unfold excludes at h
  unfold accepts
  split at h
  · next ks hk =>
    rw [hk]
    simp only [Bool.not_eq_true'] at h
    simp only [h, Bool.false_and]
  · cases h

namespace Pattern

variable {steps : List Step} {root root' : PathStep}

/-- The steps cannot all be left out: the innermost of them is not optional. -/
def goesOn (steps : List Step) : Bool :=
  !steps.head?.all Step.isOptional

/-- Steps, from the innermost outwards, of which none fits the root of a program in a match: it names
other kinds, or something must stand outside of it. -/
def sparesRoot : List Step → Bool
  | [] => true
  | s :: outer => (s.excludes "program" || goesOn outer) && sparesRoot outer

/-- The innermost step is not optional and does not fit the root of a program in a match. -/
def missesRoot : List Step → Bool
  | [] => false
  | s :: outer => !s.isOptional && (s.excludes "program" || goesOn outer)

/-- The node directly around the innermost one must be there, and it is not the root of a program. -/
def insideOther : List Step → Bool
  | s :: t :: _ => !s.isOptional && !t.isOptional && t.excludes "program"
  | _ => false

theorem matchesInward_nil (h : goesOn steps = true) : matchesInward steps [] = false := by
  cases steps with
  | nil => cases h
  | cons s outer =>
      have hs : s.isOptional = false := by simpa [goesOn] using h
      rw [matchesInward, hs, Bool.false_and]

/-- A step that spares the root does not take part in a match that ends at the root. -/
theorem accepts_root_and {s : Step} (h : (s.excludes "program" || goesOn steps) = true)
    (hr : root.kind = "program") : (s.accepts root && matchesInward steps []) = false := by
  rcases Bool.or_eq_true_iff.mp h with h | h
  · rw [Step.accepts_eq_false (hr ▸ h), Bool.false_and]
  · rw [matchesInward_nil h, Bool.and_false]

/-- **Whether steps that spare the root fit does not depend on the root.** -/
theorem matchesInward_root (h : sparesRoot steps = true) (hr : root.kind = "program")
    (hr' : root'.kind = "program") (path : List PathStep) :
    matchesInward steps (path ++ [root]) = matchesInward steps (path ++ [root']) := by
  induction steps generalizing path with
  | nil => rw [matchesInward, matchesInward]
  | cons s outer ih =>
      rw [sparesRoot, Bool.and_eq_true] at h
      cases path with
      | nil =>
          rw [List.nil_append, List.nil_append, matchesInward, matchesInward, accepts_root_and h.1 hr,
            accepts_root_and h.1 hr']
          exact congrArg (false || s.isOptional && ·) (ih h.2 [])
      | cons p path =>
          rw [List.cons_append, List.cons_append, matchesInward, matchesInward, ih h.2 path]
          exact congrArg (_ || s.isOptional && ·) (ih h.2 (p :: path))

theorem matchesInward_singleton (h : missesRoot steps = true) (hr : root.kind = "program") :
    matchesInward steps [root] = false := by
  cases steps with
  | nil => cases h
  | cons s outer =>
      rw [missesRoot, Bool.and_eq_true, Bool.not_eq_true'] at h
      rw [matchesInward, accepts_root_and h.2 hr, h.1, Bool.false_and, Bool.or_false]

theorem exists_parent_of_matches {path : List PathStep} (h : insideOther steps = true)
    (fits : matchesInward steps path = true) :
    ∃ p parent outer, path = p :: parent :: outer ∧ parent.kind ≠ "program" := by
  unfold insideOther at h
  split at h
  · next s t rest =>
    rw [Bool.and_eq_true, Bool.and_eq_true, Bool.not_eq_true', Bool.not_eq_true'] at h
    obtain ⟨⟨hs, ht⟩, other⟩ := h
    rcases path with _ | ⟨p, _ | ⟨parent, outer⟩⟩
    · rw [matchesInward, hs, Bool.false_and] at fits
      cases fits
    · rw [matchesInward, matchesInward, hs, ht, Bool.false_and, Bool.false_and, Bool.and_false] at fits
      cases fits
    · refine ⟨p, parent, outer, rfl, ?_⟩
      intro hp
      have refused : t.accepts parent = false := Step.accepts_eq_false (hp ▸ other)
      rw [matchesInward, matchesInward, hs, ht, refused] at fits
      simp only [Bool.false_and, Bool.and_false, Bool.or_false, Bool.false_eq_true] at fits
  · cases h

end Pattern

/-- The action uses the node directly around, whatever that is. -/
def MarkAction.usesAround : MarkAction → Bool
  | declaredName .. => true
  | patternField _ => true
  | functionValue _ => true
  | exportKeyword => true
  | _ => false

theorem MarkRule.spares_root : ∀ group ∈ groups, ∀ rule ∈ group, ∀ y ∈ rule.alternatives,
    Pattern.sparesRoot y.1.reverse = true ∧ Pattern.missesRoot y.1.reverse = true ∧
      (y.2.usesAround = true ∨ rule.guard = some .callbackPassed →
        Pattern.insideOther y.1.reverse = true) := by
  decide

end SourceSurvey
