import SourceSurvey.Trail.Pattern

/-!
# Rules

A rule offers several patterns, each with its own consequence, and may have a guard. The alternatives
are tried in order; one whose pattern fits asks the guard, and the first that fits and is let through
decides. A guard that refuses one alternative is asked again for the next that fits.
-/

namespace SourceSurvey

/-- Alternatives in order, each a pattern and what follows from it, under an optional guard. -/
structure Rule (γ α : Type) where
  alternatives : List (Pattern × α)
  guard : Option γ := none

namespace Rule

/-- Goes through the alternatives against a path, given from the innermost node outwards. `answer k` is
what the guard says when it is asked for the `k`-th time; without a guard nothing is asked. Returns the
consequence of the alternative that decides, and how often the guard has been asked in total. -/
def chooseFrom {α : Type} (answer : Option (Nat → Bool)) (path : List PathStep) :
    List (Pattern × α) → Nat → Option α × Nat
  | [], asked => (none, asked)
  | (pattern, a) :: rest, asked =>
    if Pattern.matchesInward pattern.reverse path then
      match answer with
      | none => (some a, asked)
      | some grants => if grants asked then (some a, asked + 1) else chooseFrom answer path rest (asked + 1)
    else chooseFrom answer path rest asked

/-- The consequence of the rule on a path, given from the innermost node outwards, when its guard gives
the same answer whenever it is asked. -/
def choose {γ α : Type} (holds : γ → Bool) (rule : Rule γ α) (path : List PathStep) : Option α :=
  (chooseFrom (rule.guard.map fun g _ => holds g) path rule.alternatives 0).1

/-- The alternatives of written patterns, where consequences are listed apart and may be fewer: a
pattern beyond the last listed one has none. -/
def pair {α : Type} : List String → List (Option α) → List (Pattern × Option α)
  | [], _ => []
  | e :: rest, [] => (Pattern.parse e, none) :: pair rest []
  | e :: rest, a :: more => (Pattern.parse e, a) :: pair rest more

end Rule

end SourceSurvey
