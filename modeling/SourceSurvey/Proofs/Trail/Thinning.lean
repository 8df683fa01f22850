import Mathlib.Data.List.Forall2
import SourceSurvey.Trail.Pattern

/-!
# Which paths a pattern fits

A pattern is matched from the inside out: a step that accepts the node at hand is taken, and an optional
step is left out where taking it leads nowhere. Seen from outside there is no order in it. A pattern fits a
path if the steps that remain when some of the optional ones are struck out (`Pattern.Thinned`) admit, one by
one, the nodes at the end of the path (`Pattern.matchesEnd_iff_thinned`). What stands further out on the path
does not matter.
-/

namespace SourceSurvey

/-- What a step asks of a node: one of its kinds, if it names kinds, and its field, if it names one. -/
@[mk_iff] structure Step.Admits (s : Step) (p : PathStep) : Prop where
  kind : ∀ ks, s.kinds = some ks → p.kind ∈ ks
  field : ∀ f, s.field = some f → p.field = some f

theorem Step.accepts_iff_admits {s : Step} {p : PathStep} : s.accepts p = true ↔ s.Admits p := by
  rw [accepts, Bool.and_eq_true, admits_iff]
  refine and_congr ?_ ?_
  · cases s.kinds with
    | none => simp
    | some ks => simp
  · cases s.field with
    | none => simp
    | some f => simp

namespace Pattern

/-! ## Striking out optional steps -/

/-- The second list is what remains of the first when some of its optional steps are struck out. -/
inductive Thinned : List Step → List Step → Prop
  | nil : Thinned [] []
  | keep (s : Step) {steps kept : List Step} : Thinned steps kept → Thinned (s :: steps) (s :: kept)
  | strike {s : Step} {steps kept : List Step} : s.isOptional = true → Thinned steps kept →
      Thinned (s :: steps) kept

namespace Thinned

variable {steps steps' kept kept' : List Step}

theorem append (h : Thinned steps kept) (h' : Thinned steps' kept') :
    Thinned (steps ++ steps') (kept ++ kept') := by
  induction h with
  | nil => exact h'
  | keep s _ ih => exact .keep s ih
  | strike optional _ ih => exact .strike optional ih

theorem reverse (h : Thinned steps kept) : Thinned steps.reverse kept.reverse := by
  induction h with
  | nil => exact .nil
  | keep s _ ih =>
      rw [List.reverse_cons, List.reverse_cons]
      exact ih.append (.keep s .nil)
  | @strike s steps kept optional _ ih =>
      rw [List.reverse_cons, ← List.append_nil kept.reverse]
      exact ih.append (.strike optional .nil)

end Thinned

/-! ## Matching -/

variable {steps kept : List Step} {path : List PathStep}

/-- Steps that fit from the innermost node outwards are matched: a step that is kept is taken, and one that
is struck out is left out. -/
theorem matchesInward_of_thinned {inner outer : List PathStep} (thinned : Thinned steps kept)
    (admitted : List.Forall₂ Step.Admits kept inner) : matchesInward steps (inner ++ outer) = true := by
  induction thinned generalizing inner with
  | nil => rw [matchesInward]
  | keep s _ ih =>
      cases admitted with
      | cons first rest =>
          rw [List.cons_append, matchesInward, Step.accepts_iff_admits.mpr first, ih rest]
          rfl
  | strike optional _ ih =>
      have without := ih admitted
      generalize inner ++ outer = path at without
      cases path with
      | nil => rw [matchesInward, optional, without]; rfl
      | cons p path => rw [matchesInward, optional, without, Bool.and_true, Bool.or_true]

/-- What is matched fits without the optional steps that the search has left out. -/
theorem exists_thinned_of_matchesInward (fits : matchesInward steps path = true) :
    ∃ kept inner, Thinned steps kept ∧ inner <+: path ∧ List.Forall₂ Step.Admits kept inner := by
  fun_induction matchesInward steps path with
  | case1 path => exact ⟨[], [], .nil, List.nil_prefix, .nil⟩
  | case2 s steps ih =>
      obtain ⟨optional, fits⟩ := Bool.and_eq_true_iff.mp fits
      obtain ⟨kept, inner, thinned, front, admitted⟩ := ih fits
      exact ⟨kept, inner, .strike optional thinned, front, admitted⟩
  | case3 s steps p outer taken left =>
      rcases Bool.or_eq_true_iff.mp fits with fits | fits
      · obtain ⟨accepted, fits⟩ := Bool.and_eq_true_iff.mp fits
        obtain ⟨kept, inner, thinned, front, admitted⟩ := taken fits
        exact ⟨s :: kept, p :: inner, .keep s thinned, List.cons_prefix_cons.mpr ⟨rfl, front⟩,
          .cons (Step.accepts_iff_admits.mp accepted) admitted⟩
      · obtain ⟨optional, fits⟩ := Bool.and_eq_true_iff.mp fits
        obtain ⟨kept, inner, thinned, front, admitted⟩ := left fits
        exact ⟨kept, inner, .strike optional thinned, front, admitted⟩

/-- The pattern fits the end of a path: without some of its optional steps it admits, step by step, the nodes
at the end. -/
def FitsEnd (pattern : Pattern) (path : List PathStep) : Prop :=
  ∃ kept suffix, Thinned pattern kept ∧ suffix <:+ path ∧ List.Forall₂ Step.Admits kept suffix

theorem matchesEnd_iff_fitsEnd {pattern : Pattern} : pattern.matchesEnd path = true ↔ pattern.FitsEnd path := by
  constructor
  · intro fits
    obtain ⟨kept, inner, thinned, front, admitted⟩ := exists_thinned_of_matchesInward fits
    refine ⟨kept.reverse, inner.reverse, ?_, ?_, List.rel_reverse admitted⟩
    · simpa only [List.reverse_reverse] using thinned.reverse
    · simpa only [List.reverse_reverse] using List.reverse_suffix.mpr front
  · rintro ⟨kept, suffix, thinned, ⟨outer, rfl⟩, admitted⟩
    rw [matchesEnd, List.reverse_append]
    exact matchesInward_of_thinned thinned.reverse (List.rel_reverse admitted)

/-- **A pattern matches the paths whose end it fits without some of its optional steps**, and nodes further
out on the path do not change that. -/
theorem matchesEnd_iff_thinned (pattern : Pattern) (path : List PathStep) :
    (pattern.matchesEnd path = true ↔ pattern.FitsEnd path) ∧
      ∀ outer, pattern.matchesEnd path = true → pattern.matchesEnd (outer ++ path) = true := by
  refine ⟨matchesEnd_iff_fitsEnd, fun outer fits => ?_⟩
  obtain ⟨kept, suffix, thinned, back, admitted⟩ := matchesEnd_iff_fitsEnd.mp fits
  have further : suffix <:+ outer ++ path := back.trans (List.suffix_append outer path)
  exact matchesEnd_iff_fitsEnd.mpr ⟨kept, suffix, thinned, further, admitted⟩

/-- A pattern with three optional steps in a row, the first and the last of them for the same kind. -/
def wrappedThrice : Pattern :=
  Pattern.parse "return_statement/parenthesized_expression?/*?/parenthesized_expression?/name:identifier|this"

/-- The path of a returned name in parentheses, which is shorter than the pattern. -/
def wrappedOnce : List PathStep :=
  [⟨none, "return_statement"⟩, ⟨none, "parenthesized_expression"⟩, ⟨some "name", "identifier"⟩]

/-- Two of the optional steps have to be struck out, and it does not matter which of the two for parentheses
stays. -/
theorem matchesEnd_iff_thinned_wrappedOnce : wrappedThrice.FitsEnd wrappedOnce ∧
    wrappedThrice.matchesEnd (⟨none, "program"⟩ :: wrappedOnce) = true := by
  obtain ⟨fits, further⟩ := matchesEnd_iff_thinned wrappedThrice wrappedOnce
  have matched : wrappedThrice.matchesEnd wrappedOnce = true := by decide
  exact ⟨fits.mp matched, further [⟨none, "program"⟩] matched⟩

end Pattern

end SourceSurvey
