import SourceSurvey.Import.Form
import SourceSurvey.Import.Lexeme

/-!
# The specifiers of a source

Each form of import is searched for on its own, from left to right and without overlaps, in the source
with its comments blanked. The specifiers found are listed in the order in which they stand in the
source, one for each position.
-/

namespace SourceSurvey

namespace ImportForm

/-- Finds the specifiers of one form from an offset on. A form starts only at a boundary, where no word
character comes directly before; after a form that was read, there is one. -/
def findFrom (form : ImportForm) (offset : Nat) (boundary : Bool) : List Char → List (Nat × String)
  | [] => []
  | c :: l =>
    match if boundary then form.read? (c :: l) else none with
    | some s =>
      let length := (c :: l).length
      let skipped := l.length - s.rest.length
      (offset + (length - s.start.length), String.ofList s.chars)
        :: findFrom form (offset + 1 + skipped) true (l.drop skipped)
    | none => findFrom form (offset + 1) (!Text.isWord c) l
termination_by l => l.length
decreasing_by
  · simp only [List.length_drop, List.length_cons]; omega
  · exact Nat.lt_succ_self _

def find (form : ImportForm) (l : List Char) : List (Nat × String) :=
  form.findFrom 0 true l

end ImportForm

/-- The specifiers of a source whose comments are blanked, with their offsets, in order. -/
def locateSpecifiers (l : List Char) : List (Nat × String) :=
  let found := (ImportForm.all.flatMap fun form => form.find l).eraseDupsBy fun a b => a.1 == b.1
  found.mergeSort fun a b => decide (a.1 ≤ b.1)

def specifiers (source : String) : List String :=
  (locateSpecifiers (blankComments source.toList)).map Prod.snd

end SourceSurvey
