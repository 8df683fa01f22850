import SourceSurvey.Marking.Mark
import SourceSurvey.Trail.Basic

/-!
# Markings

The marks of all nodes of a list, as far as the walk has come, and what the walk keeps in mind to make
further ones.
-/

namespace SourceSurvey

/-- What the fields of an object pattern inherit from it: the name they are shown below, their category
and note, and whether they are exported. -/
structure Binding where
  name : String
  category : Category
  note : String
  exported : Bool := false
deriving DecidableEq, Repr

/-- The marks of all nodes, and what the walk remembers beside them: the nodes that got a category, the
bindings of object patterns, and the names of components. -/
structure Markings where
  marks : Array Mark
  attended : List Nat := []
  bindings : List (Nat × Binding) := []
  components : List Nat := []

/-- The walk cannot go on: an object pattern, the value of a pair, has nothing around the pair. -/
structure MissingPattern where
  node : Nat
deriving DecidableEq, Repr

namespace Markings

def init (size : Nat) : Markings :=
  { marks := Array.replicate size {} }

def mark (s : Markings) (i : Nat) : Mark := s.marks.getD i {}

def change (s : Markings) (i : Nat) (f : Mark → Mark) : Markings :=
  { s with marks := s.marks.modify i f }

/-- Gives node `i` its category, note and label. -/
def attend (s : Markings) (i : Nat) (category : Category) (note label : String) : Markings :=
  let s := s.change i fun m => { m with category := some category, note, label }
  { s with attended := if s.attended.contains i then s.attended else i :: s.attended }

/-- The attended nodes that have a label, in order. -/
def attention (s : Markings) : List Nat :=
  (s.attended.mergeSort fun i j => decide (i ≤ j)).filter fun i => (s.mark i).label != ""

/-- The statement `steps` outwards is exported, or stands directly in an exported export statement. -/
def isExported (s : Markings) (trail : Trail) (steps : Nat) : Bool :=
  match trail.outward? steps with
  | none => false
  | some statement =>
    (s.mark statement.index).exported ||
      match trail.outward? (steps + 1) with
      | some parent => parent.kind == "export_statement" && (s.mark parent.index).exported
      | none => false

/-- The kinds of declarations that have a name of their own. -/
def namedHosts : List String :=
  ["function_declaration", "generator_function_declaration", "method_definition", "variable_declarator"]

/-- The kinds of functions that are named by the declarator they are the value of. -/
def namelessHosts : List String :=
  ["arrow_function", "function_expression", "function", "generator_function"]

/-- The name of the innermost function around a visit: of the declaration itself, or of the declarator
directly around a nameless function. -/
def hostName? (s : Markings) : List Ancestor → Option Nat
  | [] => none
  | host :: outer =>
    if namedHosts.contains host.kind then (s.mark host.index).link
    else if namelessHosts.contains host.kind then
      match outer with
      | declarator :: _ =>
        if declarator.kind == "variable_declarator" then (s.mark declarator.index).link else none
      | [] => none
    else hostName? s outer

end Markings

end SourceSurvey
