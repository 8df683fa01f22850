import SourceSurvey.Marking.Visit
import SourceSurvey.Tree.Arena

/-!
# Guards

A guard is a question about a visit that a pattern cannot ask: about the children of nodes on the trail,
or about a climb of any length.
-/

namespace SourceSurvey

def tagKinds : List String :=
  ["identifier", "member_expression", "nested_identifier", "jsx_namespace_name"]

def callbackKinds : List String := ["arrow_function", "function_expression", "function"]

def tagParents : List String :=
  ["jsx_opening_element", "jsx_closing_element", "jsx_self_closing_element"]

/-- The kinds that can wrap a part of an access chain. -/
def chainWrappers : List String := ["parenthesized_expression", "non_null_expression"]

inductive Guard where
  /-- The tag has no name. -/
  | nameless
  /-- The access is not part of a longer chain, a callee or a tag. -/
  | outermostChain
  /-- A function is among the arguments. -/
  | callbackPassed
deriving DecidableEq, Repr

namespace Guard

/-- An access under `field` below the given ancestors is the outermost of its chain. Wrappers, and
subscripts of which it is the object, are climbed through first. -/
def isOutermost (field : Option String) : List Ancestor → Bool
  | [] => true
  | parent :: outer =>
    if chainWrappers.contains parent.kind
        || (parent.kind == "subscript_expression" && field == some "object") then
      isOutermost parent.field outer
    else
      !Arena.chainKinds.contains parent.kind && !tagParents.contains parent.kind
        && !(parent.kind == "call_expression" && field == some "function")
        && !(parent.kind == "new_expression" && field == some "constructor")

def holds (a : Arena) (v : Visit) : Guard → Bool
  | nameless => !(a.children v.index).any fun j => tagKinds.contains (a.kind j)
  | outermostChain => isOutermost (a.field v.index) (v.trail.nodes.drop 1)
  | callbackPassed =>
    match v.trail.outward? 1 with
    | some arguments => (a.children arguments.index).any fun j => callbackKinds.contains (a.kind j)
    | none => false

end Guard

end SourceSurvey
