import SourceSurvey.Marking.Action
import SourceSurvey.Proofs.Path.Segments
import SourceSurvey.Proofs.Tree.Declarations
import SourceSurvey.Proofs.Tree.Navigation

/-!
# Paths into object patterns

An object pattern that takes a parameter or a variable apart has a name for what is taken apart
(`Arena.Rooted`), and every pattern inside of it is reached under keys (`Arena.Reached`). So each field has a
path: that name, the keys, and the name of the field. Nothing here mentions the walk or its rules, only that
the name of a parameter is found by its place among the others (`parameterName_eq`).
-/

namespace SourceSurvey

namespace Arena

def parameterKinds : List String := ["required_parameter", "optional_parameter"]

/-- What a parameter is declared to be, without the leading colons; empty if there is nothing. -/
def typeName (a : Arena) (parameter : Nat) : String :=
  ((a.childOfKind? parameter "type_annotation").map fun annotation =>
    String.ofList ((Text.compact (a.text annotation)).toList.dropWhile (· == ':'))).getD ""

/-- How many of the parameters beside this one come before it. -/
def position (a : Arena) (parameter : Nat) : Nat :=
  (((a.parent? parameter).map a.children).getD []).countP fun j =>
    decide (j < parameter) && Text.endsWith "_parameter" (a.kind j)

/-- The name of a parameter that is taken apart: its type, or else its position. -/
def parameterRoot (a : Arena) (parameter : Nat) : String :=
  if a.typeName parameter = "" then "arg" ++ toString (a.position parameter) else a.typeName parameter

/-- The name of a variable that is taken apart: its value, or `_` if it has none. -/
def valueRoot (a : Arena) (declarator : Nat) : String :=
  ((a.childByField? declarator "value").map fun value => Text.compact (a.text value)).getD "_"

inductive RootKind where
  | parameter
  | declared
deriving DecidableEq, Repr

/-- The node is an object pattern that takes a parameter or a variable apart, and this is its name. -/
inductive Rooted (a : Arena) : Nat → RootKind → String → Prop
  | parameter {pattern parameter : Nat} : a.kind pattern = "object_pattern" →
      a.parent? pattern = some parameter → a.kind parameter ∈ parameterKinds →
      Rooted a pattern .parameter (a.parameterRoot parameter)
  | declared {pattern declarator : Nat} : a.kind pattern = "object_pattern" →
      a.field pattern = some "name" → a.parent? pattern = some declarator →
      a.kind declarator = "variable_declarator" → Rooted a pattern .declared (a.valueRoot declarator)

/-- The node is an object pattern that is reached from the one at `start` under these keys. -/
inductive Reached (a : Arena) (start : Nat) : Nat → List String → Prop
  | start : Reached a start start []
  | under {outer pair key pattern : Nat} {keys : List String} : Reached a start outer keys →
      a.parent? pair = some outer → a.kind pair = "pair_pattern" → a.childByField? pair "key" = some key →
      a.parent? pattern = some pair → a.field pattern = some "value" → a.kind pattern = "object_pattern" →
      Reached a start pattern (keys ++ [Text.compact (a.text key)])

/-- The first node is a field, of this name, of the object pattern that is the second. -/
inductive FieldNamed (a : Arena) : Nat → Nat → String → Prop
  | shorthand {field pattern : Nat} : a.kind field = "shorthand_property_identifier_pattern" →
      a.field field ≠ some "value" → a.parent? field = some pattern → a.kind pattern = "object_pattern" →
      FieldNamed a field pattern (Text.compact (a.text field))
  | defaulted {field assignment pattern : Nat} : a.kind field = "shorthand_property_identifier_pattern" →
      a.field field = some "left" → a.parent? field = some assignment →
      a.kind assignment = "object_assignment_pattern" → a.parent? assignment = some pattern →
      a.kind pattern = "object_pattern" → FieldNamed a field pattern (Text.compact (a.text field))
  | paired {field pair key pattern : Nat} : a.kind field = "identifier" → a.field field = some "value" →
      a.parent? field = some pair → a.kind pair = "pair_pattern" → a.childByField? pair "key" = some key →
      a.parent? pair = some pattern → a.kind pattern = "object_pattern" →
      FieldNamed a field pattern (Text.compact (a.text key))

variable {a : Arena} {start pattern field : Nat} {origin : RootKind} {root name : String} {keys : List String}

theorem Rooted.kind (h : a.Rooted start origin root) : a.kind start = "object_pattern" := by
  cases h with
  | parameter kind _ _ => exact kind
  | declared kind _ _ _ => exact kind

theorem Reached.kind (rooted : a.Rooted start origin root) (h : a.Reached start pattern keys) :
    a.kind pattern = "object_pattern" := by
  cases h with
  | start => exact rooted.kind
  | under _ _ _ _ _ _ kind => exact kind

theorem FieldNamed.fieldOf (h : a.FieldNamed field pattern name) : a.FieldOf field pattern := by
  cases h with
  | shorthand kind _ around object => exact .shorthand kind around object
  | defaulted kind held around host outer object => exact .defaulted kind held around host outer object
  | paired kind held around host _ outer object => exact .paired kind held around host outer object

theorem join_path (root : String) (keys : List String) (name : String) :
    Text.join "." (root :: (keys ++ [name])) = Text.join "." (root :: keys) ++ "." ++ name :=
  Text.join_append "." (List.cons_ne_nil root keys) (List.cons_ne_nil name [])

end Arena

/-! ## The name of a parameter -/

/-- Among the members of a sorted list that fulfil a condition, one stands after those that are smaller. -/
theorem findIdx?_filter_of_sorted {l : List Nat} {x : Nat} {p : Nat → Bool} (sorted : l.Pairwise (· < ·))
    (mem : x ∈ l) (hx : p x = true) : (l.filter p).findIdx? (· == x) =
      some (l.countP fun j => decide (j < x) && p j) := by
  induction l with
  | nil => cases mem
  | cons y l ih =>
      rw [List.pairwise_cons] at sorted
      rcases List.mem_cons.mp mem with rfl | later
      · have none_before : l.countP (fun j => decide (j < x) && p j) = 0 := by
          refine List.countP_eq_zero.mpr fun j hj => ?_
          simp [Nat.le_of_lt (sorted.1 j hj)]
        simp [hx, List.findIdx?_cons, none_before]
      · have before := sorted.1 x later
        have next := ih sorted.2 later
        cases hy : p y with
        | false => simpa [List.filter_cons, hy] using next
        | true => simp [hy, List.findIdx?_cons, next, before, Nat.ne_of_lt before]

/-- **A parameter that is taken apart goes by its type, or else by its position.** -/
theorem parameterName_eq {nodes : List FlatNode} {parameter : Nat}
    (host : (Arena.ofNodes nodes).kind parameter ∈ Arena.parameterKinds) :
    parameterName (Arena.ofNodes nodes) parameter = (Arena.ofNodes nodes).parameterRoot parameter := by
  have ending : Text.endsWith "_parameter" ((Arena.ofNodes nodes).kind parameter) = true := by
    have all : ∀ k ∈ Arena.parameterKinds, Text.endsWith "_parameter" k = true := by decide
    exact all _ host
  have placed : ∀ formal, (Arena.ofNodes nodes).parent? parameter = some formal →
      (((Arena.ofNodes nodes).children formal).filter fun j =>
        Text.endsWith "_parameter" ((Arena.ofNodes nodes).kind j)).findIdx? (· == parameter) =
        some ((Arena.ofNodes nodes).position parameter) := by
    intro formal around
    rw [findIdx?_filter_of_sorted (p := fun j => Text.endsWith "_parameter" ((Arena.ofNodes nodes).kind j))
      (Arena.sorted_children _ formal) (Arena.mem_children.mpr around) ending, Arena.position, around]
    rfl
  have first : (Arena.ofNodes nodes).parent? parameter = none → (Arena.ofNodes nodes).position parameter = 0 := by
    intro alone
    rw [Arena.position, alone]
    rfl
  unfold parameterName Arena.parameterRoot Arena.typeName
  cases around : (Arena.ofNodes nodes).parent? parameter with
  | none =>
      cases (Arena.ofNodes nodes).childOfKind? parameter "type_annotation" <;>
        simp only [Option.map_none, Option.map_some, Option.getD_none, Option.getD_some, bne_iff_ne, ne_eq, ite_not,
          List.findIdx?_nil, first around]
  | some formal =>
      cases (Arena.ofNodes nodes).childOfKind? parameter "type_annotation" <;>
        simp only [Option.map_none, Option.map_some, Option.getD_none, Option.getD_some, bne_iff_ne, ne_eq, ite_not,
          placed formal around]

end SourceSurvey
