import SourceSurvey.Tree.Arena

/-!
# Declarations in a syntax tree

Which nodes are names of declarations, which are fields of destructured variables, to which statement
either belongs, and when a statement stands in an export. All of this is said in terms of kinds, fields
and parents; it does not mention the walk or its rules.
-/

namespace SourceSurvey.Arena

def functionKinds : List String := ["function_declaration", "generator_function_declaration"]

def classKinds : List String := ["class_declaration", "abstract_class_declaration", "class"]

def declarationKinds : List String :=
  ["lexical_declaration", "variable_declaration", "method_definition"] ++ functionKinds ++ classKinds

/-- What the grammar promises: a declarator stands in a declaration of variables, and the name of a method
is neither a declaration nor an export. -/
structure Grammatical (a : Arena) : Prop where
  declarator : ∀ d, a.kind d = "variable_declarator" → ∃ statement, a.parent? d = some statement ∧
    (a.kind statement = "lexical_declaration" ∨ a.kind statement = "variable_declaration")
  methodName : ∀ i m, a.parent? i = some m → a.kind m = "method_definition" → a.field i = some "name" →
    a.kind i ≠ "export_statement" ∧ a.kind i ∉ declarationKinds

/-- The node is a child of an export statement that has an earlier child of kind `export`. -/
def InExport (a : Arena) (i : Nat) : Prop :=
  ∃ x keyword, a.parent? i = some x ∧ a.kind x = "export_statement" ∧
    keyword < i ∧ a.parent? keyword = some x ∧ a.kind keyword = "export"

/-- The first node is a declared name, and the second the statement that declares it: around the
declarator of a variable, and else directly around the name. -/
inductive Names (a : Arena) : Nat → Nat → Prop
  | ofVariable {name declarator statement : Nat} : a.kind name = "identifier" → a.field name = some "name" →
      a.parent? name = some declarator → a.kind declarator = "variable_declarator" →
      a.parent? declarator = some statement → Names a name statement
  | ofFunction {name statement : Nat} : a.kind name = "identifier" → a.field name = some "name" →
      a.parent? name = some statement → a.kind statement ∈ functionKinds → Names a name statement
  | ofMethod {name statement : Nat} : a.field name = some "name" → a.parent? name = some statement →
      a.kind statement = "method_definition" → Names a name statement
  | ofClass {name statement : Nat} : a.kind name ∈ ["type_identifier", "identifier"] →
      a.field name = some "name" → a.parent? name = some statement → a.kind statement ∈ classKinds →
      Names a name statement

/-- The first node is an object pattern that takes a declared variable apart, as the pattern of the
declarator itself or inside of another one under a key, and the second is the statement around the
declarator. -/
inductive Destructures (a : Arena) : Nat → Nat → Prop
  | declared {pattern declarator statement : Nat} : a.kind pattern = "object_pattern" →
      a.field pattern = some "name" → a.parent? pattern = some declarator →
      a.kind declarator = "variable_declarator" → a.parent? declarator = some statement →
      Destructures a pattern statement
  | nested {pattern pair outer statement : Nat} : a.kind pattern = "object_pattern" →
      a.field pattern = some "value" → a.parent? pattern = some pair → a.kind pair = "pair_pattern" →
      (a.childByField? pair "key").isSome = true → a.parent? pair = some outer →
      Destructures a outer statement → Destructures a pattern statement

/-- The first node is a field of the object pattern that is the second. -/
inductive FieldOf (a : Arena) : Nat → Nat → Prop
  | shorthand {field pattern : Nat} : a.kind field = "shorthand_property_identifier_pattern" →
      a.parent? field = some pattern → a.kind pattern = "object_pattern" → FieldOf a field pattern
  | defaulted {field assignment pattern : Nat} : a.kind field = "shorthand_property_identifier_pattern" →
      a.field field = some "left" → a.parent? field = some assignment →
      a.kind assignment = "object_assignment_pattern" → a.parent? assignment = some pattern →
      a.kind pattern = "object_pattern" → FieldOf a field pattern
  | paired {field pair pattern : Nat} : a.kind field = "identifier" → a.field field = some "value" →
      a.parent? field = some pair → a.kind pair = "pair_pattern" → a.parent? pair = some pattern →
      a.kind pattern = "object_pattern" → FieldOf a field pattern

/-- The first node is a field of a destructured variable that the second, a statement, declares. -/
def Destructured (a : Arena) (field statement : Nat) : Prop :=
  ∃ pattern, a.FieldOf field pattern ∧ a.Destructures pattern statement

/-- The first node is a name or a destructured field, and the second the statement that declares it. -/
def Declares (a : Arena) (i statement : Nat) : Prop :=
  a.Names i statement ∨ a.Destructured i statement

variable {a : Arena} {i pattern pattern' statement statement' : Nat}

/-! ## What is around names and fields -/

def nameHosts : List String := ["variable_declarator", "method_definition"] ++ functionKinds ++ classKinds

def fieldHosts : List String := ["object_pattern", "object_assignment_pattern", "pair_pattern"]

theorem Names.around (h : a.Names i statement) : ∃ p, a.parent? i = some p ∧ a.kind p ∈ nameHosts := by
  cases h with
  | ofVariable _ _ around kind _ => exact ⟨_, around, by simp [nameHosts, kind]⟩
  | ofFunction _ _ around kind => exact ⟨_, around, by simp [nameHosts, kind]⟩
  | ofMethod _ around kind => exact ⟨_, around, by simp [nameHosts, kind]⟩
  | ofClass _ _ around kind => exact ⟨_, around, by simp [nameHosts, kind]⟩

theorem FieldOf.around (h : a.FieldOf i pattern) : ∃ p, a.parent? i = some p ∧ a.kind p ∈ fieldHosts := by
  cases h with
  | shorthand _ around kind => exact ⟨_, around, by simp [fieldHosts, kind]⟩
  | defaulted _ _ around kind => exact ⟨_, around, by simp [fieldHosts, kind]⟩
  | paired _ _ around kind => exact ⟨_, around, by simp [fieldHosts, kind]⟩

/-- A node around a name and a node around a field are of different kinds. -/
theorem Names.not_fieldOf (h : a.Names i statement) : ¬ a.FieldOf i pattern := by
  intro h'
  obtain ⟨p, around, named⟩ := h.around
  obtain ⟨p', around', held⟩ := h'.around
  obtain rfl : p = p' := Option.some.inj (around.symm.trans around')
  have apart : ∀ k ∈ nameHosts, k ∉ fieldHosts := by decide
  exact apart _ named held

theorem Declares.exists_parent? (h : a.Declares i statement) : ∃ p, a.parent? i = some p := by
  rcases h with h | ⟨pattern, h, -⟩
  · exact h.around.imp fun _ => And.left
  · exact h.around.imp fun _ => And.left

theorem not_declares {p : Nat} (around : a.parent? i = some p) (other : a.kind p ∉ nameHosts ++ fieldHosts) :
    ¬ a.Declares i statement := by
  rintro (h | ⟨pattern, h, -⟩)
  · obtain ⟨p', around', host⟩ := h.around
    obtain rfl := Option.some.inj (around.symm.trans around')
    exact other (List.mem_append_left _ host)
  · obtain ⟨p', around', host⟩ := h.around
    obtain rfl := Option.some.inj (around.symm.trans around')
    exact other (List.mem_append_right _ host)

/-! ## One statement for each -/

theorem Names.unique (h : a.Names i statement) (h' : a.Names i statement') : statement = statement' := by
  cases h <;> cases h' <;> grind [functionKinds, classKinds]

theorem FieldOf.unique (h : a.FieldOf i pattern) (h' : a.FieldOf i pattern') : pattern = pattern' := by
  cases h <;> cases h' <;> grind

theorem Destructures.unique (h : a.Destructures pattern statement) (h' : a.Destructures pattern statement') :
    statement = statement' := by
  induction h with
  | declared => cases h' <;> grind
  | nested _ _ around kind _ outer _ ih =>
      cases h' with
      | declared => grind
      | nested _ _ around' _ _ outer' inner =>
          obtain rfl := Option.some.inj (around.symm.trans around')
          obtain rfl := Option.some.inj (outer.symm.trans outer')
          exact ih inner

/-- **A node is declared by one statement.** -/
theorem Declares.unique (h : a.Declares i statement) (h' : a.Declares i statement') :
    statement = statement' := by
  rcases h with h | ⟨pattern, field, h⟩
  · rcases h' with h' | ⟨pattern', field', -⟩
    · exact h.unique h'
    · exact absurd field' h.not_fieldOf
  · rcases h' with h' | ⟨pattern', field', h'⟩
    · exact absurd field h'.not_fieldOf
    · obtain rfl := field.unique field'
      exact h.unique h'

/-! ## Kinds -/

def carrierKinds : List String := ["export_statement", "variable_declarator"] ++ declarationKinds

theorem FieldOf.kind (h : a.FieldOf i pattern) : a.kind i ∉ carrierKinds := by
  cases h with
  | shorthand kind => exact kind ▸ by decide
  | defaulted kind => exact kind ▸ by decide
  | paired kind => exact kind ▸ by decide

namespace Grammatical

variable (g : a.Grammatical)

include g

/-- What is declared does not hand on exports itself. -/
theorem kind_of_declares (h : a.Declares i statement) : a.kind i ∉ carrierKinds := by
  rcases h with h | ⟨pattern, h, -⟩
  · cases h with
    | ofVariable kind => exact kind ▸ by decide
    | ofFunction kind => exact kind ▸ by decide
    | ofClass kind =>
        have plain : ∀ k ∈ ["type_identifier", "identifier"], k ∉ carrierKinds := by decide
        exact plain _ kind
    | ofMethod field around kind =>
        obtain ⟨noExport, noDeclaration⟩ := g.methodName _ _ around kind field
        have noDeclarator : a.kind i ≠ "variable_declarator" := by
          intro declarator
          obtain ⟨p, around', kind'⟩ := g.declarator i declarator
          obtain rfl := Option.some.inj (around.symm.trans around')
          rw [kind] at kind'
          revert kind'
          decide
        simp [carrierKinds, noExport, noDeclarator, noDeclaration]
  · exact h.kind

theorem kind_statement_of_declarator {d : Nat} (kind : a.kind d = "variable_declarator")
    (around : a.parent? d = some statement) : a.kind statement ∈ declarationKinds := by
  obtain ⟨p, around', kind⟩ := g.declarator d kind
  obtain rfl := Option.some.inj (around.symm.trans around')
  rcases kind with kind | kind
  · exact kind ▸ by decide
  · exact kind ▸ by decide

theorem kind_of_names (h : a.Names i statement) : a.kind statement ∈ declarationKinds := by
  cases h with
  | ofVariable _ _ _ kind around => exact g.kind_statement_of_declarator kind around
  | ofFunction _ _ _ kind => simp [declarationKinds, kind]
  | ofMethod _ _ kind => simp [declarationKinds, kind]
  | ofClass _ _ _ kind => simp [declarationKinds, kind]

end Grammatical

end SourceSurvey.Arena
