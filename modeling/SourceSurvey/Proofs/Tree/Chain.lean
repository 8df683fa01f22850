import SourceSurvey.Tree.Arena

/-!
# One step of an access chain

The text of an access chain with the recursion taken out: `chainStep` says how the chain at a node is
made up from the chains at its children, whichever function gives those. It is the recursion's own
equation (`chainText_eq_chainStep`), freed of the membership proofs by which the recursion ends. The stack on
which the recursion runs is taken to be unlimited: a chain of any depth has a text.
-/

namespace SourceSurvey.Arena

/-- The access chain at node `i`, where `chain` gives the access chains at its children. -/
def chainStep (a : Arena) (chain : Nat → String) (i : Nat) : String :=
  if chainKinds.contains (a.kind i) then
    String.join ((a.children i).map fun j => if dotKinds.contains (a.kind j) then a.text j else chain j)
  else if a.kind i = "call_expression" then
    match a.childByField? i "function" with
    | some callee => chain callee ++ "()"
    | none => ""
  else if a.kind i = "subscript_expression" then
    match a.childByField? i "object" with
    | some object =>
      let index := match a.childByField? i "index" with
        | some key => Text.compact (a.text key)
        | none => ""
      chain object ++ "[" ++ index ++ "]"
    | none => ""
  else if a.kind i = "parenthesized_expression" then
    match (a.children i).find? fun j => a.kind j != "(" && a.kind j != ")" with
    | some inner => "(" ++ chain inner ++ ")"
    | none => ""
  else if a.kind i = "non_null_expression" then
    match (a.children i).find? fun j => a.kind j != "!" with
    | some inner => chain inner ++ "!"
    | none => ""
  else if nameKinds.contains (a.kind i) then Text.compact (a.text i)
  else ""

theorem chainText_eq_chainStep {a : Arena} {i : Nat} (hi : i < a.size) :
    a.chainText i = a.chainStep a.chainText i := by
  rw [chainText, if_pos hi]
  simp only [chainStep, childByField?]
  split
  · simp
  · split
    · split <;> next h => rw [h]
    · split
      · split
        · next h =>
          cases (a.children i).find? fun j => a.field j == some "index" with
          | none => rw [h]
          | some key => rw [h]
        · next h => rw [h]
      · split
        · split <;> next h => rw [h]
        · split
          · split <;> next h => rw [h]
          · rfl

/-! ## The step for each kind -/

variable {a : Arena} {chain : Nat → String} {i : Nat}

theorem chainStep_access (h : a.kind i ∈ chainKinds) : a.chainStep chain i =
    String.join ((a.children i).map fun j => if dotKinds.contains (a.kind j) then a.text j else chain j) := by
  simp [chainStep, h]

theorem chainStep_call (h : a.kind i = "call_expression") : a.chainStep chain i =
    match a.childByField? i "function" with
    | some callee => chain callee ++ "()"
    | none => "" := by
  simp [chainStep, h, chainKinds]

theorem chainStep_subscript (h : a.kind i = "subscript_expression") : a.chainStep chain i =
    match a.childByField? i "object" with
    | some object => chain object ++ "[" ++ (match a.childByField? i "index" with
        | some key => Text.compact (a.text key)
        | none => "") ++ "]"
    | none => "" := by
  simp [chainStep, h, chainKinds]

theorem chainStep_parenthesized (h : a.kind i = "parenthesized_expression") : a.chainStep chain i =
    match (a.children i).find? fun j => a.kind j != "(" && a.kind j != ")" with
    | some inner => "(" ++ chain inner ++ ")"
    | none => "" := by
  simp [chainStep, h, chainKinds]

theorem chainStep_nonNull (h : a.kind i = "non_null_expression") : a.chainStep chain i =
    match (a.children i).find? fun j => a.kind j != "!" with
    | some inner => chain inner ++ "!"
    | none => "" := by
  simp [chainStep, h, chainKinds]

theorem chainStep_name (h : a.kind i ∈ nameKinds) : a.chainStep chain i = Text.compact (a.text i) := by
  have apart : ∀ k ∈ nameKinds, k ∉ chainKinds ∧ k ≠ "call_expression" ∧ k ≠ "subscript_expression" ∧
      k ≠ "parenthesized_expression" ∧ k ≠ "non_null_expression" := by decide
  obtain ⟨noAccess, noCall, noSubscript, noParens, nonNull⟩ := apart _ h
  simp [chainStep, h, noAccess, noCall, noSubscript, noParens, nonNull]

end SourceSurvey.Arena
