import Mathlib.Logic.Relation
import SourceSurvey.Marking.Guard
import SourceSurvey.Proofs.Tree.Ancestry
import SourceSurvey.Proofs.Tree.Chain
import SourceSurvey.Proofs.Tree.Navigation

/-!
# Up and down an access chain

The text of an access chain is made on the way down: at each node from the chains at some of its children
(`Arena.Part`). Whether an access is part of a longer chain is asked on the way up, through wrappers and
subscripts, until something is found that continues the access or not (`Arena.Continued`). The two ways agree:
what a chain passes through is continued (`Arena.Passes.continued`), and what is continued is passed through
by a chain that begins at a callee, at a tag or at an access that is not continued (`Arena.exists_begins`), as
long as every wrapper holds one thing.
-/

namespace SourceSurvey.Arena

open Relation

/-! ## The way down -/

/-- The chain at the first node goes on at the second. -/
inductive Part (a : Arena) : Nat → Nat → Prop
  | access {i j : Nat} : a.kind i ∈ chainKinds → j ∈ a.children i → a.kind j ∉ dotKinds → Part a i j
  | callee {i j : Nat} : a.kind i = "call_expression" → a.childByField? i "function" = some j → Part a i j
  | object {i j : Nat} : a.kind i = "subscript_expression" → a.childByField? i "object" = some j → Part a i j
  | parenthesized {i j : Nat} : a.kind i = "parenthesized_expression" →
      ((a.children i).find? fun j => a.kind j != "(" && a.kind j != ")") = some j → Part a i j
  | nonNull {i j : Nat} : a.kind i = "non_null_expression" →
      ((a.children i).find? fun j => a.kind j != "!") = some j → Part a i j

/-- The text of the chain at the first node is made with that of the chain at the second. -/
def Passes (a : Arena) : Nat → Nat → Prop :=
  ReflTransGen a.Part

section Text

variable {a : Arena} {chain chain' : Nat → String} {i j : Nat}

/-- **The chain at a node is made from the chains at its parts, and from no other.** -/
theorem chainStep_congr (same : ∀ j, a.Part i j → chain j = chain' j) :
    a.chainStep chain i = a.chainStep chain' i := by
  by_cases access : a.kind i ∈ chainKinds
  · rw [chainStep_access access, chainStep_access access]
    refine congrArg String.join (List.map_congr_left fun j hj => ?_)
    by_cases dot : a.kind j ∈ dotKinds
    · simp [dot]
    · simp [dot, same j (.access access hj dot)]
  by_cases call : a.kind i = "call_expression"
  · rw [chainStep_call call, chainStep_call call]
    cases held : a.childByField? i "function" with
    | none => rfl
    | some callee => simp [same callee (.callee call held)]
  by_cases subscript : a.kind i = "subscript_expression"
  · rw [chainStep_subscript subscript, chainStep_subscript subscript]
    cases held : a.childByField? i "object" with
    | none => rfl
    | some object => simp [same object (.object subscript held)]
  by_cases parens : a.kind i = "parenthesized_expression"
  · rw [chainStep_parenthesized parens, chainStep_parenthesized parens]
    cases found : (a.children i).find? fun j => a.kind j != "(" && a.kind j != ")" with
    | none => rfl
    | some inner => simp [same inner (.parenthesized parens found)]
  by_cases nonNull : a.kind i = "non_null_expression"
  · rw [chainStep_nonNull nonNull, chainStep_nonNull nonNull]
    cases found : (a.children i).find? fun j => a.kind j != "!" with
    | none => rfl
    | some inner => simp [same inner (.nonNull nonNull found)]
  simp [chainStep, access, call, subscript, parens, nonNull]

theorem Part.chainStep_infix (part : a.Part i j) : (chain j).toList <:+: (a.chainStep chain i).toList := by
  cases part with
  | access kind child other =>
      rw [chainStep_access kind, String.toList_join, List.flatMap_def]
      have listed : chain j ∈ (a.children i).map fun j =>
          if dotKinds.contains (a.kind j) then a.text j else chain j :=
        List.mem_map.mpr ⟨j, child, by simp [other]⟩
      exact List.infix_of_mem_flatten (List.mem_map_of_mem listed)
  | callee kind held =>
      rw [chainStep_call kind, held]
      exact ⟨[], "()".toList, by simp⟩
  | object kind held =>
      rw [chainStep_subscript kind, held]
      exact ⟨[], _, by simp [String.toList_append]; rfl⟩
  | parenthesized kind found =>
      rw [chainStep_parenthesized kind, found]
      exact ⟨['('], [')'], by simp⟩
  | nonNull kind found =>
      rw [chainStep_nonNull kind, found]
      exact ⟨[], ['!'], by simp⟩

end Text

variable {nodes : List FlatNode} {i j : Nat}

theorem Part.parent (part : (ofNodes nodes).Part i j) : (ofNodes nodes).parent? j = some i := by
  refine mem_children.mp ?_
  cases part with
  | access _ child _ => exact child
  | callee _ held | object _ held => exact List.mem_of_find?_eq_some held
  | parenthesized _ found | nonNull _ found => exact List.mem_of_find?_eq_some found

/-- **What a chain passes through is in its text.** -/
theorem Passes.chainText_infix (passes : (ofNodes nodes).Passes i j) :
    ((ofNodes nodes).chainText j).toList <:+: ((ofNodes nodes).chainText i).toList := by
  induction passes with
  | refl => exact List.infix_refl _
  | @tail m j _ part ih =>
      refine List.IsInfix.trans ?_ ih
      have inside : m < (ofNodes nodes).size :=
        Nat.lt_trans (spec_of_parent? part.parent).1 (lt_length_of_parent? part.parent)
      rw [chainText_eq_chainStep inside]
      exact part.chainStep_infix

/-! ## The way up -/

/-- The node is part of a longer chain, a callee or the name of a tag, directly or through wrappers and
subscripts. -/
inductive Continued (a : Arena) : Nat → Prop
  | access {i p : Nat} : a.parent? i = some p → a.kind p ∈ chainKinds → Continued a i
  | tag {i p : Nat} : a.parent? i = some p → a.kind p ∈ tagParents → Continued a i
  | callee {i p : Nat} : a.parent? i = some p → a.kind p = "call_expression" → a.field i = some "function" →
      Continued a i
  | constructed {i p : Nat} : a.parent? i = some p → a.kind p = "new_expression" →
      a.field i = some "constructor" → Continued a i
  | wrapped {i p : Nat} : a.parent? i = some p → a.kind p ∈ chainWrappers → Continued a p → Continued a i
  | object {i p : Nat} : a.parent? i = some p → a.kind p = "subscript_expression" → a.field i = some "object" →
      Continued a p → Continued a i

theorem continued_iff {a : Arena} {i p : Nat} (around : a.parent? i = some p) : a.Continued i ↔
    (a.kind p ∈ chainWrappers ∨ a.kind p = "subscript_expression" ∧ a.field i = some "object") ∧ a.Continued p ∨
      a.kind p ∈ chainKinds ∨ a.kind p ∈ tagParents ∨ a.kind p = "call_expression" ∧ a.field i = some "function" ∨
      a.kind p = "new_expression" ∧ a.field i = some "constructor" := by
  constructor
  · intro continued
    cases continued with
    | access around' access =>
        cases around.symm.trans around'
        exact .inr (.inl access)
    | tag around' tag =>
        cases around.symm.trans around'
        exact .inr (.inr (.inl tag))
    | callee around' kind held =>
        cases around.symm.trans around'
        exact .inr (.inr (.inr (.inl ⟨kind, held⟩)))
    | constructed around' kind held =>
        cases around.symm.trans around'
        exact .inr (.inr (.inr (.inr ⟨kind, held⟩)))
    | wrapped around' wrapped outer =>
        cases around.symm.trans around'
        exact .inl ⟨.inl wrapped, outer⟩
    | object around' kind held outer =>
        cases around.symm.trans around'
        exact .inl ⟨.inr ⟨kind, held⟩, outer⟩
  · rintro (⟨wrapped | ⟨kind, held⟩, outer⟩ | access | tag | ⟨kind, held⟩ | ⟨kind, held⟩)
    · exact .wrapped around wrapped outer
    · exact .object around kind held outer
    · exact .access around access
    · exact .tag around tag
    · exact .callee around kind held
    · exact .constructed around kind held

/-- **The climb finds out whether a node is continued.** -/
theorem isOutermost_iff (i : Nat) : Guard.isOutermost ((ofNodes nodes).field i)
      ((((ofNodes nodes).lineage i).drop 1).map (ofNodes nodes).ancestor) = true ↔
    ¬ (ofNodes nodes).Continued i := by
  induction i using Nat.strong_induction_on with
  | _ i ih =>
      cases around : (ofNodes nodes).parent? i with
      | none =>
          rw [lineage_eq, around]
          refine iff_of_true rfl fun continued => ?_
          cases continued <;> simp_all
      | some p =>
          have climb := ih p (spec_of_parent? around).1
          have line : ((ofNodes nodes).lineage i).drop 1 = p :: ((ofNodes nodes).lineage p).drop 1 := by
            rw [lineage_of_parent? around, lineage_eq p]
            rfl
          rw [line, List.map_cons, Guard.isOutermost, continued_iff around]
          have apart : ∀ k ∈ "subscript_expression" :: chainWrappers, k ∉ chainKinds ∧ k ∉ tagParents ∧
              k ≠ "call_expression" ∧ k ≠ "new_expression" := by decide
          by_cases climbs : (ofNodes nodes).kind p ∈ chainWrappers ∨
              (ofNodes nodes).kind p = "subscript_expression" ∧ (ofNodes nodes).field i = some "object"
          · have plain := apart ((ofNodes nodes).kind p) (by
              rcases climbs with wrapper | ⟨subscript, -⟩
              · exact List.mem_cons_of_mem _ wrapper
              · rw [subscript]
                exact List.mem_cons_self)
            rw [if_pos (by simpa [ancestor] using climbs)]
            refine climb.trans ?_
            simp [climbs, plain]
          · rw [if_neg (by simpa [ancestor] using climbs)]
            simp [-not_and, climbs, ancestor, and_assoc, not_and_or]

def climbedKinds : List String := "subscript_expression" :: chainWrappers

theorem Part.continued (part : (ofNodes nodes).Part i j)
    (outer : (ofNodes nodes).Continued i ∨ (ofNodes nodes).kind i ∉ climbedKinds) :
    (ofNodes nodes).Continued j := by
  have around := part.parent
  have climbed : (ofNodes nodes).kind i ∈ climbedKinds → (ofNodes nodes).Continued i := fun kind =>
    outer.resolve_right fun other => other kind
  cases part with
  | access kind => exact .access around kind
  | callee kind held => exact .callee around kind (by simpa using List.find?_some held)
  | object kind held =>
      exact .object around kind (by simpa using List.find?_some held) (climbed (by simp [kind, climbedKinds]))
  | parenthesized kind | nonNull kind =>
      have wrapper : (ofNodes nodes).kind i ∈ chainWrappers := by simp [kind, chainWrappers]
      exact .wrapped around wrapper (climbed (List.mem_cons_of_mem _ wrapper))

/-- **What a chain passes through is continued**, its first node apart. -/
theorem Passes.continued (passes : (ofNodes nodes).Passes i j)
    (outer : (ofNodes nodes).Continued i ∨ (ofNodes nodes).kind i ∉ climbedKinds) :
    j = i ∨ (ofNodes nodes).Continued j := by
  induction passes with
  | refl => exact .inl rfl
  | tail _ part ih =>
      refine .inr (part.continued ?_)
      rcases ih with rfl | continued
      · exact outer
      · exact .inl continued

/-! ## Chains that are shown -/

/-- A chain that is shown at the first node begins at the second: an access that is shown itself, the callee of
a call, or the name of a tag. -/
inductive Begins (a : Arena) (shown : Nat → Prop) : Nat → Nat → Prop
  | access {m : Nat} : shown m → Begins a shown m m
  | call {c callee : Nat} : a.kind c = "call_expression" → a.childByField? c "function" = some callee →
      Begins a shown c callee
  | construct {c callee : Nat} : a.kind c = "new_expression" → a.childByField? c "constructor" = some callee →
      Begins a shown c callee
  | tag {name p : Nat} : a.kind name ∈ tagKinds → a.parent? name = some p → a.kind p ∈ tagParents →
      Begins a shown name name

/-- Every wrapper holds one thing, no node holds two things under one of the fields that chains follow, and the
name of a tag is in no wrapper. -/
structure WellWrapped (a : Arena) : Prop where
  parenthesized : ∀ i, a.kind i = "parenthesized_expression" →
    ∃ inner, ((a.children i).filter fun j => a.kind j != "(" && a.kind j != ")") = [inner]
  nonNull : ∀ i, a.kind i = "non_null_expression" →
    ∃ inner, ((a.children i).filter fun j => a.kind j != "!") = [inner]
  held : ∀ p i j, ∀ field ∈ ["function", "constructor", "object"], a.parent? i = some p → a.parent? j = some p →
    a.field i = some field → a.field j = some field → i = j
  tag : ∀ i p, a.parent? i = some p → a.kind p ∈ tagParents → a.kind i ∉ climbedKinds

theorem find?_of_filter {l : List Nat} {q : Nat → Bool} {inner x : Nat} (only : l.filter q = [inner])
    (mem : x ∈ l) (hx : q x = true) : l.find? q = some x := by
  have own := List.mem_filter.mpr ⟨mem, hx⟩
  rw [only] at own
  rw [← List.head?_filter, only, List.mem_singleton.mp own, List.head?_cons]

def linkKinds : List String := "member_expression" :: climbedKinds

namespace WellWrapped

variable (w : (ofNodes nodes).WellWrapped) {p : Nat} (around : (ofNodes nodes).parent? i = some p)

include w around

theorem childByField?_eq {field : String} (listed : field ∈ ["function", "constructor", "object"])
    (held : (ofNodes nodes).field i = some field) : (ofNodes nodes).childByField? p field = some i := by
  have child := mem_children.mpr around
  cases found : (ofNodes nodes).childByField? p field with
  | none =>
      have other := List.find?_eq_none.mp found i child
      simp [held] at other
  | some j =>
      have around' := mem_children.mp (List.mem_of_find?_eq_some found)
      have held' : (ofNodes nodes).field j = some field := by simpa using List.find?_some found
      rw [w.held p i j field listed around around' held held']

theorem part_of_wrapper (wrapper : (ofNodes nodes).kind p ∈ chainWrappers)
    (kind : (ofNodes nodes).kind i ∈ linkKinds) : (ofNodes nodes).Part p i := by
  have child := mem_children.mpr around
  have plain : ∀ k ∈ linkKinds, k ≠ "(" ∧ k ≠ ")" ∧ k ≠ "!" := by decide
  obtain ⟨noOpening, noClosing, noMark⟩ := plain _ kind
  simp only [chainWrappers, List.mem_cons, List.not_mem_nil, or_false] at wrapper
  rcases wrapper with parens | nonNull
  · obtain ⟨inner, only⟩ := w.parenthesized p parens
    exact .parenthesized parens (find?_of_filter only child (by simp [noOpening, noClosing]))
  · obtain ⟨inner, only⟩ := w.nonNull p nonNull
    exact .nonNull nonNull (find?_of_filter only child (by simp [noMark]))

end WellWrapped

/-- **What is continued is passed through by a chain that is shown**, if no access and no wrapper is in a nested
name. -/
theorem exists_begins (w : (ofNodes nodes).WellWrapped)
    (nested : ∀ i p, (ofNodes nodes).parent? i = some p → (ofNodes nodes).kind p = "nested_identifier" →
      (ofNodes nodes).kind i ∉ linkKinds)
    (kind : (ofNodes nodes).kind i ∈ linkKinds) (continued : (ofNodes nodes).Continued i) :
    ∃ owner start, (ofNodes nodes).Begins
        (fun m => (ofNodes nodes).kind m = "member_expression" ∧ ¬ (ofNodes nodes).Continued m) owner start ∧
      (ofNodes nodes).kind start ∈ linkKinds ∧ (ofNodes nodes).Passes start i := by
  -- the climb goes from parent to parent, and on to the access around a chain that has come to its end
  induction i using Nat.strong_induction_on with
  | _ i ih =>
      cases continued with
      | @access _ p around access =>
          have before := (spec_of_parent? around).1
          have noDot : ∀ k ∈ linkKinds, k ∉ dotKinds := by decide
          have part : (ofNodes nodes).Part p i := .access access (mem_children.mpr around) (noDot _ kind)
          simp only [chainKinds, List.mem_cons, List.not_mem_nil, or_false] at access
          rcases access with access | name
          · by_cases outer : (ofNodes nodes).Continued p
            · obtain ⟨owner, start, begins, link, passes⟩ := ih p before (by simp [access, linkKinds]) outer
              exact ⟨owner, start, begins, link, passes.tail part⟩
            · exact ⟨p, p, .access ⟨access, outer⟩, by simp [access, linkKinds], .single part⟩
          · exact absurd kind (nested i p around name)
      | @tag _ p around tag =>
          have access : (ofNodes nodes).kind i = "member_expression" := by
            simpa [linkKinds, w.tag i p around tag] using kind
          exact ⟨i, i, .tag (by simp [access, tagKinds]) around tag, kind, .refl⟩
      | callee around call held =>
          exact ⟨_, i, .call call (w.childByField?_eq around (by simp) held), kind, .refl⟩
      | constructed around new held =>
          exact ⟨_, i, .construct new (w.childByField?_eq around (by simp) held), kind, .refl⟩
      | @wrapped _ p around wrapper outer =>
          obtain ⟨owner, start, begins, link, passes⟩ := ih p (spec_of_parent? around).1
            (List.mem_cons_of_mem _ (List.mem_cons_of_mem _ wrapper)) outer
          exact ⟨owner, start, begins, link, passes.tail (w.part_of_wrapper around wrapper kind)⟩
      | @object _ p around subscript held outer =>
          obtain ⟨owner, start, begins, link, passes⟩ := ih p (spec_of_parent? around).1
            (by simp [subscript, linkKinds, climbedKinds]) outer
          have part : (ofNodes nodes).Part p i := .object subscript (w.childByField?_eq around (by simp) held)
          exact ⟨owner, start, begins, link, passes.tail part⟩

end SourceSurvey.Arena
