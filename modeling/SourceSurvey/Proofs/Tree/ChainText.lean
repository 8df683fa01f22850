import SourceSurvey.Proofs.Tree.Ancestry
import SourceSurvey.Proofs.Tree.Chain

/-!
# Access chains in their source

The text of an inner node is that of its children, with blanks anywhere between them (`Text.Spaced`). Freeing
a text of blanks goes through its parts (`Text.compact_of_spaced`), and the access chain at a node is put
together from the chains at its children. So the chain at a node is the text of the node without blanks
(`Arena.chainText_of_chain`), however long the chain is and however its wrappers and subscripts are nested.
-/

namespace SourceSurvey

/-! ## Parts of a text -/

namespace Text

/-- The text is made up of the parts, in order, with any blanks before, between and behind them. -/
inductive Spaced : List String → List Char → Prop
  | nil (gap : List Char) : gap.all isBlank = true → Spaced [] gap
  | cons (gap : List Char) {part : String} {parts : List String} {rest : List Char} :
      gap.all isBlank = true → Spaced parts rest → Spaced (part :: parts) (gap ++ part.toList ++ rest)

theorem filter_blanks {gap : List Char} (blank : gap.all isBlank = true) :
    gap.filter (fun c => !isBlank c) = [] := by
  rw [List.filter_eq_nil_iff]
  intro c hc
  rw [List.all_eq_true.mp blank c hc]
  decide

/-- **A text without blanks is made up of its parts without blanks.** -/
theorem compact_of_spaced {parts : List String} {text : String} (h : Spaced parts text.toList) :
    compact text = String.join (parts.map compact) := by
  have chars : ∀ {parts : List String} {cs : List Char}, Spaced parts cs →
      cs.filter (fun c => !isBlank c) = (String.join (parts.map compact)).toList := by
    intro parts cs h
    induction h with
    | nil _ blank => simp [filter_blanks blank]
    | cons _ blank _ ih => simp [filter_blanks blank, ih]
  rw [compact, chars h, String.ofList_toList]

theorem compact_of_plain {text : String} (plain : text.toList.any isBlank = false) : compact text = text := by
  have all : text.toList.filter (fun c => !isBlank c) = text.toList := by
    rw [List.filter_eq_self]
    intro c hc
    rw [List.any_eq_false] at plain
    simpa using plain c hc
  rw [compact, all, String.ofList_toList]

end Text

/-! ## Chains -/

namespace Arena

/-- The node is a token: it shows its own kind. -/
structure Token (a : Arena) (i : Nat) (shown : String) : Prop where
  kind : a.kind i = shown
  text : a.text i = shown

/-- The text of the node is that of its children, with blanks anywhere between them. -/
def Spells (a : Arena) (i : Nat) : Prop :=
  Text.Spaced ((a.children i).map a.text) (a.text i).toList

/-- The node is an access chain as it stands in a source: a name, or names and chains with dots between them,
a chain in parentheses or with a mark that it is not null, or a chain with any index in brackets. -/
inductive Chain (a : Arena) : Nat → Prop
  | name {i : Nat} : a.kind i ∈ nameKinds → Chain a i
  | access {i : Nat} : a.kind i ∈ chainKinds → a.Spells i →
      (∀ j ∈ a.children i, a.kind j ∈ dotKinds → (a.text j).toList.any Text.isBlank = false) →
      (∀ j ∈ a.children i, a.kind j ∉ dotKinds → Chain a j) → Chain a i
  | parenthesized {i l inner r : Nat} : a.kind i = "parenthesized_expression" → a.Spells i →
      a.children i = [l, inner, r] → a.Token l "(" → Chain a inner → a.Token r ")" → Chain a i
  | nonNull {i inner r : Nat} : a.kind i = "non_null_expression" → a.Spells i →
      a.children i = [inner, r] → Chain a inner → a.Token r "!" → Chain a i
  | subscript {i object l index r : Nat} : a.kind i = "subscript_expression" → a.Spells i →
      a.children i = [object, l, index, r] → a.field object = some "object" → Chain a object →
      a.Token l "[" → a.field l ≠ some "index" → a.field index = some "index" → a.Token r "]" → Chain a i

def chainedKinds : List String :=
  nameKinds ++ chainKinds ++ ["parenthesized_expression", "non_null_expression", "subscript_expression"]

theorem Chain.kind {a : Arena} {i : Nat} (h : a.Chain i) : a.kind i ∈ chainedKinds := by
  cases h with
  | name kind => exact List.mem_append_left _ (List.mem_append_left _ kind)
  | access kind => exact List.mem_append_left _ (List.mem_append_right _ kind)
  | parenthesized kind | nonNull kind | subscript kind =>
      rw [kind]
      decide

variable {nodes : List FlatNode} {i : Nat}

theorem Chain.lt_size (h : (ofNodes nodes).Chain i) : i < (ofNodes nodes).size := by
  have named : ∀ k ∈ chainedKinds, k ≠ "" := by decide
  have present : i < nodes.length := lt_length_of_kind (named _ h.kind)
  simpa [size, ofNodes] using present

/-- **The access chain at a node is its text without blanks.** -/
theorem chainText_of_chain (h : (ofNodes nodes).Chain i) :
    (ofNodes nodes).chainText i = Text.compact ((ofNodes nodes).text i) := by
  have tokens : ∀ k ∈ ["(", ")", "!", "[", "]"], Text.compact k = k := by decide
  have plain : ∀ k ∈ chainedKinds, k ≠ "(" ∧ k ≠ ")" ∧ k ≠ "!" := by decide
  rw [chainText_eq_chainStep h.lt_size]
  induction h with
  | name kind => rw [chainStep_name kind]
  | access kind spells dots chains ih =>
      rw [chainStep_access kind, Text.compact_of_spaced spells, List.map_map]
      refine congrArg String.join (List.map_congr_left ?_)
      intro j hj
      by_cases dot : (ofNodes nodes).kind j ∈ dotKinds
      · rw [if_pos (List.contains_iff_mem.mpr dot)]
        exact (Text.compact_of_plain (dots j hj dot)).symm
      · rw [if_neg fun known => dot (List.contains_iff_mem.mp known), Function.comp_apply, ← ih j hj dot]
        exact chainText_eq_chainStep (chains j hj dot).lt_size
  | @parenthesized i l inner r kind spells below opening chain closing ih =>
      obtain ⟨noOpening, noClosing, -⟩ := plain _ chain.kind
      rw [chainStep_parenthesized kind, Text.compact_of_spaced spells, below]
      simp [opening.kind, opening.text, closing.text, noOpening, noClosing, tokens, ← ih,
        chainText_eq_chainStep chain.lt_size, String.append_assoc]
  | @nonNull i inner r kind spells below chain mark ih =>
      obtain ⟨-, -, noMark⟩ := plain _ chain.kind
      rw [chainStep_nonNull kind, Text.compact_of_spaced spells, below]
      simp [mark.text, noMark, tokens, ← ih, chainText_eq_chainStep chain.lt_size]
  | @subscript i object l index r kind spells below held chain opening other indexed closing ih =>
      rw [chainStep_subscript kind, Text.compact_of_spaced spells, childByField?, childByField?, below]
      simp [held, other, indexed, opening.text, closing.text, tokens, ← ih,
        chainText_eq_chainStep chain.lt_size, String.append_assoc]

/-- **An access chain is shown as it stands in the source, without the blanks**, and a call as its callee with
empty parentheses behind it. -/
theorem chainText_compacts (nodes : List FlatNode) :
    (∀ i, (ofNodes nodes).Chain i → (ofNodes nodes).chainText i = Text.compact ((ofNodes nodes).text i)) ∧
      ∀ call callee, (ofNodes nodes).kind call = "call_expression" →
        (ofNodes nodes).childByField? call "function" = some callee → (ofNodes nodes).Chain callee →
        (ofNodes nodes).chainText call = Text.compact ((ofNodes nodes).text callee) ++ "()" := by
  refine ⟨fun i chain => chainText_of_chain chain, ?_⟩
  intro call callee kind held chain
  have present : call < (ofNodes nodes).size :=
    Nat.lt_trans (lt_of_find?_children held) chain.lt_size
  rw [chainText_eq_chainStep present, chainStep_call kind, held, ← chainText_of_chain chain]

/-- The call `(a . b)![ i ] .c (x)`. -/
def spacedCall : List FlatNode :=
  [⟨0, "call_expression", "(a . b)![ i ] .c (x)", 1, 1, 0, 20, true, none⟩,
   ⟨1, "member_expression", "(a . b)![ i ] .c", 1, 1, 0, 16, true, some "function"⟩,
   ⟨2, "subscript_expression", "(a . b)![ i ]", 1, 1, 0, 13, true, some "object"⟩,
   ⟨3, "non_null_expression", "(a . b)!", 1, 1, 0, 8, true, some "object"⟩,
   ⟨4, "parenthesized_expression", "(a . b)", 1, 1, 0, 7, true, none⟩,
   ⟨5, "(", "(", 1, 1, 0, 1, false, none⟩,
   ⟨5, "member_expression", "a . b", 1, 1, 1, 6, true, none⟩,
   ⟨6, "identifier", "a", 1, 1, 1, 2, false, some "object"⟩,
   ⟨6, ".", ".", 1, 1, 3, 4, false, none⟩,
   ⟨6, "property_identifier", "b", 1, 1, 5, 6, false, some "property"⟩,
   ⟨5, ")", ")", 1, 1, 6, 7, false, none⟩,
   ⟨4, "!", "!", 1, 1, 7, 8, false, none⟩,
   ⟨3, "[", "[", 1, 1, 8, 9, false, none⟩,
   ⟨3, "identifier", "i", 1, 1, 10, 11, false, some "index"⟩,
   ⟨3, "]", "]", 1, 1, 12, 13, false, none⟩,
   ⟨2, ".", ".", 1, 1, 14, 15, false, none⟩,
   ⟨2, "property_identifier", "c", 1, 1, 15, 16, false, some "property"⟩,
   ⟨1, "arguments", "(x)", 1, 1, 17, 20, true, some "arguments"⟩]

/-- The callee has blanks around dots and in brackets, and none of them is shown. -/
theorem chainText_compacts_spacedCall : (ofNodes spacedCall).Chain 1 ∧
    (ofNodes spacedCall).chainText 1 = "(a.b)![i].c" ∧ (ofNodes spacedCall).chainText 0 = "(a.b)![i].c()" := by
  have below1 : (ofNodes spacedCall).children 1 = [2, 15, 16] := by decide +kernel
  have below2 : (ofNodes spacedCall).children 2 = [3, 12, 13, 14] := by decide +kernel
  have below3 : (ofNodes spacedCall).children 3 = [4, 11] := by decide +kernel
  have below4 : (ofNodes spacedCall).children 4 = [5, 6, 10] := by decide +kernel
  have below6 : (ofNodes spacedCall).children 6 = [7, 8, 9] := by decide +kernel
  have inner : (ofNodes spacedCall).Chain 6 := by
    refine .access (by decide) ?_ ?_ ?_
    · rw [Spells, below6]
      exact .cons [] rfl (.cons [' '] rfl (.cons [' '] rfl (.nil [] rfl)))
    · rw [below6]
      decide
    · rw [below6]
      intro j hj dot
      refine .name ?_
      revert j
      decide
  have parens : (ofNodes spacedCall).Chain 4 := by
    refine .parenthesized rfl ?_ below4 ⟨rfl, rfl⟩ inner ⟨rfl, rfl⟩
    rw [Spells, below4]
    exact .cons [] rfl (.cons [] rfl (.cons [] rfl (.nil [] rfl)))
  have nonNull : (ofNodes spacedCall).Chain 3 := by
    refine .nonNull rfl ?_ below3 parens ⟨rfl, rfl⟩
    rw [Spells, below3]
    exact .cons [] rfl (.cons [] rfl (.nil [] rfl))
  have subscript : (ofNodes spacedCall).Chain 2 := by
    refine .subscript rfl ?_ below2 rfl nonNull ⟨rfl, rfl⟩ (by decide) rfl ⟨rfl, rfl⟩
    rw [Spells, below2]
    exact .cons [] rfl (.cons [] rfl (.cons [' '] rfl (.cons [' '] rfl (.nil [] rfl))))
  have callee : (ofNodes spacedCall).Chain 1 := by
    refine .access (by decide) ?_ ?_ ?_
    · rw [Spells, below1]
      exact .cons [] rfl (.cons [' '] rfl (.cons [] rfl (.nil [] rfl)))
    · rw [below1]
      decide
    · rw [below1]
      intro j hj dot
      rcases List.mem_cons.mp hj with rfl | hj
      · exact subscript
      · refine .name ?_
        revert j
        decide
  obtain ⟨chains, calls⟩ := chainText_compacts spacedCall
  have held : (ofNodes spacedCall).childByField? 0 "function" = some 1 := by decide +kernel
  refine ⟨callee, ?_, ?_⟩
  · rw [chains 1 callee]
    decide
  · rw [calls 0 1 rfl held callee]
    decide

end Arena

end SourceSurvey
