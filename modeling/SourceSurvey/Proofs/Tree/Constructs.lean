import SourceSurvey.Marking.Action
import SourceSurvey.Proofs.Tree.Navigation

/-!
# Constructs with two ends

Blocks and objects in braces, parameters and arguments in parentheses, and elements between two tags: each
has an opening and a closing end, and both belong to one node, the host of the construct. In a tree where
delimiters and tags come in pairs (`Arena.Bracketed`), a host has one end on each side (`Delimits.unique`,
`Delimits.exists_construct`), an end has one host (`Delimits.same_host`), and two constructs stand one in
the other or one after the other (`Construct.apart`).
-/

namespace SourceSurvey

inductive Side where
  | opening
  | closing
deriving DecidableEq, Repr

inductive Bracket where
  | brace
  | paren
  | tag
deriving DecidableEq, Repr

namespace Bracket

def delimiter : Bracket → Side → String
  | brace, .opening => "\x7b"
  | brace, .closing => "\x7d"
  | paren, .opening => "("
  | paren, .closing => ")"
  | tag, .opening => "jsx_opening_element"
  | tag, .closing => "jsx_closing_element"

theorem delimiter_inj {b b' : Bracket} {side side' : Side} (h : b.delimiter side = b'.delimiter side') :
    b = b' ∧ side = side' := by
  cases b <;> cases side <;> cases b' <;> cases side' <;>
    first | exact ⟨rfl, rfl⟩ | exact absurd h (by decide)

end Bracket

namespace Arena

def braceHosts : List String := ["statement_block", "class_body", "object"]

def hostKinds : List String := ["formal_parameters", "arguments", "jsx_element"] ++ braceHosts

def tagNames (a : Arena) (t : Nat) : List Nat :=
  (a.children t).filter fun j => tagKinds.contains (a.kind j)

/-- The host has two ends: it stands in braces, holds the parameters of an arrow function or the arguments
of a call that passes a function, or is an element with tags. -/
inductive Delimited (a : Arena) (host : Nat) : Bracket → Prop
  | braces : a.kind host ∈ braceHosts → Delimited a host .brace
  | parameters {function : Nat} : a.kind host = "formal_parameters" → a.parent? host = some function →
      a.kind function = "arrow_function" → Delimited a host .paren
  | arguments {call j : Nat} : a.kind host = "arguments" → a.parent? host = some call →
      a.kind call = "call_expression" → j ∈ a.children host → a.kind j ∈ callbackKinds →
      Delimited a host .paren
  | element {side : Side} {t : Nat} : a.kind host = "jsx_element" → a.parent? t = some host →
      a.kind t = Bracket.tag.delimiter side → Delimited a host .tag

/-- The node is one end of a host: a delimiter, or the name of the tag that is one. -/
inductive Delimits (a : Arena) (side : Side) (host : Nat) : Nat → Prop
  | delimiter {b : Bracket} {i : Nat} : a.Delimited host b → a.parent? i = some host →
      a.kind i = b.delimiter side → (b = .tag → a.tagNames i = []) → Delimits a side host i
  | tagName {t i : Nat} : a.Delimited host .tag → a.parent? t = some host →
      a.kind t = Bracket.tag.delimiter side → i ∈ a.tagNames t → Delimits a side host i

def Construct (a : Arena) (host i j : Nat) : Prop :=
  a.Delimits .opening host i ∧ a.Delimits .closing host j

/-- Exactly one child is an opening delimiter, and exactly one, which comes later, is a closing one. -/
def Encloses (a : Arena) (host : Nat) (b : Bracket) : Prop :=
  ∃ i j, i < j ∧ (a.children host).filter (fun k => a.kind k == b.delimiter .opening) = [i] ∧
    (a.children host).filter (fun k => a.kind k == b.delimiter .closing) = [j]

/-- Delimiters come in pairs: every host has one on each side, tags are those of elements, and of the two
tags of an element both have one name or none has any. What is to be shown of a delimiter or of the name of
a tag is not empty. -/
structure Bracketed (a : Arena) : Prop where
  encloses : ∀ host b, a.Delimited host b → a.Encloses host b
  element : ∀ side t, a.kind t = Bracket.tag.delimiter side →
    ∃ element, a.parent? t = some element ∧ a.kind element = "jsx_element"
  tagNames : ∀ element t t', a.parent? t = some element → a.kind t = "jsx_opening_element" →
    a.parent? t' = some element → a.kind t' = "jsx_closing_element" →
    (∃ i j, a.tagNames t = [i] ∧ a.tagNames t' = [j]) ∨ a.tagNames t = [] ∧ a.tagNames t' = []
  text : ∀ side host b i, a.Delimited host b → a.parent? i = some host → a.kind i = b.delimiter side →
    b ≠ .tag → Text.compact (a.text i) ≠ ""
  name : ∀ side t i, a.kind t = Bracket.tag.delimiter side → i ∈ a.tagNames t →
    MarkAction.tagLabel a i "" ≠ ""

/-! ## Kinds of hosts and of their ends -/

def bracketOf (kind : String) : Bracket :=
  if kind = "jsx_element" then .tag else if braceHosts.contains kind then .brace else .paren

section Kinds

variable {a : Arena} {host i t : Nat} {b b' : Bracket} {side : Side}

theorem Delimited.eq_bracketOf (h : a.Delimited host b) : b = bracketOf (a.kind host) := by
  have braces : ∀ k ∈ braceHosts, Bracket.brace = bracketOf k := by decide
  cases h with
  | braces kind => exact braces _ kind
  | parameters kind =>
      rw [kind]
      decide
  | arguments kind =>
      rw [kind]
      decide
  | element kind =>
      rw [kind]
      decide

theorem Delimited.unique (h : a.Delimited host b) (h' : a.Delimited host b') : b = b' :=
  h.eq_bracketOf.trans h'.eq_bracketOf.symm

theorem Delimited.mem_hostKinds (h : a.Delimited host b) : a.kind host ∈ hostKinds := by
  cases h with
  | braces kind => exact List.mem_append_right _ kind
  | parameters kind =>
      rw [kind]
      decide
  | arguments kind =>
      rw [kind]
      decide
  | element kind =>
      rw [kind]
      decide

theorem Delimited.delimits (h : a.Delimited host b) (plain : b ≠ .tag) (around : a.parent? i = some host)
    (kind : a.kind i = b.delimiter side) : a.Delimits side host i :=
  .delimiter h around kind fun tag => absurd tag plain

theorem not_mem_hostKinds_of_delimiter (h : a.kind i = b.delimiter side) : a.kind i ∉ hostKinds := by
  rw [h]
  cases b <;> cases side <;> decide

theorem not_mem_tagKinds_of_delimiter (h : a.kind i = b.delimiter side) : a.kind i ∉ tagKinds := by
  rw [h]
  cases b <;> cases side <;> decide

theorem not_mem_hostKinds_of_tagKinds (h : a.kind i ∈ tagKinds) : a.kind i ∉ hostKinds := by
  have apart : ∀ k ∈ tagKinds, k ∉ hostKinds := by decide
  exact apart _ h

end Kinds

/-! ## Subtrees -/

/-- Node `k` is `h` or below it: everything after `h` up to `k` is deeper. -/
def Within (a : Arena) (h k : Nat) : Prop :=
  h ≤ k ∧ ∀ m, h < m → m ≤ k → a.depth h < a.depth m

variable {nodes : List FlatNode} {side side' : Side} {b : Bracket} {host host' h i i' j j' k m p t t' : Nat}

theorem Within.mono (inside : (ofNodes nodes).Within h k) (after : h ≤ m) (before : m ≤ k) :
    (ofNodes nodes).Within h m :=
  ⟨after, fun x hx hm => inside.2 x hx (Nat.le_trans hm before)⟩

theorem within_of_mem_lineage (mem : h ∈ (ofNodes nodes).lineage k) : (ofNodes nodes).Within h k :=
  deeper_of_mem_lineage mem

theorem within_of_parent? (around : (ofNodes nodes).parent? k = some p) : (ofNodes nodes).Within p k := by
  apply within_of_mem_lineage
  rw [lineage_of_parent? around, lineage_eq p]
  simp

/-- Whatever is around a node is the node itself or around its parent. -/
theorem Within.outward (inside : (ofNodes nodes).Within h k) (other : h ≠ k)
    (around : (ofNodes nodes).parent? k = some p) : (ofNodes nodes).Within h p := by
  obtain ⟨before, -, between⟩ := spec_of_parent? around
  have less : h < k := Nat.lt_of_le_of_ne inside.1 other
  have after : h ≤ p := by
    by_contra outside
    have above := between h (Nat.lt_of_not_le outside) less
    exact absurd (inside.2 k less (Nat.le_refl k)) (Nat.not_lt_of_le above)
  exact inside.mono after (Nat.le_of_lt before)

theorem mem_tagNames : i ∈ (ofNodes nodes).tagNames t ↔
    (ofNodes nodes).parent? i = some t ∧ (ofNodes nodes).kind i ∈ tagKinds := by
  rw [tagNames, List.mem_filter, mem_children, List.contains_iff_mem]

/-! ## Delimiters -/

theorem exists_of_encloses (h : (ofNodes nodes).Encloses host b) : ∃ i j, i < j ∧
    (∀ k, (ofNodes nodes).parent? k = some host ∧ (ofNodes nodes).kind k = b.delimiter .opening ↔ k = i) ∧
    ∀ k, (ofNodes nodes).parent? k = some host ∧ (ofNodes nodes).kind k = b.delimiter .closing ↔ k = j := by
  obtain ⟨i, j, less, first, second⟩ := h
  have only (kind : String) (m : Nat)
      (h : ((ofNodes nodes).children host).filter (fun k => (ofNodes nodes).kind k == kind) = [m]) (k : Nat) :
      (ofNodes nodes).parent? k = some host ∧ (ofNodes nodes).kind k = kind ↔ k = m := by
    have mem : k ∈ [m] ↔ k = m := List.mem_singleton
    rw [← mem, ← h, List.mem_filter, mem_children, beq_iff_eq]
  exact ⟨i, j, less, only _ i first, only _ j second⟩

theorem Encloses.unique (h : (ofNodes nodes).Encloses host b)
    (around : (ofNodes nodes).parent? i = some host) (kind : (ofNodes nodes).kind i = b.delimiter side)
    (around' : (ofNodes nodes).parent? i' = some host) (kind' : (ofNodes nodes).kind i' = b.delimiter side) :
    i = i' := by
  obtain ⟨l, r, -, first, second⟩ := exists_of_encloses h
  cases side with
  | opening => rw [(first i).mp ⟨around, kind⟩, (first i').mp ⟨around', kind'⟩]
  | closing => rw [(second i).mp ⟨around, kind⟩, (second i').mp ⟨around', kind'⟩]

/-- What stands below a node comes before the next node beside it. -/
theorem lt_of_sibling (less : t < t') (around : (ofNodes nodes).parent? t = some host)
    (around' : (ofNodes nodes).parent? t' = some host) (inside : (ofNodes nodes).Within t k) : k < t' := by
  by_contra beyond
  have below : (ofNodes nodes).Within t t' := inside.mono (Nat.le_of_lt less) (Nat.le_of_not_lt beyond)
  have above := (below.outward (Nat.ne_of_lt less) around').1
  exact absurd (spec_of_parent? around).1 (Nat.not_lt_of_le above)

/-! ## Ends -/

theorem Delimits.within (d : (ofNodes nodes).Delimits side host i) : (ofNodes nodes).Within host i := by
  cases d with
  | delimiter _ around => exact within_of_parent? around
  | tagName _ around _ name =>
      apply within_of_mem_lineage
      rw [lineage_of_parent? (mem_tagNames.mp name).1, lineage_of_parent? around, lineage_eq host]
      simp

/-- A host around an end is around the end's own host, or is that. -/
theorem Delimits.le_of_within (d : (ofNodes nodes).Delimits side host i)
    (inside : (ofNodes nodes).Within h i) (kind : (ofNodes nodes).kind h ∈ hostKinds) : h ≤ host := by
  cases d with
  | delimiter _ around own =>
      have other : h ≠ i := fun same => not_mem_hostKinds_of_delimiter own (same ▸ kind)
      exact (inside.outward other around).1
  | @tagName t _ _ around tag name =>
      obtain ⟨inner, own⟩ := mem_tagNames.mp name
      have other : h ≠ i := fun same => not_mem_hostKinds_of_tagKinds own (same ▸ kind)
      have inside := inside.outward other inner
      have other' : h ≠ t := fun same => not_mem_hostKinds_of_delimiter tag (same ▸ kind)
      exact (inside.outward other' around).1

theorem Delimits.mem_hostKinds {a : Arena} (d : a.Delimits side host i) : a.kind host ∈ hostKinds := by
  cases d with
  | delimiter h => exact h.mem_hostKinds
  | tagName h => exact h.mem_hostKinds

/-- **An end has one side and one host.** -/
theorem Delimits.same_host (d : (ofNodes nodes).Delimits side host i)
    (d' : (ofNodes nodes).Delimits side' host' i) : side = side' ∧ host = host' := by
  cases d with
  | delimiter _ around own =>
      cases d' with
      | delimiter _ around' own' =>
          exact ⟨(Bracket.delimiter_inj (own.symm.trans own')).2, Option.some.inj (around.symm.trans around')⟩
      | tagName _ _ _ name' => exact absurd (mem_tagNames.mp name').2 (not_mem_tagKinds_of_delimiter own)
  | tagName _ around tag name =>
      cases d' with
      | delimiter _ _ own' => exact absurd (mem_tagNames.mp name).2 (not_mem_tagKinds_of_delimiter own')
      | tagName _ around' tag' name' =>
          obtain rfl := Option.some.inj ((mem_tagNames.mp name).1.symm.trans (mem_tagNames.mp name').1)
          exact ⟨(Bracket.delimiter_inj (tag.symm.trans tag')).2, Option.some.inj (around.symm.trans around')⟩

section Bracketed

variable (bracketed : (ofNodes nodes).Bracketed)

include bracketed

/-- The tags of an element, with their names. -/
theorem exists_tags (element : (ofNodes nodes).Delimited host .tag) : ∃ t t', t < t' ∧
    (ofNodes nodes).parent? t = some host ∧ (ofNodes nodes).kind t = Bracket.tag.delimiter .opening ∧
    (ofNodes nodes).parent? t' = some host ∧ (ofNodes nodes).kind t' = Bracket.tag.delimiter .closing ∧
    ((∃ i j, (ofNodes nodes).tagNames t = [i] ∧ (ofNodes nodes).tagNames t' = [j]) ∨
      (ofNodes nodes).tagNames t = [] ∧ (ofNodes nodes).tagNames t' = []) := by
  obtain ⟨t, t', less, first, second⟩ := exists_of_encloses (bracketed.encloses host .tag element)
  obtain ⟨around, kind⟩ := (first t).mpr rfl
  obtain ⟨around', kind'⟩ := (second t').mpr rfl
  exact ⟨t, t', less, around, kind, around', kind', bracketed.tagNames host t t' around kind around' kind'⟩

theorem tagNames_unique (element : (ofNodes nodes).Delimited host .tag)
    (around : (ofNodes nodes).parent? t = some host)
    (tag : (ofNodes nodes).kind t = Bracket.tag.delimiter side) (name : i ∈ (ofNodes nodes).tagNames t)
    (name' : i' ∈ (ofNodes nodes).tagNames t) : i = i' := by
  have only {l : List Nat} (h : (∃ k, l = [k]) ∨ l = []) (hi : i ∈ l) (hi' : i' ∈ l) : i = i' := by
    rcases h with ⟨k, rfl⟩ | rfl
    · rw [List.mem_singleton.mp hi, List.mem_singleton.mp hi']
    · cases hi
  have encloses := bracketed.encloses host .tag element
  obtain ⟨l, r, -, around', kind', around'', kind'', names⟩ := exists_tags bracketed element
  cases side with
  | opening =>
      obtain rfl := encloses.unique around tag around' kind'
      refine only ?_ name name'
      rcases names with ⟨k, -, own, -⟩ | ⟨own, -⟩
      · exact Or.inl ⟨k, own⟩
      · exact Or.inr own
  | closing =>
      obtain rfl := encloses.unique around tag around'' kind''
      refine only ?_ name name'
      rcases names with ⟨-, k, -, own⟩ | ⟨-, own⟩
      · exact Or.inl ⟨k, own⟩
      · exact Or.inr own

/-- **A host has one end on a side.** -/
theorem Delimits.unique (d : (ofNodes nodes).Delimits side host i)
    (d' : (ofNodes nodes).Delimits side host i') : i = i' := by
  cases d with
  | delimiter delimited around own nameless =>
      cases d' with
      | delimiter delimited' around' own' _ =>
          obtain rfl := delimited.unique delimited'
          exact (bracketed.encloses _ _ delimited).unique around own around' own'
      | tagName delimited' around' tag' name' =>
          -- a tag that is an end itself has no name that could be one
          obtain rfl := delimited.unique delimited'
          obtain rfl := (bracketed.encloses _ _ delimited).unique around own around' tag'
          rw [nameless rfl] at name'
          cases name'
  | tagName delimited around tag name =>
      cases d' with
      | delimiter delimited' around' own' nameless' =>
          obtain rfl := delimited.unique delimited'
          obtain rfl := (bracketed.encloses _ _ delimited).unique around tag around' own'
          rw [nameless' rfl] at name
          cases name
      | tagName _ around' tag' name' =>
          obtain rfl := (bracketed.encloses _ _ delimited).unique around tag around' tag'
          exact tagNames_unique bracketed delimited around tag name name'

theorem exists_construct_of_delimited (delimited : (ofNodes nodes).Delimited host b) :
    ∃ i j, i < j ∧ (ofNodes nodes).Construct host i j := by
  by_cases tag : b = .tag
  · subst tag
    obtain ⟨t, t', less, around, kind, around', kind', ⟨i, j, name, name'⟩ | ⟨none, none'⟩⟩ :=
      exists_tags bracketed delimited
    · have mem : i ∈ (ofNodes nodes).tagNames t := by simp [name]
      have mem' : j ∈ (ofNodes nodes).tagNames t' := by simp [name']
      have before := lt_of_sibling less around around' (within_of_parent? (mem_tagNames.mp mem).1)
      have after := (spec_of_parent? (mem_tagNames.mp mem').1).1
      exact ⟨i, j, Nat.lt_trans before after, .tagName delimited around kind mem,
        .tagName delimited around' kind' mem'⟩
    · exact ⟨t, t', less, .delimiter delimited around kind fun _ => none,
        .delimiter delimited around' kind' fun _ => none'⟩
  · obtain ⟨i, j, less, first, second⟩ := exists_of_encloses (bracketed.encloses host b delimited)
    obtain ⟨around, kind⟩ := (first i).mpr rfl
    obtain ⟨around', kind'⟩ := (second j).mpr rfl
    exact ⟨i, j, less, delimited.delimits tag around kind, delimited.delimits tag around' kind'⟩

/-- **Where there is one end there are both**, the opening one first. -/
theorem Delimits.exists_construct (d : (ofNodes nodes).Delimits side host i) :
    ∃ l r, l < r ∧ (ofNodes nodes).Construct host l r := by
  cases d with
  | delimiter delimited => exact exists_construct_of_delimited bracketed delimited
  | tagName delimited => exact exists_construct_of_delimited bracketed delimited

/-! ## Two constructs -/

theorem Construct.lt (c : (ofNodes nodes).Construct host i j) : i < j := by
  obtain ⟨l, r, less, first, second⟩ := c.1.exists_construct bracketed
  rwa [c.1.unique bracketed first, c.2.unique bracketed second]

/-- **A construct that opens between the ends of another one closes between them, too.** -/
theorem Construct.apart (c : (ofNodes nodes).Construct host i j)
    (c' : (ofNodes nodes).Construct host' i' j') (after : i < i') (before : i' < j) : j' < j := by
  have below := c.2.within
  have below' := c'.2.within
  rcases Nat.lt_trichotomy host host' with outer | same | inner
  · -- otherwise the other host is around `j`, but not around the host of `j`
    by_contra beyond
    have start : host' ≤ j := Nat.le_trans c'.1.within.1 (Nat.le_of_lt before)
    have around := below'.mono start (Nat.le_of_not_lt beyond)
    exact absurd outer (Nat.not_lt_of_le (c.2.le_of_within around c'.1.mem_hostKinds))
  · subst same
    rw [c.1.unique bracketed c'.1] at after
    exact absurd after (Nat.lt_irrefl i')
  · -- the host is around `i'`, but not around the host of `i'`
    have start : host ≤ i' := Nat.le_trans c.1.within.1 (Nat.le_of_lt after)
    have around := below.mono start (Nat.le_of_lt before)
    exact absurd inner (Nat.not_lt_of_le (c'.1.le_of_within around c.1.mem_hostKinds))

end Bracketed

end Arena

end SourceSurvey
