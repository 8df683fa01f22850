import Mathlib.Data.Finset.Dedup
import Mathlib.Data.Finset.Insert
import Mathlib.Data.List.TakeWhile
import SourceSurvey.Proofs.Path.Segments
import SourceSurvey.Trail.Pattern

/-!
# Written patterns

A written pattern is taken apart at its signs, one after the other: slashes, then a question mark at the end of a step,
then the first colon, then bars, unless a star stands there alone. Steps that ask for a field and for kinds whose names
have no signs in them (`Demand.IsWritable`) are read from every text that they can be written as
(`Pattern.parse_written`). The kinds of a step are a set, so a step can be written in several ways.
-/

namespace SourceSurvey

namespace Pattern

/-- The characters that have a meaning of their own in a written pattern. -/
def signs : List Char := ['/', '|', ':', '?', '*']

/-- A text that a field or a kind can be written as. -/
@[mk_iff] structure IsName (name : String) : Prop where
  nonempty : name ≠ ""
  plain : ∀ c ∈ name.toList, c ∉ signs

instance (name : String) : Decidable (IsName name) :=
  decidable_of_iff (name ≠ "" ∧ (name.toList.all fun c => !signs.contains c) = true) <| by
    simp only [isName_iff, List.all_eq_true, Bool.not_eq_true', List.contains_eq_mem, decide_eq_false_iff_not]

end Pattern

open Pattern (IsName signs)

/-- What a step asks for, with the kinds as a set; without a set it asks for no kind in particular. -/
structure Demand where
  kinds : Option (Finset String)
  field : Option String
  isOptional : Bool

/-- Fields and kinds are names, and where kinds are asked for there is one. -/
@[mk_iff] structure Demand.IsWritable (d : Demand) : Prop where
  kinds : ∀ ks ∈ d.kinds, ks.Nonempty ∧ ∀ k ∈ ks, IsName k
  field : ∀ f ∈ d.field, IsName f

instance (d : Demand) : Decidable d.IsWritable :=
  decidable_of_iff _ (d.isWritable_iff).symm

namespace Step

def demand (s : Step) : Demand :=
  { kinds := s.kinds.map List.toFinset, field := s.field, isOptional := s.isOptional }

variable {s : Step} {body field kinds : List Char} {ks : List String} {c : Char}

/-! ## Taking a step apart -/

theorem splitOptional_append_mark (h : body ≠ []) : splitOptional (body ++ ['?']) = (body, true) := by
  have long : 1 < (body ++ ['?']).length := by
    rw [List.length_append, List.length_singleton]
    exact Nat.succ_lt_succ (List.length_pos_iff.mpr h)
  rw [splitOptional, if_pos ⟨long, List.getLast?_concat⟩, List.dropLast_concat]

theorem splitOptional_of_not_mem (h : '?' ∉ body) : splitOptional body = (body, false) := by
  rw [splitOptional, if_neg]
  rintro ⟨-, last⟩
  exact h (List.mem_of_getLast? last)

theorem ne_colon_of_mem (h : ':' ∉ body) : ∀ c ∈ body, (c != ':') = true := by
  intro c hc
  rw [bne_iff_ne]
  rintro rfl
  exact h hc

theorem splitField_append_colon (some_field : field ≠ []) (h : ':' ∉ field) :
    splitField (field ++ ':' :: kinds) = (some field, kinds) := by
  have start : (field ++ ':' :: kinds).head? ≠ some ':' := by
    obtain ⟨first, rest, rfl⟩ := List.exists_cons_of_ne_nil some_field
    exact fun same => h (Option.some.inj same ▸ List.mem_cons_self)
  rw [splitField, if_neg start, List.dropWhile_append_of_pos (ne_colon_of_mem h),
    List.takeWhile_append_of_pos (ne_colon_of_mem h)]
  simp

theorem splitField_of_not_mem (h : ':' ∉ body) : splitField body = (none, body) := by
  have start : body.head? ≠ some ':' := fun same => h (List.mem_of_head? same)
  rw [splitField, if_neg start, List.dropWhile_eq_nil_iff.mpr (ne_colon_of_mem h)]

theorem splitChars_join_kinds (some_kind : ks ≠ []) (names : ∀ k ∈ ks, IsName k) :
    Text.splitChars '|' (Text.join "|" ks).toList = ks.map String.toList :=
  Text.splitChars_join rfl some_kind fun k hk bar => (names k hk).plain '|' bar (by decide)

theorem eq_bar_of_mem_join (names : ∀ k ∈ ks, IsName k) (sign : c ∈ signs) (mem : c ∈ (Text.join "|" ks).toList) :
    c = '|' := by
  rcases Text.mem_toList_join mem with bar | ⟨k, hk, inside⟩
  · exact List.mem_singleton.mp bar
  · exact absurd sign ((names k hk).plain c inside)

theorem readKinds_join (some_kind : ks ≠ []) (names : ∀ k ∈ ks, IsName k) :
    readKinds (Text.join "|" ks).toList = some ks := by
  have no_star : (Text.join "|" ks).toList ≠ ['*'] := by
    intro same
    have star : '*' ∈ (Text.join "|" ks).toList := same ▸ List.mem_cons_self
    exact absurd (eq_bar_of_mem_join names (by decide) star) (by decide)
  rw [readKinds, if_neg no_star, splitChars_join_kinds some_kind names, List.map_map]
  exact congrArg some (List.map_id'' (fun _ => String.ofList_toList) ks)

/-! ## Putting a step together -/

/-- The field of a step with a colon behind it, if it asks for one. -/
def fieldText (s : Step) : String := (s.field.map (· ++ ":")).getD ""

/-- The kinds of a step with bars between them, or a star. -/
def kindsText (s : Step) : String := (s.kinds.map (Text.join "|")).getD "*"

theorem render_eq (s : Step) :
    s.render = fieldText s ++ kindsText s ++ (if s.isOptional then "?" else "") := by
  rw [render, fieldText, kindsText]
  cases s.field <;> cases s.kinds <;> rfl

theorem isName_of_kinds (h : s.demand.IsWritable) (hs : s.kinds = some ks) : ks ≠ [] ∧ ∀ k ∈ ks, IsName k := by
  have asked : s.demand.kinds = some ks.toFinset := by rw [demand, hs, Option.map_some]
  obtain ⟨nonempty, names⟩ := h.kinds ks.toFinset asked
  exact ⟨(List.toFinset_nonempty_iff ks).mp nonempty, fun k hk => names k (List.mem_toFinset.mpr hk)⟩

theorem readKinds_kindsText (h : s.demand.IsWritable) : readKinds (kindsText s).toList = s.kinds := by
  rw [kindsText]
  cases hs : s.kinds with
  | none => rfl
  | some ks =>
      obtain ⟨some_kind, names⟩ := isName_of_kinds h hs
      exact readKinds_join some_kind names

theorem kindsText_ne_nil (h : s.demand.IsWritable) : (kindsText s).toList ≠ [] := by
  rw [kindsText]
  cases hs : s.kinds with
  | none => decide
  | some ks =>
      obtain ⟨some_kind, names⟩ := isName_of_kinds h hs
      intro empty
      have split := splitChars_join_kinds some_kind names
      -- nothing is split into one empty kind, and a name is not empty
      rw [show (Text.join "|" ks).toList = [] from empty] at split
      have mem : [] ∈ ks.map String.toList := split ▸ List.mem_cons_self
      obtain ⟨k, hk, nothing⟩ := List.mem_map.mp mem
      exact (names k hk).nonempty (String.toList_eq_nil_iff.mp nothing)

theorem sign_of_mem_kindsText (h : s.demand.IsWritable) (sign : c ∈ signs) (mem : c ∈ (kindsText s).toList) :
    c = '|' ∨ c = '*' := by
  rw [kindsText] at mem
  cases hs : s.kinds with
  | none =>
      rw [hs] at mem
      exact .inr (List.mem_singleton.mp mem)
  | some ks =>
      rw [hs] at mem
      exact .inl (eq_bar_of_mem_join (isName_of_kinds h hs).2 sign mem)

theorem sign_of_mem_fieldText (h : s.demand.IsWritable) (sign : c ∈ signs) (mem : c ∈ (fieldText s).toList) :
    c = ':' := by
  rw [fieldText] at mem
  cases hs : s.field with
  | none =>
      rw [hs] at mem
      cases mem
  | some f =>
      rw [hs, Option.map_some, Option.getD_some, String.toList_append, List.mem_append] at mem
      rcases mem with inside | colon
      · exact absurd sign ((h.field f hs).plain c inside)
      · exact List.mem_singleton.mp colon

/-! ## Reading a step that has been written -/

/-- A step as it is written when it may not be left out. -/
def bodyText (s : Step) : List Char := (fieldText s).toList ++ (kindsText s).toList

theorem toList_render (s : Step) : s.render.toList = bodyText s ++ if s.isOptional then ['?'] else [] := by
  rw [render_eq, String.toList_append, String.toList_append, bodyText]
  cases s.isOptional <;> rfl

theorem sign_of_mem_bodyText (h : s.demand.IsWritable) (sign : c ∈ signs) (mem : c ∈ bodyText s) :
    c = ':' ∨ c = '|' ∨ c = '*' :=
  (List.mem_append.mp mem).imp (sign_of_mem_fieldText h sign) (sign_of_mem_kindsText h sign)

theorem not_mem_render (h : s.demand.IsWritable) : '/' ∉ s.render.toList := by
  rw [toList_render, List.mem_append, not_or]
  refine ⟨fun mem => absurd (sign_of_mem_bodyText h (by decide) mem) (by decide), ?_⟩
  cases s.isOptional <;> decide

theorem splitOptional_render (h : s.demand.IsWritable) :
    splitOptional s.render.toList = (bodyText s, s.isOptional) := by
  rw [toList_render]
  cases s.isOptional with
  | true => exact splitOptional_append_mark (List.append_ne_nil_of_right_ne_nil _ (kindsText_ne_nil h))
  | false =>
      have unmarked : '?' ∉ bodyText s := fun mem => absurd (sign_of_mem_bodyText h (by decide) mem) (by decide)
      rw [if_neg Bool.false_ne_true, List.append_nil, splitOptional_of_not_mem unmarked]

theorem splitField_bodyText (h : s.demand.IsWritable) :
    splitField (bodyText s) = (s.field.map String.toList, (kindsText s).toList) := by
  rw [bodyText, fieldText]
  cases hs : s.field with
  | none =>
      exact splitField_of_not_mem fun mem => absurd (sign_of_mem_kindsText h (by decide) mem) (by decide)
  | some f =>
      have name := h.field f hs
      have colon : ':' ∉ f.toList := fun mem => name.plain ':' mem (by decide)
      rw [Option.map_some, Option.getD_some, String.toList_append, List.append_assoc]
      exact splitField_append_colon (mt String.toList_eq_nil_iff.mp name.nonempty) colon

/-- **A step is read back from its written form.** -/
theorem parse_toList_render (h : s.demand.IsWritable) : parse s.render.toList = s := by
  have field : (s.field.map String.toList).map String.ofList = s.field := by
    cases s.field with
    | none => rfl
    | some f => rw [Option.map_some, Option.map_some, String.ofList_toList]
  simp only [parse, splitOptional_render h, splitField_bodyText h, readKinds_kindsText h, field]

theorem demand_surjective : Function.Surjective demand := by
  rintro ⟨kinds, field, isOptional⟩
  refine ⟨⟨kinds.map Finset.toList, field, isOptional⟩, ?_⟩
  cases kinds with
  | none => rfl
  | some ks => rw [demand, Option.map_some, Option.map_some, Finset.toList_toFinset]

end Step

namespace Pattern

theorem parse_render {pattern : Pattern} (some_step : pattern ≠ []) (writable : ∀ s ∈ pattern, s.demand.IsWritable) :
    parse pattern.render = pattern := by
  have split : Text.splitChars '/' pattern.render.toList = (pattern.map Step.render).map String.toList := by
    refine Text.splitChars_join rfl (mt List.map_eq_nil_iff.mp some_step) fun part hpart => ?_
    obtain ⟨s, hs, rfl⟩ := List.mem_map.mp hpart
    exact Step.not_mem_render (writable s hs)
  rw [parse, split, List.map_map, List.map_map]
  calc pattern.map (Step.parse ∘ String.toList ∘ Step.render)
      = pattern.map id := List.map_congr_left fun s hs => Step.parse_toList_render (writable s hs)
    _ = pattern := List.map_id pattern

/-- The text is a written form of steps that ask for this, with the kinds of each in some order. -/
def Written (demands : List Demand) (text : String) : Prop :=
  ∃ pattern : Pattern, pattern.map Step.demand = demands ∧ pattern.render = text

/-- **Steps are read from each of their written forms**, if fields and kinds are names. There is such a form, and from
all of them the same steps are read, with the kinds as sets. -/
theorem parse_written {demands : List Demand} (some_step : demands ≠ []) (writable : ∀ d ∈ demands, d.IsWritable) :
    (∃ text, Written demands text) ∧ ∀ text, Written demands text → (parse text).map Step.demand = demands := by
  constructor
  · obtain ⟨pattern, listed⟩ := List.map_surjective_iff.mpr Step.demand_surjective demands
    exact ⟨render pattern, pattern, listed, rfl⟩
  · rintro _ ⟨pattern, rfl, rfl⟩
    have back : parse pattern.render = pattern :=
      parse_render (mt List.map_eq_nil_iff.mpr some_step) fun s hs => writable s.demand (List.mem_map_of_mem hs)
    rw [back]

/-- Steps of all forms: with kinds, one or several, and without, under a field and not, to be left out or not. -/
def mixedSteps : List Demand :=
  [⟨some {"formal_parameters"}, none, true⟩, ⟨none, some "value", false⟩,
    ⟨some {"identifier", "this"}, some "pattern", true⟩]

theorem parse_written_mixedSteps : mixedSteps ≠ [] ∧ (∀ d ∈ mixedSteps, d.IsWritable) ∧
    Written mixedSteps "formal_parameters?/value:*/pattern:this|identifier?" ∧
    (parse "formal_parameters?/value:*/pattern:this|identifier?").map Step.demand = mixedSteps := by
  have writable : ∀ d ∈ mixedSteps, d.IsWritable := by decide
  have pair : ["this", "identifier"].toFinset = {"identifier", "this"} := by decide
  have written : Written mixedSteps "formal_parameters?/value:*/pattern:this|identifier?" := by
    refine ⟨[.optionally (.kind "formal_parameters"), .under "value" ⟨none, none, false⟩,
      .optionally (.under "pattern" (.oneOf ["this", "identifier"]))], ?_, by decide⟩
    rw [mixedSteps, ← pair]
    rfl
  have nonempty : mixedSteps ≠ [] := List.cons_ne_nil _ _
  exact ⟨nonempty, writable, written, (parse_written nonempty writable).2 _ written⟩

end Pattern

end SourceSurvey
