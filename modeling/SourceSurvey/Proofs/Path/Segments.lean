import Mathlib.Data.List.Basic
import SourceSurvey.Path.Basic

/-!
# The names of a path text

A path text is split at its slashes into names. Splitting undoes joining, as long as no part has the separator
in it (`Text.splitChars_join`), and a path that is followed from a directory has the names of both, up to an
empty name where they meet (`Path.segments_join`).
-/

namespace SourceSurvey

namespace Text

variable {sep : Char} {l l' : List Char}

/-! ## Splitting -/

theorem splitChars_ne_nil (sep : Char) (l : List Char) : splitChars sep l ≠ [] := by
  induction l with
  | nil => exact List.cons_ne_nil _ _
  | cons c l ih =>
      rw [splitChars]
      split
      · exact List.cons_ne_nil _ _
      · split <;> exact List.cons_ne_nil _ _

theorem splitChars_cons_of_ne {c : Char} {part : List Char} {parts : List (List Char)} (h : c ≠ sep)
    (hl : splitChars sep l = part :: parts) : splitChars sep (c :: l) = (c :: part) :: parts := by
  rw [splitChars, if_neg h, hl]

theorem splitChars_append_sep :
    splitChars sep (l ++ sep :: l') = splitChars sep l ++ splitChars sep l' := by
  induction l with
  | nil =>
      show splitChars sep (sep :: l') = [] :: splitChars sep l'
      rw [splitChars, if_pos rfl]
  | cons c l ih =>
      by_cases h : c = sep
      · rw [List.cons_append, splitChars, if_pos h, splitChars, if_pos h, ih]
        rfl
      · obtain ⟨part, parts, hl⟩ := List.exists_cons_of_ne_nil (splitChars_ne_nil sep l)
        rw [splitChars_cons_of_ne h hl, List.cons_append]
        exact splitChars_cons_of_ne h (by rw [ih, hl]; rfl)

theorem splitChars_of_not_mem (h : sep ∉ l) : splitChars sep l = [l] := by
  induction l with
  | nil => rfl
  | cons c l ih =>
      rw [List.mem_cons, not_or] at h
      exact splitChars_cons_of_ne (Ne.symm h.1) (ih h.2)

theorem not_mem_of_mem_splitChars {part : List Char} (h : part ∈ splitChars sep l) : sep ∉ part := by
  induction l generalizing part with
  | nil =>
      rw [splitChars, List.mem_singleton] at h
      rw [h]
      exact List.not_mem_nil
  | cons c l ih =>
      by_cases hc : c = sep
      · rw [splitChars, if_pos hc] at h
        rcases List.mem_cons.mp h with rfl | h
        · exact List.not_mem_nil
        · exact ih h
      · obtain ⟨first, parts, hl⟩ := List.exists_cons_of_ne_nil (splitChars_ne_nil sep l)
        rw [splitChars_cons_of_ne hc hl] at h
        rw [hl] at ih
        rcases List.mem_cons.mp h with rfl | h
        · rw [List.mem_cons, not_or]
          exact ⟨Ne.symm hc, ih List.mem_cons_self⟩
        · exact ih (List.mem_cons_of_mem _ h)

/-! ## Joining -/

theorem join_cons_cons (between part next : String) (rest : List String) :
    join between (part :: next :: rest) = part ++ between ++ join between (next :: rest) := rfl

theorem join_append (between : String) {front back : List String} (hfront : front ≠ []) (hback : back ≠ []) :
    join between (front ++ back) = join between front ++ between ++ join between back := by
  induction front with
  | nil => exact absurd rfl hfront
  | cons part front ih =>
      cases front with
      | nil =>
          obtain ⟨next, more, rfl⟩ := List.exists_cons_of_ne_nil hback
          rfl
      | cons next front =>
          have later := ih (List.cons_ne_nil next front)
          rw [List.cons_append] at later
          rw [List.cons_append, List.cons_append, join_cons_cons, join_cons_cons, later]
          simp only [String.append_assoc]

theorem mem_toList_join {between : String} {parts : List String} {c : Char} (h : c ∈ (join between parts).toList) :
    c ∈ between.toList ∨ ∃ part ∈ parts, c ∈ part.toList := by
  induction parts with
  | nil => cases h
  | cons part rest ih =>
      cases rest with
      | nil => exact .inr ⟨part, List.mem_cons_self, h⟩
      | cons next rest =>
          rw [join_cons_cons, String.toList_append, String.toList_append, List.mem_append, List.mem_append] at h
          rcases h with (first | separator) | later
          · exact .inr ⟨part, List.mem_cons_self, first⟩
          · exact .inl separator
          · exact (ih later).imp_right fun ⟨p, hp, hc⟩ => ⟨p, List.mem_cons_of_mem part hp, hc⟩

/-- **Splitting undoes joining**, as long as no part has the separator in it. -/
theorem splitChars_join {between : String} (single : between.toList = [sep]) {parts : List String}
    (some_part : parts ≠ []) (h : ∀ part ∈ parts, sep ∉ part.toList) :
    splitChars sep (join between parts).toList = parts.map String.toList := by
  induction parts with
  | nil => exact absurd rfl some_part
  | cons part rest ih =>
      have first := splitChars_of_not_mem (h part List.mem_cons_self)
      cases rest with
      | nil => exact first
      | cons next rest =>
          have later := ih (List.cons_ne_nil _ _) fun p hp => h p (List.mem_cons_of_mem part hp)
          rw [join_cons_cons, String.toList_append, String.toList_append, single, List.append_assoc,
            List.singleton_append, splitChars_append_sep, first, later]
          rfl

end Text

namespace Path

variable {a b base rel s : String}

/-! ## Names -/

theorem segments_append_slash : segments (a ++ "/" ++ b) = segments a ++ segments b := by
  have chars : (a ++ "/" ++ b).toList = a.toList ++ '/' :: b.toList := by simp
  rw [segments, Text.split, chars, Text.splitChars_append_sep, List.map_append]
  rfl

theorem doubled_append : "//" ++ b = "/" ++ ("/" ++ b) := by
  rw [← String.append_assoc]
  rfl

theorem segments_slash_append : segments ("/" ++ b) = "" :: segments b := by
  have chars : ("/" ++ b).toList = [] ++ '/' :: b.toList := by simp
  rw [segments, Text.split, chars, Text.splitChars_append_sep, List.map_append]
  rfl

theorem not_mem_of_mem_segments (h : s ∈ segments a) : '/' ∉ s.toList := by
  obtain ⟨part, hpart, rfl⟩ := List.mem_map.mp h
  rw [String.toList_ofList]
  exact Text.not_mem_of_mem_splitChars hpart

/-- **Names that are joined by slashes are the names of the path.** -/
theorem segments_joined {names : List String} (some_name : names ≠ [])
    (h : ∀ n ∈ names, '/' ∉ n.toList) : segments (Text.join "/" names) = names := by
  rw [segments, Text.split, Text.splitChars_join rfl some_name h, List.map_map]
  exact List.map_id'' (fun _ => String.ofList_toList) names

/-! ## Absolute paths -/

theorem isAbsolute_iff : isAbsolute s = true ↔ ∃ rest, s.toList = '/' :: rest := by
  unfold isAbsolute Text.startsWith
  show (['/'].isPrefixOf s.toList) = true ↔ _
  rw [List.isPrefixOf_iff_prefix]
  constructor
  · rintro ⟨rest, h⟩
    exact ⟨rest, h.symm⟩
  · rintro ⟨rest, h⟩
    exact ⟨rest, h.symm⟩

theorem exists_segments_of_isAbsolute (h : isAbsolute s = true) : ∃ rest, segments s = "" :: rest := by
  obtain ⟨rest, hs⟩ := isAbsolute_iff.mp h
  refine ⟨(Text.splitChars '/' rest).map String.ofList, ?_⟩
  rw [segments, Text.split, hs, Text.splitChars, if_pos rfl]
  rfl

theorem root_eq_doubled_iff :
    root s = "//" ↔ ∃ rest, s.toList = '/' :: '/' :: rest ∧ rest.head? ≠ some '/' := by
  unfold root
  rcases s.toList with _ | ⟨c, _ | ⟨d, rest⟩⟩
  · simp
  · by_cases hc : c = '/' <;> simp [hc]
  · by_cases hc : c = '/'
    · by_cases hd : d = '/'
      · rcases rest with _ | ⟨e, rest⟩
        · simp [hc, hd]
        · by_cases he : e = '/' <;> simp [hc, hd, he]
      · simp [hc, hd]
    · simp [hc]

/-- What follows one or two slashes is no root if it does not start with another. -/
theorem root_slash_append (relative : ¬ isAbsolute b = true) : root ("/" ++ b) ≠ "//" := by
  intro doubled
  obtain ⟨rest, chars, -⟩ := root_eq_doubled_iff.mp doubled
  rw [String.toList_append] at chars
  exact relative (isAbsolute_iff.mpr ⟨rest, (List.cons.inj chars).2⟩)

theorem root_doubled_append (relative : ¬ isAbsolute b = true) : root ("//" ++ b) = "//" := by
  refine root_eq_doubled_iff.mpr ⟨b.toList, by simp, fun first => ?_⟩
  obtain ⟨rest, chars⟩ := List.head?_eq_some_iff.mp first
  exact relative (isAbsolute_iff.mpr ⟨rest, chars⟩)

/-! ## Following a path from a directory -/

theorem isAbsolute_join (absolute : isAbsolute base = true) (relative : ¬ isAbsolute rel = true) :
    isAbsolute (join base rel) = true := by
  obtain ⟨rest, h⟩ := isAbsolute_iff.mp absolute
  rw [join, if_neg relative, isAbsolute_iff]
  split
  · exact ⟨rest ++ rel.toList, by simp [h]⟩
  · exact ⟨rest ++ '/' :: rel.toList, by simp [h]⟩

theorem not_isAbsolute_join (hbase : ¬ isAbsolute base = true) (relative : ¬ isAbsolute rel = true) :
    ¬ isAbsolute (join base rel) = true := by
  rw [join, if_neg relative]
  by_cases empty : base = ""
  · simpa [empty] using relative
  · obtain ⟨c, rest, h⟩ : ∃ c rest, base.toList = c :: rest :=
      List.exists_cons_of_ne_nil fun h => empty (String.toList_inj.mp h)
    have hc : c ≠ '/' := fun hc => hbase (isAbsolute_iff.mpr ⟨rest, hc ▸ h⟩)
    rw [isAbsolute_iff]
    split <;> simp [h, hc]

theorem endsWith_slash (h : Text.endsWith "/" base = true) : ∃ front, base = front ++ "/" := by
  unfold Text.endsWith at h
  obtain ⟨front, hfront⟩ := List.isSuffixOf_iff_suffix.mp h
  refine ⟨String.ofList front, ?_⟩
  rw [← String.toList_inj, ← hfront]
  simp

/-- A path that is followed from a directory has the names of the directory and then its own; only an
empty name can be lost where they meet. -/
theorem segments_join (base : String) (relative : ¬ isAbsolute rel = true) :
    segments (join base rel) = segments base ++ segments rel ∨
      ∃ front, segments base = front ++ [""] ∧ segments (join base rel) = front ++ segments rel := by
  rw [join, if_neg relative]
  by_cases empty : base = ""
  · refine Or.inr ⟨[], ?_, ?_⟩
    · rw [empty]
      rfl
    · rw [empty]
      simp
  by_cases slash : Text.endsWith "/" base = true
  · obtain ⟨front, rfl⟩ := endsWith_slash slash
    refine Or.inr ⟨segments front, ?_, ?_⟩
    · have split := segments_append_slash (a := front) (b := "")
      rwa [String.append_empty] at split
    · rw [if_pos (by simp [slash]), segments_append_slash]
  · rw [if_neg (by simp [empty, slash]), segments_append_slash]
    exact Or.inl rfl

/-! ## Names that lead somewhere -/

/-- A name that leads somewhere, be it up. -/
def Leads (n : String) : Prop := n ≠ "" ∧ n ≠ "." ∧ '/' ∉ n.toList

theorem leads_of_mem_names {n : String} (h : n ∈ names a) : Leads n := by
  obtain ⟨mem, kept⟩ := List.mem_filter.mp h
  simp only [Bool.and_eq_true, bne_iff_ne] at kept
  exact ⟨kept.1, kept.2, not_mem_of_mem_segments mem⟩

theorem names_slash_append : names ("/" ++ b) = names b := by
  rw [names, segments_slash_append]
  rfl

theorem names_join (base : String) {relative : String} (h : ¬ isAbsolute relative = true) :
    names (join base relative) = names base ++ names relative := by
  rcases segments_join base h with split | ⟨front, hbase, split⟩
  · rw [names, split, List.filter_append]
    rfl
  · -- the empty name after a slash at the end leads nowhere
    have last : names base = front.filter fun s => s != "" && s != "." := by
      rw [names, hbase, List.filter_append]
      exact List.append_nil _
    rw [names, split, List.filter_append, last]
    rfl

variable {ns : List String}

theorem exists_segments_joined (h : ∀ n ∈ ns, Leads n) :
    ∃ idle, (∀ n ∈ idle, n = "" ∨ n = ".") ∧ segments (Text.join "/" ns) = idle ++ ns := by
  by_cases none : ns = []
  · subst none
    exact ⟨[""], by simp, rfl⟩
  · exact ⟨[], by simp, segments_joined none fun n hn => (h n hn).2.2⟩

theorem names_joined (h : ∀ n ∈ ns, Leads n) : names (Text.join "/" ns) = ns := by
  obtain ⟨idle, stays, split⟩ := exists_segments_joined h
  have dropped : idle.filter (fun s => s != "" && s != ".") = [] := by
    refine List.filter_eq_nil_iff.mpr fun n hn => ?_
    rcases stays n hn with rfl | rfl <;> decide
  have kept : ns.filter (fun s => s != "" && s != ".") = ns := by
    refine List.filter_eq_self.mpr fun n hn => ?_
    simp [(h n hn).1, (h n hn).2.1]
  rw [names, split, List.filter_append, dropped, kept, List.nil_append]

theorem not_isAbsolute_joined (h : ∀ n ∈ ns, Leads n) : ¬ isAbsolute (Text.join "/" ns) = true := by
  intro absolute
  obtain ⟨rest, first⟩ := exists_segments_of_isAbsolute absolute
  by_cases none : ns = []
  · subst none
    exact absurd absolute (by decide)
  · rw [segments_joined none fun n hn => (h n hn).2.2] at first
    exact (h "" (first ▸ List.mem_cons_self)).1 rfl

/-! ## Tidy paths -/

theorem root_cases (s : String) : ¬ isAbsolute s = true ∧ root s = "" ∨
    isAbsolute s = true ∧ (root s = "/" ∨ root s = "//") := by
  by_cases absolute : isAbsolute s = true
  · obtain ⟨rest, chars⟩ := isAbsolute_iff.mp absolute
    refine Or.inr ⟨absolute, ?_⟩
    unfold root
    rw [chars]
    split <;> simp_all
  · refine Or.inl ⟨absolute, ?_⟩
    rw [isAbsolute_iff] at absolute
    unfold root
    split <;> simp_all

/-- Names behind a root, with slashes between them; a dot where nothing would be written. -/
def written (root : String) (ns : List String) : String :=
  if root ++ Text.join "/" ns = "" then "." else root ++ Text.join "/" ns

/-- Written behind the root of a path, names that lead somewhere start at the same place as the path, with others
at most in front of them. -/
theorem written_spec (s : String) (leads : ∀ n ∈ ns, Leads n) : written (root s) ns ≠ "" ∧
    (isAbsolute (written (root s) ns) = true ↔ isAbsolute s = true) ∧
    ∃ idle, (∀ n ∈ idle, n = "" ∨ n = ".") ∧ segments (written (root s) ns) = idle ++ ns := by
  obtain ⟨idle, stays, split⟩ := exists_segments_joined leads
  rcases root_cases s with ⟨relative, root⟩ | ⟨absolute, root⟩
  · have text : written (Path.root s) ns = if Text.join "/" ns = "" then "." else Text.join "/" ns := by
      rw [written, root, String.empty_append]
    by_cases empty : Text.join "/" ns = ""
    · have none : ns = [] := by
        rw [← names_joined leads, empty]
        rfl
      rw [text, if_pos empty, none]
      exact ⟨by decide, iff_of_false (by decide) relative, ["."], by simp, rfl⟩
    · rw [text, if_neg empty]
      exact ⟨empty, iff_of_false (not_isAbsolute_joined leads) relative, idle, stays, split⟩
  · have slash (b : String) : "/" ++ b ≠ "" ∧ isAbsolute ("/" ++ b) = true :=
      ⟨by simp, isAbsolute_iff.mpr ⟨b.toList, by simp⟩⟩
    have text : ∃ b, written (Path.root s) ns = "/" ++ b ∧
        ∃ idle, (∀ n ∈ idle, n = "" ∨ n = ".") ∧ segments b = idle ++ ns := by
      rcases root with root | root
      · refine ⟨Text.join "/" ns, ?_, idle, stays, split⟩
        rw [written, root, if_neg (slash _).1]
      · refine ⟨"/" ++ Text.join "/" ns, ?_, "" :: idle, ?_, ?_⟩
        · rw [written, root, doubled_append, if_neg (slash _).1]
        · simpa using stays
        · rw [segments_slash_append, split, List.cons_append]
    obtain ⟨b, text, idle, stays, split⟩ := text
    rw [text]
    refine ⟨(slash b).1, iff_of_true (slash b).2 absolute, "" :: idle, ?_, ?_⟩
    · simpa using stays
    · rw [segments_slash_append, split, List.cons_append]

theorem root_written (s : String) (leads : ∀ n ∈ ns, Leads n) :
    root (written (root s) ns) = "//" ↔ root s = "//" := by
  have relative := not_isAbsolute_joined leads
  rcases root_cases s with ⟨-, root⟩ | ⟨-, root | root⟩
  · rw [root, written, String.empty_append]
    refine iff_of_false ?_ (by decide)
    split
    · decide
    · intro doubled
      obtain ⟨rest, chars, -⟩ := root_eq_doubled_iff.mp doubled
      exact relative (isAbsolute_iff.mpr ⟨_, chars⟩)
  · rw [root, written, if_neg (by simp)]
    exact iff_of_false (root_slash_append relative) (by decide)
  · rw [root, written, if_neg (by simp)]
    exact iff_of_true (root_doubled_append relative) rfl

/-- **A tidy path starts at the same place and has the names that lead somewhere**, with others at most in
front of them. -/
theorem tidy_spec (s : String) : tidy s ≠ "" ∧ (isAbsolute (tidy s) = true ↔ isAbsolute s = true) ∧
    ∃ idle, (∀ n ∈ idle, n = "" ∨ n = ".") ∧ segments (tidy s) = idle ++ names s :=
  written_spec s fun _ hn => leads_of_mem_names hn

end Path

end SourceSurvey
