import Mathlib.Data.List.TakeWhile
import SourceSurvey.Proofs.Path.Relative
import SourceSurvey.Report.DirectoryGroup

/-!
# Directories and file names of relative paths

A relative path in normal form (`Path.IsNormal`) leads to a file by the names of directories
(`Path.LeadsTo`). What stands before its last slash are these names, joined, and what stands after it is the
file, so the two together tell paths apart (`DirectoryGroup.eq_of_pathOf_eq`). As a plain name the directory
has underlines between its names (`DirectoryGroup.plainDirectory_eq`).
-/

namespace SourceSurvey

theorem DirectoryGroup.plainName_of_not_mem {s : String} (h : '/' ∉ s.toList) : plainName s = s := by
  have kept : s.toList.flatMap (fun c => if c = '/' then "_".toList else [c]) = s.toList.flatMap fun c => [c] := by
    refine List.flatMap_congr fun c hc => if_neg ?_
    rintro rfl
    exact h hc
  rw [plainName, Text.replaceChar, kept, List.flatMap_singleton', String.ofList_toList]

theorem DirectoryGroup.plainName_append (a b : String) : plainName (a ++ b) = plainName a ++ plainName b := by
  simp [plainName, Text.replaceChar, String.ofList_append]

theorem DirectoryGroup.plainName_joined {names : List String} (h : ∀ n ∈ names, '/' ∉ n.toList) :
    plainName (Text.join "/" names) = Text.join "_" names := by
  induction names with
  | nil => rfl
  | cons n names ih =>
      have first := plainName_of_not_mem (h n List.mem_cons_self)
      cases names with
      | nil => exact first
      | cons m names =>
          have later := ih fun k hk => h k (List.mem_cons_of_mem n hk)
          have slash : plainName "/" = "_" := rfl
          rw [Text.join_cons_cons, Text.join_cons_cons, plainName_append, plainName_append, first, slash, later]

namespace Path

variable {dir file path : String} {dirs names : List String}

/-! ## Before and after the last slash -/

theorem contains_slash_iff : Text.contains "/" path = true ↔ '/' ∈ path.toList := by
  show Text.occursIn ['/'] path.toList = true ↔ _
  induction path.toList with
  | nil => simp [Text.occursIn]
  | cons c l ih =>
      rw [Text.occursIn, Bool.or_eq_true, ih, List.mem_cons]
      simp

theorem ne_slash_of_mem_reverse (h : '/' ∉ file.toList) : ∀ c ∈ file.toList.reverse, (c != '/') = true := by
  intro c hc
  rw [bne_iff_ne]
  rintro rfl
  exact h (List.mem_reverse.mp hc)

theorem fileName_of_not_mem (h : '/' ∉ file.toList) : fileName file = file := by
  rw [fileName, List.takeWhile_eq_self_iff.mpr (ne_slash_of_mem_reverse h), List.reverse_reverse,
    String.ofList_toList]

theorem directory_of_not_mem (h : '/' ∉ file.toList) : directory file = "" := by
  rw [directory, Text.dropEndWhile, List.dropWhile_eq_nil_iff.mpr (ne_slash_of_mem_reverse h)]
  rfl

theorem reverse_append_slash :
    (dir ++ "/" ++ file).toList.reverse = file.toList.reverse ++ '/' :: dir.toList.reverse := by
  simp

theorem fileName_append_slash (h : '/' ∉ file.toList) : fileName (dir ++ "/" ++ file) = file := by
  rw [fileName, reverse_append_slash, List.takeWhile_append_of_pos (ne_slash_of_mem_reverse h)]
  simp

/-- A directory that does not end with a slash stands before the last one. -/
theorem directory_append_slash (h : '/' ∉ file.toList) {c : Char} (last : dir.toList.getLast? = some c)
    (plain : c ≠ '/') : directory (dir ++ "/" ++ file) = dir := by
  have head : Text.dropEndWhile (· != '/') (dir ++ "/" ++ file).toList = dir.toList ++ ['/'] := by
    rw [Text.dropEndWhile, reverse_append_slash, List.dropWhile_append_of_pos (ne_slash_of_mem_reverse h)]
    simp
  have mixed : ¬ (dir.toList ++ ['/']).all (· == '/') = true := by
    intro all
    exact plain (beq_iff_eq.mp (List.all_eq_true.mp all c (List.mem_append_left _ (List.mem_of_getLast? last))))
  have ending : Text.dropEndWhile (· == '/') (dir.toList ++ ['/']) = dir.toList := by
    obtain ⟨front, hfront⟩ := List.getLast?_eq_some_iff.mp last
    rw [hfront]
    simp [Text.dropEndWhile, plain]
  rw [directory, head, if_neg mixed, ending, String.ofList_toList]

/-! ## Paths that lead to a file -/

/-- The path leads to a file by the names of directories. -/
structure LeadsTo (path : String) (dirs : List String) (file : String) : Prop where
  text : path = Text.join "/" (dirs ++ [file])
  dirs : ∀ d ∈ dirs, Leads d
  ne_empty : file ≠ ""
  no_slash : '/' ∉ file.toList

/-- A relative path in normal form: a dot for the place where it starts, or else some steps up and then names
down, if only one of them. -/
def IsNormal (path : String) : Prop :=
  path = "." ∨ ∃ (up : Nat) (down : List String), (∀ n ∈ down, IsName n) ∧
    List.replicate up ".." ++ down ≠ [] ∧ path = Text.join "/" (List.replicate up ".." ++ down)

theorem IsNormal.exists_leadsTo (h : IsNormal path) : ∃ dirs file, LeadsTo path dirs file := by
  rcases h with rfl | ⟨up, down, names, some, rfl⟩
  · exact ⟨[], ".", rfl, by simp, by decide, by decide⟩
  · have leads : ∀ n ∈ List.replicate up ".." ++ down, Leads n := by
      intro n hn
      rcases List.mem_append.mp hn with hn | hn
      · rw [List.eq_of_mem_replicate hn]
        exact ⟨by decide, by decide, by decide⟩
      · exact (names n hn).leads
    obtain ⟨dirs, file, same⟩ := (List.eq_nil_or_concat _).resolve_left some
    rw [List.concat_eq_append] at same
    rw [same] at leads ⊢
    obtain ⟨ne_empty, -, no_slash⟩ := leads file (by simp)
    exact ⟨dirs, file, rfl, fun d hd => leads d (List.mem_append_left _ hd), ne_empty, no_slash⟩

namespace LeadsTo

theorem eq_file (h : LeadsTo path [] file) : path = file := h.text

theorem eq_append (h : LeadsTo path dirs file) (some : dirs ≠ []) :
    path = Text.join "/" dirs ++ "/" ++ file := by
  rw [h.text, Text.join_append "/" some (List.cons_ne_nil _ _)]
  rfl

theorem fileName_eq (h : LeadsTo path dirs file) : fileName path = file := by
  by_cases none : dirs = []
  · subst none
    rw [h.eq_file]
    exact fileName_of_not_mem h.no_slash
  · rw [h.eq_append none]
    exact fileName_append_slash h.no_slash

theorem exists_getLast?_joined (h : LeadsTo path dirs file) (nonempty : dirs ≠ []) :
    ∃ c, (Text.join "/" dirs).toList.getLast? = some c ∧ c ≠ '/' := by
  obtain ⟨front, d, rfl⟩ := (List.eq_nil_or_concat dirs).resolve_left nonempty
  rw [List.concat_eq_append] at h ⊢
  obtain ⟨ne_empty, -, no_slash⟩ := h.dirs d (by simp)
  have chars : ∃ before, (Text.join "/" (front ++ [d])).toList = before ++ d.toList := by
    by_cases none : front = []
    · exact ⟨[], by rw [none]; rfl⟩
    · rw [Text.join_append "/" none (List.cons_ne_nil _ _), String.toList_append]
      exact ⟨_, rfl⟩
  obtain ⟨before, chars⟩ := chars
  have some_char : d.toList ≠ [] := fun none => ne_empty (String.toList_inj.mp none)
  refine ⟨d.toList.getLast some_char, ?_, fun slash => no_slash (slash ▸ List.getLast_mem some_char)⟩
  rw [chars, List.getLast?_append_of_ne_nil _ some_char, List.getLast?_eq_getLast_of_ne_nil some_char]

theorem directory_eq (h : LeadsTo path dirs file) : directory path = Text.join "/" dirs := by
  by_cases none : dirs = []
  · subst none
    rw [h.eq_file]
    exact directory_of_not_mem h.no_slash
  · obtain ⟨c, last, plain⟩ := h.exists_getLast?_joined none
    rw [h.eq_append none]
    exact directory_append_slash h.no_slash last plain

end LeadsTo

end Path

namespace DirectoryGroup

open SourceSurvey.Path

variable {path path' : String}

theorem pathOf_eq {dirs : List String} {file : String} (h : LeadsTo path dirs file) :
    pathOf path = if dirs = [] then ["."] else dirs := by
  rw [pathOf, h.directory_eq]
  by_cases none : dirs = []
  · subst none
    rw [if_pos rfl, if_neg]
    rw [contains_slash_iff, h.eq_file]
    exact h.no_slash
  · rw [if_neg none, if_pos, segments_joined none fun d hd => (h.dirs d hd).2.2]
    rw [contains_slash_iff, h.eq_append none]
    simp

theorem pathOf_ne_nil (path : String) : pathOf path ≠ [] := by
  unfold pathOf
  split
  · exact mt List.map_eq_nil_iff.mp (Text.splitChars_ne_nil _ _)
  · exact List.cons_ne_nil _ _

theorem not_mem_of_mem_pathOf {name : String} (h : name ∈ pathOf path) : '/' ∉ name.toList := by
  unfold pathOf at h
  split at h
  · exact not_mem_of_mem_segments h
  · rw [List.mem_singleton.mp h]
    decide

/-- **The directory and the file tell paths in normal form apart.** -/
theorem eq_of_pathOf_eq (h : Path.IsNormal path) (h' : Path.IsNormal path') (same : pathOf path = pathOf path')
    (file : fileName path = fileName path') : path = path' := by
  obtain ⟨dirs, f, leads⟩ := h.exists_leadsTo
  obtain ⟨dirs', f', leads'⟩ := h'.exists_leadsTo
  have dot : ∀ ds : List String, (∀ d ∈ ds, Leads d) → ds ≠ ["."] := by
    rintro _ lead rfl
    exact (lead "." List.mem_cons_self).2.1 rfl
  have names : dirs = dirs' := by
    rw [pathOf_eq leads, pathOf_eq leads'] at same
    split at same <;> split at same
    · next none none' => rw [none, none']
    · exact absurd same.symm (dot dirs' leads'.dirs)
    · exact absurd same (dot dirs leads.dirs)
    · exact same
  rw [leads.fileName_eq, leads'.fileName_eq] at file
  rw [leads.text, leads'.text, names, file]

theorem plainDirectory_eq (h : Path.IsNormal path) : plainDirectory path = Text.join "_" (pathOf path) := by
  obtain ⟨dirs, f, leads⟩ := h.exists_leadsTo
  rw [pathOf_eq leads, plainDirectory, leads.directory_eq]
  by_cases none : dirs = []
  · subst none
    rfl
  · have nonempty : Text.join "/" dirs ≠ "" := by
      intro empty
      obtain ⟨c, last, -⟩ := leads.exists_getLast?_joined none
      rw [empty] at last
      cases last
    rw [if_neg none, if_neg nonempty, plainName_joined fun d hd => (leads.dirs d hd).2.2]

end DirectoryGroup

end SourceSurvey
