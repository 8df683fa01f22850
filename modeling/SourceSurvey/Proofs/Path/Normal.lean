import SourceSurvey.Proofs.Disk

/-!
# Paths in normal form

A path text is simplified without a look at the disk: names that lead nowhere are left out, and a name is left out
with the two dots that leave it again (`Path.normalize`). The simplified text means the same location
(`Location.resolve_normalize`). What it does not need are the directories that were left: from a directory it leads
to a file whenever there is one at the location (`Disk.leadsToFile_normalize`).
-/

namespace SourceSurvey

namespace Path

/-- One more name behind simplified ones. Two dots take the last name away; they stay where there is none to take,
unless that is at the root, where nothing lies above. -/
def simplify (absolute : Bool) (names : List String) (name : String) : List String :=
  if name = "" ∨ name = "." then names
  else if name ≠ ".." ∨ absolute = false ∧ names = [] ∨ names.getLast? = some ".." then names ++ [name]
  else names.dropLast

/-- The names of a path, simplified from the first to the last. -/
def simplified (path : String) : List String := (segments path).foldl (simplify (isAbsolute path)) []

def normalize (path : String) : String := written (root path) (simplified path)

/-- Names that first lead up and then down; from the root they only lead down. -/
def IsSimple (absolute : Bool) (names : List String) : Prop :=
  ∃ k down, names = List.replicate k ".." ++ down ∧ (absolute = true → k = 0) ∧ ∀ n ∈ down, IsName n

variable {absolute : Bool} {names : List String} {name : String}

theorem leads_up : Leads ".." := ⟨by decide, by decide, by decide⟩

theorem IsSimple.leads (h : IsSimple absolute names) : ∀ n ∈ names, Leads n := by
  obtain ⟨k, down, rfl, -, name⟩ := h
  intro n hn
  rcases List.mem_append.mp hn with up | mem
  · rw [List.eq_of_mem_replicate up]
    exact leads_up
  · exact (name n mem).leads

theorem IsSimple.nil (absolute : Bool) : IsSimple absolute [] :=
  ⟨0, [], rfl, fun _ => rfl, fun _ hn => (nomatch hn)⟩

theorem isSimple_simplify (h : IsSimple absolute names) (slash : '/' ∉ name.toList) :
    IsSimple absolute (simplify absolute names name) := by
  obtain ⟨k, down, rfl, rooted, isName⟩ := h
  unfold simplify
  split
  · exact ⟨k, down, rfl, rooted, isName⟩
  next stays =>
  rw [not_or] at stays
  split
  · next kept =>
    by_cases up : name = ".."
    · subst up
      rcases List.eq_nil_or_concat' down with rfl | ⟨front, last, rfl⟩
      · refine ⟨k + 1, [], by rw [List.append_nil, List.append_nil, List.replicate_succ'], ?_, isName⟩
        rintro rfl
        -- at the root there are no dots to stay behind
        obtain rfl := rooted rfl
        simp at kept
      · have down : IsName last := isName last (by simp)
        simp [down.ne_up] at kept
    · refine ⟨k, down ++ [name], List.append_assoc _ _ _, rooted, List.forall_mem_append.mpr ⟨isName, ?_⟩⟩
      exact fun n hn => List.mem_singleton.mp hn ▸ ⟨stays.1, stays.2, up, slash⟩
  · next taken =>
    rcases List.eq_nil_or_concat' down with rfl | ⟨front, last, rfl⟩
    · cases k with
      | zero => exact .nil absolute
      | succ k =>
          rw [List.append_nil, List.replicate_succ'] at taken
          simp at taken
    · refine ⟨k, front, ?_, rooted, fun n hn => isName n (List.mem_append_left _ hn)⟩
      rw [← List.append_assoc, List.dropLast_concat]

theorem isSimple_foldl_simplify (h : IsSimple absolute names) {path : List String}
    (slash : ∀ n ∈ path, '/' ∉ n.toList) : IsSimple absolute (path.foldl (simplify absolute) names) := by
  induction path generalizing names with
  | nil => exact h
  | cons n path ih =>
      obtain ⟨first, rest⟩ := List.forall_mem_cons.mp slash
      exact ih (isSimple_simplify h first) rest

theorem isSimple_simplified (path : String) : IsSimple (isAbsolute path) (simplified path) :=
  isSimple_foldl_simplify (.nil _) fun _ hn => not_mem_of_mem_segments hn

/-- **A path in normal form starts at the same place and has the simplified names**, with others at most in front of
them. -/
theorem normalize_spec (p : String) : normalize p ≠ "" ∧ (isAbsolute (normalize p) = true ↔ isAbsolute p = true) ∧
    ∃ idle, (∀ n ∈ idle, n = "" ∨ n = ".") ∧ segments (normalize p) = idle ++ simplified p :=
  written_spec p (isSimple_simplified p).leads

end Path

namespace Location

open SourceSurvey.Path

variable {absolute : Bool} {names path start : List String}

theorem foldl_follow_simplify (rooted : absolute = true → start = []) (h : IsSimple absolute names)
    {name : String} : (simplify absolute names name).foldl follow start =
      follow (names.foldl follow start) name := by
  unfold simplify
  split
  · next stays => rw [follow, if_pos stays]
  next stays =>
  split
  · rw [List.foldl_append]
    rfl
  · next taken =>
    simp only [not_or, not_not] at taken
    obtain ⟨rfl, some_name, last⟩ := taken
    have up (l : List String) : follow l ".." = l.dropLast := by
      rw [follow, if_neg (by decide), if_pos rfl]
    rcases List.eq_nil_or_concat' names with rfl | ⟨front, n, rfl⟩
    · -- only at the root can there be nothing to take
      have absolute' : absolute = true := by simpa using some_name
      rw [rooted absolute']
      rfl
    · have leads : Leads n := h.leads n (by simp)
      have down : follow (front.foldl follow start) n = front.foldl follow start ++ [n] := by
        rw [follow, if_neg (not_or.mpr ⟨leads.1, leads.2.1⟩), if_neg (by simpa using last)]
      rw [List.dropLast_concat, List.foldl_append, up]
      show _ = (follow (front.foldl follow start) n).dropLast
      rw [down, List.dropLast_concat]

theorem foldl_follow_foldl_simplify (rooted : absolute = true → start = []) (h : IsSimple absolute names)
    (slash : ∀ n ∈ path, '/' ∉ n.toList) : (path.foldl (simplify absolute) names).foldl follow start =
      path.foldl follow (names.foldl follow start) := by
  induction path generalizing names with
  | nil => rfl
  | cons n path ih =>
      obtain ⟨first, rest⟩ := List.forall_mem_cons.mp slash
      rw [List.foldl_cons, ih (isSimple_simplify h first) rest, foldl_follow_simplify rooted h]
      rfl

theorem foldl_follow_simplified (p : String) (rooted : isAbsolute p = true → start = []) :
    (simplified p).foldl follow start = (segments p).foldl follow start :=
  foldl_follow_foldl_simplify rooted (.nil _) fun _ hn => not_mem_of_mem_segments hn

/-- **A path and its normal form mean the same location.** -/
theorem resolve_normalize (cwd : Location) (p : String) : cwd.resolve (normalize p) = cwd.resolve p := by
  obtain ⟨-, same, idle, stays, split⟩ := normalize_spec p
  have followed (start : List String) (rooted : isAbsolute p = true → start = []) :
      (segments (normalize p)).foldl follow start = (segments p).foldl follow start := by
    rw [split, List.foldl_append, foldl_follow_idle stays, foldl_follow_simplified p rooted]
  by_cases absolute : isAbsolute p = true
  · have doubled := root_written p (isSimple_simplified p).leads
    rw [resolve, if_pos (same.mpr absolute), resolve, if_pos absolute, followed [] fun _ => rfl]
    exact congrArg (Location.mk · _) (decide_eq_decide.mpr doubled)
  · rw [resolve, if_neg (mt same.mp absolute), resolve, if_neg absolute,
      followed cwd.names fun h => absurd h absolute]

end Location

namespace Disk

open SourceSurvey.Path

variable {d : Disk} {cwd : Location} {p : String}

/-- Names that lead up and then down lead to every file that they mean. -/
theorem walk_of_isSimple (hd : d.WellFormed) {absolute : Bool} {here names : List String}
    (dir : d.isDirectory here = true) (simple : IsSimple absolute names)
    (file : d.isFile (names.foldl Location.follow here) = true) :
    d.walk here names = .ok (names.foldl Location.follow here) := by
  obtain ⟨k, down, rfl, -, isName⟩ := simple
  rw [List.foldl_append, Location.foldl_follow_up, Location.foldl_follow_names isName] at file ⊢
  rw [walk_append, walk_up hd dir]
  refine walk_down isName fun j short => ?_
  -- what lies on the way to a file is a directory
  have whole := hd.isDirectory_take_of_isFile file (k := (here.take (here.length - k)).length + j)
    (by rw [List.length_append]; exact Nat.add_lt_add_left short _)
  rwa [List.take_length_add_append] at whole

/-- Of a path whose names lead up and then down, only the end has to be looked at. -/
theorem leadsToFile_of_isSimple (hd : d.WellFormed) (dir : d.isDirectory cwd.names = true) (nonempty : p ≠ "")
    {absolute : Bool} {idle names : List String} (stays : ∀ n ∈ idle, n = "" ∨ n = ".")
    (split : segments p = idle ++ names) (simple : IsSimple absolute names) :
    d.leadsToFile cwd p = d.isFile (cwd.resolve p).names := by
  have start : d.isDirectory (if isAbsolute p then [] else cwd.names) = true := by
    split
    · rfl
    · exact dir
  have walked : d.find cwd p = d.walk (if isAbsolute p then [] else cwd.names) names := by
    rw [find, if_neg nonempty, split, walk_idle start stays]
  rw [leadsToFile, walked, Location.names_resolve, split, List.foldl_append, Location.foldl_follow_idle stays]
  by_cases file : d.isFile (names.foldl Location.follow (if isAbsolute p then [] else cwd.names)) = true
  · rw [walk_of_isSimple hd start simple file]
  · cases leads : d.walk (if isAbsolute p then [] else cwd.names) names with
    | ok there => rw [walk_eq_foldl leads]
    | error e => exact (Bool.not_eq_true _ ▸ file : _ = false).symm

/-- **A path in normal form leads to a file if and only if there is one at the location that it means.** -/
theorem leadsToFile_normalize (hd : d.WellFormed) (dir : d.isDirectory cwd.names = true) (p : String) :
    d.leadsToFile cwd (normalize p) = d.isFile (cwd.resolve p).names := by
  obtain ⟨nonempty, -, idle, stays, split⟩ := normalize_spec p
  rw [leadsToFile_of_isSimple hd dir nonempty stays split (isSimple_simplified p), Location.resolve_normalize]

theorem leadsToFile_text (hd : d.WellFormed) (dir : d.isDirectory cwd.names = true) {l : Location}
    (hl : l.IsNormal) : d.leadsToFile cwd l.text = d.isFile l.names := by
  have simple : IsSimple true l.names := ⟨0, l.names, rfl, fun _ => rfl, hl⟩
  have text : l.text = written (root (if l.doubled then "//" else "/")) l.names := by
    unfold Location.text
    cases l.doubled with
    | false =>
        have start : root "/" ++ Text.join "/" l.names ≠ "" := by simp [show root "/" = "/" from rfl]
        exact (if_neg start).symm
    | true =>
        have start : root "//" ++ Text.join "/" l.names ≠ "" := by simp [show root "//" = "//" from rfl]
        exact (if_neg start).symm
  obtain ⟨nonempty, -, idle, stays, split⟩ := written_spec (if l.doubled then "//" else "/") simple.leads
  rw [← text] at nonempty split
  rw [leadsToFile_of_isSimple hd dir nonempty stays split simple, Location.resolve_text cwd hl]

end Disk

end SourceSurvey
