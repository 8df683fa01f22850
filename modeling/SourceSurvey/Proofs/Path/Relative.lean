import SourceSurvey.Disk
import SourceSurvey.Proofs.Path.Segments

/-!
# Relative paths lead back

A location written as seen from a base directory and followed from that directory is the location again
(`Workspace.locate_join_relative`). Followed from the base, the dots lead up to the part that both have in
common, and the names lead down from there; a path that is joined to a base is followed like the base and
then like itself (`Location.resolve_join`).
-/

namespace SourceSurvey

/-- A name that leads from a directory to something in it. -/
structure Path.IsName (name : String) : Prop where
  ne_empty : name ≠ ""
  ne_dot : name ≠ "."
  ne_up : name ≠ ".."
  no_slash : '/' ∉ name.toList

theorem Path.IsName.leads {name : String} (h : Path.IsName name) : Path.Leads name :=
  ⟨h.ne_empty, h.ne_dot, h.no_slash⟩

instance (name : String) : Decidable (Path.IsName name) :=
  decidable_of_iff (name ≠ "" ∧ name ≠ "." ∧ name ≠ ".." ∧ '/' ∉ name.toList)
    ⟨fun ⟨h, dot, up, slash⟩ => ⟨h, dot, up, slash⟩, fun h => ⟨h.ne_empty, h.ne_dot, h.ne_up, h.no_slash⟩⟩

namespace Location

/-- Nothing is left to simplify. -/
def IsNormal (l : Location) : Prop := ∀ n ∈ l.names, Path.IsName n

instance (l : Location) : Decidable l.IsNormal :=
  inferInstanceAs (Decidable (∀ n ∈ l.names, Path.IsName n))

variable {names path : List String} {name : String}

/-! ## Following names -/

theorem follow_isName (h : Path.IsName name) : follow names name = names ++ [name] := by
  rw [follow, if_neg (not_or.mpr ⟨h.ne_empty, h.ne_dot⟩), if_neg h.ne_up]

theorem foldl_follow_names (h : ∀ n ∈ path, Path.IsName n) : path.foldl follow names = names ++ path := by
  induction path generalizing names with
  | nil => exact (List.append_nil names).symm
  | cons n rest ih =>
      rw [List.foldl_cons, follow_isName (h n List.mem_cons_self),
        ih fun m hm => h m (List.mem_cons_of_mem n hm), List.append_assoc]
      rfl

theorem foldl_follow_up (k : Nat) :
    (List.replicate k "..").foldl follow names = names.take (names.length - k) := by
  induction k generalizing names with
  | zero => exact (List.take_length).symm
  | succ k ih =>
      have up : follow names ".." = names.take (names.length - 1) := by
        rw [follow, if_neg (by decide), if_pos rfl, List.dropLast_eq_take]
      rw [List.replicate_succ, List.foldl_cons, up, ih, List.length_take, List.take_take]
      congr 1
      omega

theorem isName_follow (hnames : ∀ n ∈ names, Path.IsName n) (no_slash : '/' ∉ name.toList) :
    ∀ n ∈ follow names name, Path.IsName n := by
  unfold follow
  split
  · exact hnames
  split
  · exact fun n hn => hnames n (List.dropLast_subset names hn)
  · next stays up =>
    intro n hn
    rcases List.mem_append.mp hn with hn | hn
    · exact hnames n hn
    · obtain rfl := List.mem_singleton.mp hn
      exact ⟨fun h => stays (Or.inl h), fun h => stays (Or.inr h), up, no_slash⟩

theorem isName_foldl_follow (hnames : ∀ n ∈ names, Path.IsName n) (hpath : ∀ n ∈ path, '/' ∉ n.toList) :
    ∀ n ∈ path.foldl follow names, Path.IsName n := by
  induction path generalizing names with
  | nil => exact hnames
  | cons n rest ih =>
      rw [List.foldl_cons]
      exact ih (isName_follow hnames (hpath n List.mem_cons_self))
        fun m hm => hpath m (List.mem_cons_of_mem n hm)

theorem foldl_follow_segments (p : String) :
    (Path.names p).foldl follow names = (Path.segments p).foldl follow names := by
  rw [Path.names]
  induction Path.segments p generalizing names with
  | nil => rfl
  | cons n rest ih =>
      rw [List.filter_cons]
      split
      · exact ih
      · next stays =>
        simp only [Bool.and_eq_true, bne_iff_ne, not_and_or, not_not] at stays
        rw [List.foldl_cons, follow, if_pos stays]
        exact ih

theorem foldl_follow_idle {idle : List String} (stays : ∀ n ∈ idle, n = "" ∨ n = ".") :
    idle.foldl follow names = names := by
  induction idle with
  | nil => rfl
  | cons n idle ih =>
      obtain ⟨first, rest⟩ := List.forall_mem_cons.mp stays
      rw [List.foldl_cons, follow, if_pos first, ih rest]

/-- What a path means is in normal form; of a relative path this takes the directory to be. -/
theorem isNormal_resolve {cwd : Location} {p : String} (h : Path.isAbsolute p = true ∨ cwd.IsNormal) :
    (cwd.resolve p).IsNormal := by
  unfold resolve
  split
  · exact isName_foldl_follow (fun n hn => nomatch hn) fun n hn => Path.not_mem_of_mem_segments hn
  · next relative =>
    have normal : ∀ n ∈ cwd.names, Path.IsName n := h.resolve_left relative
    exact isName_foldl_follow normal fun n hn => Path.not_mem_of_mem_segments hn

/-! ## Following a path from a base -/

/-- What a path adds to the base it is joined to. A base that ends with a slash gets no other. -/
theorem exists_toList_join {base rel : String} (nonempty : base ≠ "") (relative : ¬ Path.isAbsolute rel = true) :
    ∃ tail, (Path.join base rel).toList = base.toList ++ tail ∧
      (base.toList.getLast? = some '/' → tail.head? ≠ some '/') := by
  have hrel : rel.toList.head? ≠ some '/' := by
    intro h
    obtain ⟨more, hmore⟩ := List.head?_eq_some_iff.mp h
    exact relative (Path.isAbsolute_iff.mpr ⟨more, hmore⟩)
  rw [Path.join, if_neg relative]
  by_cases slash : Text.endsWith "/" base = true
  · rw [if_pos (by simp [slash])]
    exact ⟨rel.toList, String.toList_append, fun _ => hrel⟩
  · rw [if_neg (by simp [nonempty, slash])]
    have chars : (base ++ "/" ++ rel).toList = base.toList ++ '/' :: rel.toList := by simp
    refine ⟨'/' :: rel.toList, chars, fun last => absurd ?_ slash⟩
    obtain ⟨front, hfront⟩ := List.getLast?_eq_some_iff.mp last
    exact List.isSuffixOf_iff_suffix.mpr ⟨front, hfront.symm⟩

/-- A joined path starts with exactly two slashes if and only if the base does. -/
theorem root_join {base rel : String} (absolute : Path.isAbsolute base = true)
    (relative : ¬ Path.isAbsolute rel = true) :
    Path.root (Path.join base rel) = "//" ↔ Path.root base = "//" := by
  obtain ⟨rest, hbase⟩ := Path.isAbsolute_iff.mp absolute
  have nonempty : base ≠ "" := by
    rintro rfl
    cases hbase
  obtain ⟨tail, htail, slash⟩ := exists_toList_join nonempty relative
  rw [Path.root_eq_doubled_iff, Path.root_eq_doubled_iff, htail, hbase]
  rw [hbase] at slash
  rcases rest with _ | ⟨c, _ | ⟨d, rest⟩⟩
  · cases tail with
    | nil => simp
    | cons e tail =>
        have he : e ≠ '/' := by simpa using slash rfl
        simp [he]
  · by_cases hc : c = '/'
    · subst hc
      simpa using slash rfl
    · simp [hc]
  · simp

/-- **A path joined to a base is followed like the base and then like itself.** -/
theorem resolve_join (cwd : Location) (base : String) {rel : String} (relative : ¬ Path.isAbsolute rel = true) :
    cwd.resolve (Path.join base rel) =
      ⟨(cwd.resolve base).doubled, (Path.segments rel).foldl follow (cwd.resolve base).names⟩ := by
  have same (start : List String) : (Path.segments (Path.join base rel)).foldl follow start =
      (Path.segments rel).foldl follow ((Path.segments base).foldl follow start) := by
    rcases Path.segments_join base relative with h | ⟨front, hbase, h⟩
    · rw [h, List.foldl_append]
    · rw [h, hbase, List.foldl_append, List.foldl_append]
      rfl
  by_cases absolute : Path.isAbsolute base = true
  · rw [resolve, if_pos (Path.isAbsolute_join absolute relative), resolve, if_pos absolute, same,
      decide_eq_decide.mpr (root_join absolute relative)]
  · rw [resolve, if_neg (Path.not_isAbsolute_join absolute relative), resolve, if_neg absolute, same]

/-! ## Relative paths -/

theorem take_shared (names names' : List String) :
    names.take (shared names names') = names'.take (shared names names') := by
  fun_induction shared names names' with
  | case1 a as bs ih => rw [List.take_succ_cons, List.take_succ_cons, ih]
  | case2 a as b bs h => rfl
  | case3 => rfl

theorem shared_le (names names' : List String) : shared names names' ≤ names.length := by
  fun_induction shared names names' with
  | case1 a as bs ih => exact Nat.succ_le_succ ih
  | case2 a as b bs h => exact Nat.zero_le _
  | case3 => exact Nat.zero_le _

variable {l start : Location}

/-- The names of a relative path: up to what both locations share, and down from there. -/
def stepsFrom (l start : Location) : List String :=
  List.replicate (start.names.length - shared start.names l.names) ".." ++
    l.names.drop (shared start.names l.names)

theorem leads_of_mem_stepsFrom (hl : l.IsNormal) : ∀ n ∈ l.stepsFrom start, Path.Leads n := by
  intro n hn
  rcases List.mem_append.mp hn with hn | hn
  · obtain rfl := List.eq_of_mem_replicate hn
    exact ⟨by decide, by decide, by decide⟩
  · exact (hl n (List.mem_of_mem_drop hn)).leads

theorem relativeTo_eq (l start : Location) :
    l.relativeTo start = if l.stepsFrom start = [] then "." else Text.join "/" (l.stepsFrom start) := by
  show (if (l.stepsFrom start).isEmpty = true then "." else _) = _
  simp only [List.isEmpty_iff]
  rfl

theorem names_relativeTo (hl : l.IsNormal) : Path.names (l.relativeTo start) = l.stepsFrom start := by
  rw [relativeTo_eq]
  split
  · next none =>
    rw [none]
    rfl
  · exact Path.names_joined (leads_of_mem_stepsFrom hl)

theorem relativeTo_ne_empty (hl : l.IsNormal) : l.relativeTo start ≠ "" := by
  rw [relativeTo_eq]
  split
  · decide
  · next some_step =>
    intro empty
    have leads : ∀ n ∈ l.stepsFrom start, Path.Leads n := leads_of_mem_stepsFrom hl
    have none := Path.names_joined leads
    rw [empty] at none
    exact some_step none.symm

theorem not_isAbsolute_relativeTo (hl : l.IsNormal) : ¬ Path.isAbsolute (l.relativeTo start) = true := by
  rw [relativeTo_eq]
  split
  · decide
  · exact Path.not_isAbsolute_joined (leads_of_mem_stepsFrom hl)

theorem shared_self (names : List String) : shared names names = names.length := by
  induction names with
  | nil => rfl
  | cons n rest ih => rw [shared, if_pos rfl, ih, List.length_cons]

theorem stepsFrom_eq_nil (same : start.names = l.names) : l.stepsFrom start = [] := by
  rw [stepsFrom, same, shared_self, Nat.sub_self, List.drop_length]
  rfl

theorem foldl_follow_stepsFrom (hl : l.IsNormal) : (l.stepsFrom start).foldl follow start.names = l.names := by
  have down : ∀ n ∈ l.names.drop (shared start.names l.names), Path.IsName n :=
    fun n hn => hl n (List.mem_of_mem_drop hn)
  have le := shared_le start.names l.names
  rw [stepsFrom, List.foldl_append, foldl_follow_up, foldl_follow_names down,
    Nat.sub_sub_self le, take_shared, List.take_append_drop]

theorem foldl_follow_relativeTo (hl : l.IsNormal) :
    (Path.segments (l.relativeTo start)).foldl follow start.names = l.names := by
  rw [← foldl_follow_segments, names_relativeTo hl]
  exact foldl_follow_stepsFrom hl

/-! ## Texts of locations -/

theorem leads_of_mem (hl : l.IsNormal) : ∀ n ∈ l.names, Path.Leads n :=
  fun n hn => (hl n hn).leads

theorem foldl_follow_joined (hl : l.IsNormal) :
    (Path.segments (Text.join "/" l.names)).foldl follow [] = l.names := by
  by_cases none : l.names = []
  · rw [none]
    rfl
  · rw [Path.segments_joined none fun n hn => (hl n hn).no_slash, foldl_follow_names hl, List.nil_append]

theorem names_text (hl : l.IsNormal) : Path.names l.text = l.names := by
  have joined := Path.names_joined (leads_of_mem hl)
  obtain ⟨doubled, names⟩ := l
  cases doubled with
  | false => exact Path.names_slash_append.trans joined
  | true =>
      show Path.names ("//" ++ Text.join "/" names) = names
      rw [Path.doubled_append, Path.names_slash_append, Path.names_slash_append]
      exact joined

/-- **The text of a location in normal form means that location**, in every directory. -/
theorem resolve_text (cwd : Location) (hl : l.IsNormal) : cwd.resolve l.text = l := by
  have relative : ¬ Path.isAbsolute (Text.join "/" l.names) = true := Path.not_isAbsolute_joined (leads_of_mem hl)
  have followed : (Path.segments (Text.join "/" l.names)).foldl follow [] = l.names := foldl_follow_joined hl
  obtain ⟨doubled, names⟩ := l
  cases doubled with
  | false =>
      have absolute : Path.isAbsolute ("/" ++ Text.join "/" names) = true :=
        Path.isAbsolute_iff.mpr ⟨(Text.join "/" names).toList, by simp⟩
      show resolve cwd ("/" ++ Text.join "/" names) = _
      rw [resolve, if_pos absolute, Path.segments_slash_append, List.foldl_cons, decide_eq_false (Path.root_slash_append relative)]
      exact congrArg (Location.mk false) followed
  | true =>
      have absolute : Path.isAbsolute ("//" ++ Text.join "/" names) = true :=
        Path.isAbsolute_iff.mpr ⟨'/' :: (Text.join "/" names).toList, by simp⟩
      have segments : Path.segments ("//" ++ Text.join "/" names) =
          "" :: "" :: Path.segments (Text.join "/" names) := by
        rw [Path.doubled_append, Path.segments_slash_append, Path.segments_slash_append]
      show resolve cwd ("//" ++ Text.join "/" names) = _
      rw [resolve, if_pos absolute, segments, List.foldl_cons, List.foldl_cons, decide_eq_true (Path.root_doubled_append relative)]
      exact congrArg (Location.mk true) followed

end Location

namespace Workspace

variable {w : Workspace} {base : String} {l k : Location}

theorem relative_eq (w : Workspace) (l : Location) (base : String) :
    w.relative l base = l.relativeTo (w.locate base) := by
  rw [relative]
  split
  · next h =>
    rw [h]
    rfl
  · rfl

/-- **A location as seen from a base, followed from the base, is the location again.** -/
theorem locate_join_relative (hl : l.IsNormal) (same : l.doubled = (w.locate base).doubled) :
    w.locate (Path.join base (w.relative l base)) = l := by
  rw [relative_eq, locate, Location.resolve_join _ _ (Location.not_isAbsolute_relativeTo hl)]
  show Location.mk (w.locate base).doubled ((Path.segments _).foldl _ (w.locate base).names) = l
  rw [Location.foldl_follow_relativeTo hl, ← same]

/-- So two locations that look the same from a base are the same. -/
theorem eq_of_relative_eq (hl : l.IsNormal) (hk : k.IsNormal)
    (same : l.doubled = (w.locate base).doubled) (same' : k.doubled = (w.locate base).doubled)
    (h : w.relative l base = w.relative k base) : l = k := by
  rw [← locate_join_relative hl same, h, locate_join_relative hk same']

end Workspace

end SourceSurvey
