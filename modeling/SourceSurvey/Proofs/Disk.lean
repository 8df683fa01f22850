import Mathlib.Data.List.Induction
import SourceSurvey.Grammar
import SourceSurvey.Keyed
import SourceSurvey.Proofs.Path.Relative
import SourceSurvey.Proofs.Resolver

/-!
# Files that are found again

On the disk a path is followed name by name, and every name on the way must be a directory. So a file that
is written as seen from some place is found again from that place if the place is a directory, or the file
itself, and in no other case (`Disk.walk_stepsFrom`). Whichever path leads to a file ends with the name of
the file, and therefore tells the same language (`Disk.languageOf?_of_walk`).
-/

namespace SourceSurvey

namespace Disk

/-- Everything lies in a directory, and no file is one. -/
structure WellFormed (d : Disk) : Prop where
  directories : ∀ names ∈ d.directories, d.isDirectory names.dropLast = true
  files : ∀ f ∈ d.files, d.isDirectory f.1.dropLast = true ∧ d.isDirectory f.1 = false

instance (d : Disk) : Decidable d.WellFormed :=
  decidable_of_iff ((∀ names ∈ d.directories, d.isDirectory names.dropLast = true) ∧
      ∀ f ∈ d.files, d.isDirectory f.1.dropLast = true ∧ d.isDirectory f.1 = false)
    ⟨fun h => ⟨h.1, h.2⟩, fun h => ⟨h.directories, h.files⟩⟩

variable {d : Disk} {here there names path : List String}

namespace WellFormed

variable (hd : d.WellFormed)

include hd

theorem isDirectory_dropLast (h : d.isDirectory names = true) : d.isDirectory names.dropLast = true := by
  rcases Bool.or_eq_true_iff.mp h with empty | mem
  · rw [List.isEmpty_iff.mp empty]
    rfl
  · exact hd.directories names (List.contains_iff_mem.mp mem)

theorem isDirectory_take (h : d.isDirectory names = true) (k : Nat) : d.isDirectory (names.take k) = true := by
  induction names using List.reverseRecOn generalizing k with
  | nil => rwa [List.take_nil]
  | append_singleton front last ih =>
      have below : d.isDirectory front = true := by
        have := hd.isDirectory_dropLast h
        rwa [List.dropLast_concat] at this
      rcases Nat.lt_or_ge front.length k with all | some
      · rwa [List.take_of_length_le (by rw [List.length_append]; exact all)]
      · rw [List.take_append_of_le_length some]
        exact ih below k

theorem of_isFile (h : d.isFile names = true) :
    d.isDirectory names.dropLast = true ∧ d.isDirectory names = false := by
  obtain ⟨bytes, found⟩ := Option.isSome_iff_exists.mp h
  exact hd.files _ (mem_of_lookup found)

theorem isDirectory_take_of_isFile (h : d.isFile names = true) {k : Nat} (hk : k < names.length) :
    d.isDirectory (names.take k) = true := by
  have short : names.take k = names.dropLast.take k := by
    rw [List.dropLast_eq_take, List.take_take, Nat.min_eq_left (by omega)]
  rw [short]
  exact hd.isDirectory_take (hd.of_isFile h).1 k

end WellFormed

/-! ## Following paths -/

theorem walk_append (path more : List String) :
    d.walk here (path ++ more) = d.walk here path >>= fun there => d.walk there more := by
  induction path generalizing here with
  | nil => rfl
  | cons name rest ih =>
      rw [List.cons_append, walk, walk]
      split
      · exact ih
      · rfl

/-- In a directory, names that lead nowhere can be left out. -/
theorem walk_idle {idle : List String} (dir : d.isDirectory here = true) (stays : ∀ n ∈ idle, n = "" ∨ n = ".") :
    d.walk here (idle ++ path) = d.walk here path := by
  induction idle with
  | nil => rfl
  | cons n rest ih =>
      rw [List.cons_append, walk, if_pos dir, Location.follow, if_pos (stays n List.mem_cons_self)]
      exact ih fun m hm => stays m (List.mem_cons_of_mem n hm)

/-- A tidy path is followed like the names that lead somewhere. -/
theorem find_tidy {cwd : Location} (dir : d.isDirectory cwd.names = true) (p : String) :
    d.find cwd (Path.tidy p) = d.walk (if Path.isAbsolute p then [] else cwd.names) (Path.names p) := by
  obtain ⟨nonempty, absolute, idle, stays, split⟩ := Path.tidy_spec p
  have start : d.isDirectory (if Path.isAbsolute p then [] else cwd.names) = true := by
    split
    · rfl
    · exact dir
  have same : (if Path.isAbsolute (Path.tidy p) then [] else cwd.names) =
      if Path.isAbsolute p then [] else cwd.names := by
    simp only [absolute]
  rw [find, if_neg nonempty, split, same, walk_idle start stays]

theorem walk_up (hd : d.WellFormed) (dir : d.isDirectory here = true) (k : Nat) :
    d.walk here (List.replicate k "..") = .ok (here.take (here.length - k)) := by
  induction k generalizing here with
  | zero => rw [List.replicate_zero, walk, Nat.sub_zero, List.take_length]
  | succ k ih =>
      have up : Location.follow here ".." = here.dropLast := by
        rw [Location.follow, if_neg (by decide), if_pos rfl]
      rw [List.replicate_succ, walk, if_pos dir, up, ih (hd.isDirectory_dropLast dir), List.dropLast_eq_take,
        List.length_take, List.take_take]
      congr 2
      omega

theorem walk_down (name : ∀ n ∈ path, Path.IsName n)
    (dir : ∀ k, k < path.length → d.isDirectory (here ++ path.take k) = true) :
    d.walk here path = .ok (here ++ path) := by
  induction path generalizing here with
  | nil => rw [walk, List.append_nil]
  | cons n rest ih =>
      have first := dir 0 (Nat.zero_lt_succ _)
      rw [List.take_zero, List.append_nil] at first
      rw [walk, if_pos first, Location.follow_isName (name n List.mem_cons_self),
        ih (fun m hm => name m (List.mem_cons_of_mem n hm)), List.append_assoc]
      · rfl
      · intro k hk
        have next := dir (k + 1) (Nat.succ_lt_succ hk)
        rwa [List.take_succ_cons, List.append_cons] at next

/-- **From a directory every file is found, and from any other place only what is there itself.** -/
theorem walk_stepsFrom (hd : d.WellFormed) {l : Location} (start : Location) (hl : l.IsNormal)
    (file : d.isFile l.names = true) :
    d.walk start.names (l.stepsFrom start) =
      if d.isDirectory start.names = true ∨ start.names = l.names then .ok l.names
      else .error (d.blocked start.names) := by
  by_cases dir : d.isDirectory start.names = true
  · have le := Location.shared_le start.names l.names
    have name : ∀ n ∈ l.names.drop (Location.shared start.names l.names), Path.IsName n :=
      fun n hn => hl n (List.mem_of_mem_drop hn)
    rw [if_pos (Or.inl dir), Location.stepsFrom, walk_append, walk_up hd dir, Nat.sub_sub_self le,
      Location.take_shared]
    show d.walk (l.names.take _) (l.names.drop _) = _
    rw [walk_down name, List.take_append_drop]
    intro k hk
    rw [List.length_drop] at hk
    rw [← List.take_add]
    exact hd.isDirectory_take_of_isFile file (by omega)
  · have back : (l.stepsFrom start).foldl Location.follow start.names = l.names :=
      Location.foldl_follow_stepsFrom hl
    cases steps : l.stepsFrom start with
    | nil =>
        rw [steps] at back
        replace back : start.names = l.names := back
        rw [if_pos (Or.inr back), walk, back]
    | cons n rest =>
        have elsewhere : start.names ≠ l.names := by
          intro same
          rw [Location.stepsFrom_eq_nil same] at steps
          cases steps
        rw [walk, if_neg dir, if_neg (not_or.mpr ⟨dir, elsewhere⟩)]

/-! ## The name of a file -/

/-- **A path that leads to a file ends with its name.** -/
theorem getLast?_of_walk (hd : d.WellFormed) (dir : d.isDirectory here = true)
    (leads : ∀ n ∈ path, Path.Leads n) (h : d.walk here path = .ok there) (file : d.isFile there = true) :
    path.getLast? = there.getLast? := by
  have notDirectory := (hd.of_isFile file).2
  rcases List.eq_nil_or_concat path with rfl | ⟨front, last, rfl⟩
  · cases h
    exact absurd dir (by rw [notDirectory]; decide)
  · rw [List.concat_eq_append] at *
    rw [walk_append] at h
    cases around : d.walk here front with
    | error e =>
        rw [around] at h
        cases h
    | ok place =>
        rw [around] at h
        replace h : d.walk place [last] = .ok there := h
        rw [walk] at h
        split at h
        · next placed =>
          cases h
          obtain ⟨h₁, h₂, -⟩ := leads last (by simp)
          by_cases up : last = ".."
          · -- what lies above a directory is no file
            have above : Location.follow place last = place.dropLast := by
              rw [Location.follow, if_neg (not_or.mpr ⟨h₁, h₂⟩), if_pos up]
            rw [above, hd.isDirectory_dropLast placed] at notDirectory
            cases notDirectory
          · rw [Location.follow, if_neg (not_or.mpr ⟨h₁, h₂⟩), if_neg up, List.getLast?_concat,
              List.getLast?_concat]
        · cases h

theorem languageOf?_of_walk (hd : d.WellFormed) (dir : d.isDirectory here = true) {p : String} {l : Location}
    (hl : l.IsNormal) (h : d.walk here (Path.names p) = .ok l.names) (file : d.isFile l.names = true) :
    languageOf? p = languageOf? l.text := by
  have last := getLast?_of_walk hd dir (fun n hn => Path.leads_of_mem_names hn) h file
  rw [languageOf?, languageOf?, Path.extension, Path.extension, last, Location.names_text hl]

end Disk

end SourceSurvey
