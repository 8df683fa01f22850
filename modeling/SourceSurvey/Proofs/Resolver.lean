import SourceSurvey.Resolver

/-!
# What the resolver finds

Whatever the resolver answers is a file of the disk: a candidate is only taken if there is a file, and a
specifier that leads to a file as it stands leads to the location it is resolved to.
-/

namespace SourceSurvey

/-- Following a path name by name ends, if it ends, where the names lead without looking at the disk. -/
theorem Disk.walk_eq_foldl {d : Disk} {path here there : List String} (h : d.walk here path = .ok there) :
    there = path.foldl Location.follow here := by
  induction path generalizing here with
  | nil => exact (Except.ok.inj h).symm
  | cons name rest ih =>
      rw [Disk.walk] at h
      split at h
      · exact ih h
      · cases h

theorem Location.names_resolve (cwd : Location) (p : String) : (cwd.resolve p).names =
    (Path.segments p).foldl follow (if Path.isAbsolute p then [] else cwd.names) := by
  unfold resolve
  split <;> rfl

/-- A path that leads to a file means the location of that file. -/
theorem Disk.isFile_of_leadsToFile {d : Disk} {cwd : Location} {p : String} (h : d.leadsToFile cwd p = true) :
    d.isFile (cwd.resolve p).names = true := by
  unfold leadsToFile at h
  split at h
  · next names found =>
    unfold find at found
    split at found
    · cases found
    · rw [Location.names_resolve, ← walk_eq_foldl found]
      exact h
  · cases h

namespace Resolver

variable {r : Resolver} {l : Location}

theorem isFile_of_firstFile? {candidates : List Location} (h : r.firstFile? candidates = some l) :
    r.workspace.disk.isFile l.names = true := by
  have accepted := List.find?_some h
  exact accepted

theorem isFile_of_resolve? {fromDir baseDir specifier : String}
    (h : r.resolve? fromDir baseDir specifier = some l) : r.workspace.disk.isFile l.names = true := by
  unfold resolve? at h
  split at h
  · cases h
  · next relative =>
    split at h
    · exact isFile_of_firstFile? h
    · split at h
      · next leads =>
        obtain rfl := Option.some.inj h
        exact Disk.isFile_of_leadsToFile leads
      · exact isFile_of_firstFile? h

end Resolver

end SourceSurvey
