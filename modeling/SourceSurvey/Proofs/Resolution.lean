import SourceSurvey.Proofs.Path.Normal

/-!
# The order in which a specifier is looked for

The paths that a specifier may mean, as texts and in order (`Resolver.paths`): the specifier as it stands, then its
completions, each in normal form. What a specifier is resolved to is the location of the first of these paths that
leads to a file (`Resolver.resolves_first`). That the completions are in normal form makes a difference: a directory
that is left again need not be there for them, although it must be for the specifier as it stands
(`Resolver.resolves_leaving_missing_directory`).
-/

namespace SourceSurvey

namespace Resolver

/-- A path below a root, completed by every extension in turn. -/
def completed (r : Resolver) (root path : String) : List String :=
  r.extensions.map fun ext => Path.join root (path ++ ext)

/-- The two series of paths below a root: the specifier, and the index file of a directory. -/
def below (r : Resolver) (specifier root : String) : List String :=
  r.completed root specifier ++ r.completed root (specifier ++ "/index")

/-- The completions of a specifier: as given, below the directory of the importing file, and below the base
directory. The dot is only completed to the index file of its directory. -/
def completions (r : Resolver) (fromDir baseDir specifier : String) : List String :=
  if specifier = "." then r.completed (if fromDir = "" then "." else fromDir) "index"
  else r.below specifier "" ++ (if fromDir = "" then [] else r.below specifier fromDir) ++
    (if baseDir = "" then [] else r.below specifier baseDir)

/-- The specifier as it stands, unless it is the dot. -/
def literal (specifier : String) : List String :=
  if specifier = "." then [] else [specifier]

def paths (r : Resolver) (fromDir baseDir specifier : String) : List String :=
  literal specifier ++ (r.completions fromDir baseDir specifier).map Path.normalize

variable {r : Resolver} {specifier : String}

/-! ## Candidates -/

theorem complete_eq (r : Resolver) (root path : String) :
    r.complete root path = (r.completed root path).map r.workspace.locate := by
  rw [completed, List.map_map]
  rfl

theorem candidates_eq (r : Resolver) (specifier root : String) :
    r.candidates specifier root = (r.below specifier root).map r.workspace.locate := by
  rw [candidates, complete_eq, complete_eq, below, List.map_append]

theorem flatMap_candidates (r : Resolver) (fromDir baseDir : String) (h : specifier ≠ ".") :
    (roots fromDir baseDir).flatMap (r.candidates specifier) =
      (r.completions fromDir baseDir specifier).map r.workspace.locate := by
  have optional (dir : String) : ([dir].filter (· != "")).flatMap (r.candidates specifier) =
      (if dir = "" then [] else r.below specifier dir).map r.workspace.locate := by
    by_cases empty : dir = ""
    · rw [if_pos empty, empty]
      rfl
    · have kept : [dir].filter (· != "") = [dir] := List.filter_cons_of_pos (bne_iff_ne.mpr empty)
      rw [if_neg empty, kept, ← candidates_eq, List.flatMap_singleton]
  rw [roots, List.flatMap_cons, ← List.singleton_append, List.filter_append, List.flatMap_append, optional, optional,
    completions, if_neg h, List.map_append, List.map_append, candidates_eq, List.append_assoc]

/-- The first candidate that is a file is the first path in normal form that leads to one. -/
theorem firstFile?_map (hd : r.workspace.disk.WellFormed)
    (dir : r.workspace.disk.isDirectory r.workspace.cwd.names = true) (ps : List String) :
    r.firstFile? (ps.map r.workspace.locate) =
      ((ps.map Path.normalize).find? (r.workspace.disk.leadsToFile r.workspace.cwd)).map r.workspace.locate := by
  have leads : (fun l : Location => r.workspace.disk.isFile l.names) ∘ r.workspace.locate =
      r.workspace.disk.leadsToFile r.workspace.cwd ∘ Path.normalize :=
    funext fun p => (Disk.leadsToFile_normalize hd dir p).symm
  have located : r.workspace.locate ∘ Path.normalize = r.workspace.locate :=
    funext fun p => Location.resolve_normalize r.workspace.cwd p
  rw [firstFile?, List.find?_map, List.find?_map, leads, Option.map_map, located]

theorem resolve?_eq (hd : r.workspace.disk.WellFormed)
    (dir : r.workspace.disk.isDirectory r.workspace.cwd.names = true) (fromDir baseDir : String)
    (relative : ¬ Path.isAbsolute specifier = true) : r.resolve? fromDir baseDir specifier =
      ((r.paths fromDir baseDir specifier).find? (r.workspace.disk.leadsToFile r.workspace.cwd)).map r.workspace.locate := by
  rw [resolve?, if_neg relative]
  by_cases dot : specifier = "."
  · rw [if_pos dot, complete_eq, firstFile?_map hd dir, paths, literal, if_pos dot, completions, if_pos dot, here,
      List.nil_append]
  · rw [if_neg dot, paths, literal, if_neg dot, List.singleton_append, List.find?_cons]
    by_cases leads : r.workspace.disk.leadsToFile r.workspace.cwd specifier = true
    · rw [if_pos leads, leads]
      rfl
    · rw [if_neg leads, flatMap_candidates r fromDir baseDir dot, firstFile?_map hd dir,
        Bool.eq_false_iff.mpr leads]

/-! ## The first path that leads to a file -/

/-- **A specifier is resolved to the first of its paths that leads to a file.** The working directory is a directory
in normal form. The answer is the location that the path means; there is none if and only if the specifier is
absolute or no path leads to a file. Every answer is in normal form, there is a file at it, and its text leads to
that file. A completion that leads to a file as it stands does so in normal form, too. -/
theorem resolves_first (hd : r.workspace.disk.WellFormed) (normal : r.workspace.cwd.IsNormal)
    (dir : r.workspace.disk.isDirectory r.workspace.cwd.names = true) (fromDir baseDir specifier : String) :
    (∀ l, r.resolve? fromDir baseDir specifier = some l ↔
        Path.isAbsolute specifier = false ∧ ∃ before p after,
          r.paths fromDir baseDir specifier = before ++ p :: after ∧
          (∀ q ∈ before, r.workspace.disk.leadsToFile r.workspace.cwd q = false) ∧
          r.workspace.disk.leadsToFile r.workspace.cwd p = true ∧ l = r.workspace.locate p) ∧
      (r.resolve? fromDir baseDir specifier = none ↔
        Path.isAbsolute specifier = true ∨
          ∀ p ∈ r.paths fromDir baseDir specifier, r.workspace.disk.leadsToFile r.workspace.cwd p = false) ∧
      (∀ l, r.resolve? fromDir baseDir specifier = some l →
        l.IsNormal ∧ r.workspace.disk.isFile l.names = true ∧
          r.workspace.disk.leadsToFile r.workspace.cwd l.text = true) ∧
      ∀ p ∈ r.completions fromDir baseDir specifier, r.workspace.disk.leadsToFile r.workspace.cwd p = true →
        r.workspace.disk.leadsToFile r.workspace.cwd (Path.normalize p) = true := by
  have simplifies : ∀ p ∈ r.completions fromDir baseDir specifier,
      r.workspace.disk.leadsToFile r.workspace.cwd p = true →
        r.workspace.disk.leadsToFile r.workspace.cwd (Path.normalize p) = true := by
    intro p _ leads
    rw [Disk.leadsToFile_normalize hd dir]
    exact Disk.isFile_of_leadsToFile leads
  by_cases absolute : Path.isAbsolute specifier = true
  · have none : r.resolve? fromDir baseDir specifier = none := by rw [resolve?, if_pos absolute]
    refine ⟨fun l => ?_, ?_, fun l found => ?_, simplifies⟩
    · simp [none, absolute]
    · simp [none, absolute]
    · rw [none] at found
      cases found
  have equal := resolve?_eq hd dir fromDir baseDir absolute
  refine ⟨fun l => ?_, ?_, fun l found => ?_, simplifies⟩
  · rw [equal, Option.map_eq_some_iff]
    simp only [Bool.eq_false_iff.mpr absolute, true_and, List.find?_eq_some_iff_append]
    constructor
    · rintro ⟨p, ⟨leads, before, after, split, missed⟩, rfl⟩
      exact ⟨before, p, after, split, fun q hq => by simpa using missed q hq, leads, rfl⟩
    · rintro ⟨before, p, after, split, missed, leads, rfl⟩
      exact ⟨p, ⟨leads, before, after, split, fun q hq => by simpa using missed q hq⟩, rfl⟩
  · rw [equal, Option.map_eq_none_iff, List.find?_eq_none]
    simp [absolute]
  · have file := isFile_of_resolve? found
    rw [equal] at found
    obtain ⟨p, -, rfl⟩ := Option.map_eq_some_iff.mp found
    have isNormal : (r.workspace.locate p).IsNormal := Location.isNormal_resolve (Or.inr normal)
    exact ⟨isNormal, file, by rw [Disk.leadsToFile_text hd dir isNormal, file]⟩

/-- A disk with a library beside the sources, seen from the directory that holds both. -/
def besideLibrary : Resolver where
  workspace := {
    disk := {
      directories := [["w"], ["w", "src"], ["w", "lib"]]
      files := [(["w", "lib", "index.ts"], []), (["w", "src", "lib.ts"], [])] }
    cwd := ⟨false, ["w"]⟩ }
  extensions := ["", ".ts"]

theorem resolves_first_besideLibrary : besideLibrary.workspace.disk.WellFormed ∧
    besideLibrary.workspace.cwd.IsNormal ∧
    besideLibrary.workspace.disk.isDirectory besideLibrary.workspace.cwd.names = true ∧
    besideLibrary.resolve? "src" "" "./gone/../../lib/" = some ⟨false, ["w", "lib", "index.ts"]⟩ := by
  have hd : besideLibrary.workspace.disk.WellFormed := by decide
  have normal : besideLibrary.workspace.cwd.IsNormal := by decide
  have dir : besideLibrary.workspace.disk.isDirectory besideLibrary.workspace.cwd.names = true := by decide
  refine ⟨hd, normal, dir, ((resolves_first hd normal dir "src" "" "./gone/../../lib/").1 _).mpr ⟨by decide, ?_⟩⟩
  exact ⟨["./gone/../../lib/", "../lib", "../lib/.ts", "../lib/index", "../lib/index.ts", "lib", "lib/.ts", "lib/index"],
    "lib/index.ts", [], by decide, by decide, by decide, by decide⟩

/-- A disk with two files, one of which has the name of the other with an extension. -/
def twoExtensions : Resolver where
  workspace := {
    disk := { directories := [["w"]], files := [(["w", "a.ts"], []), (["w", "a.ts.ts"], [])] }
    cwd := ⟨false, ["w"]⟩ }
  extensions := [".ts"]

/-- Through a directory that is not there, no path leads to a file as it stands, neither the specifier nor one of its
completions. The specifier is resolved all the same, and not to the location that it means itself, although there is
a file, but to that of a completion. -/
theorem resolves_leaving_missing_directory :
    (∀ p ∈ literal "gone/../a.ts" ++ twoExtensions.completions "" "" "gone/../a.ts",
      twoExtensions.workspace.disk.leadsToFile twoExtensions.workspace.cwd p = false) ∧
    twoExtensions.workspace.locate "gone/../a.ts" = ⟨false, ["w", "a.ts"]⟩ ∧
    twoExtensions.workspace.disk.isFile ["w", "a.ts"] = true ∧
    twoExtensions.resolve? "" "" "gone/../a.ts" = some ⟨false, ["w", "a.ts.ts"]⟩ := by
  decide

end Resolver

end SourceSurvey
