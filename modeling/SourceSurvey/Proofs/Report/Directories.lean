import Mathlib.Data.List.Induction
import Mathlib.Data.List.Nodup
import Mathlib.Data.List.Perm.Basic
import SourceSurvey.Proofs.Path.Directory
import SourceSurvey.Report.DirectoryGroup

/-!
# Edges by directory

Sorting edges into the tree of their directories loses none and repeats none, as long as their sources are
distinct paths in normal form (`DirectoryGroup.perm_placed`): each lies in the directory that its path names.
What is collected from the tree is then what the edges say one by one. The dependencies between directories
are the imports whose two directories have different plain names (`DirectoryGroup.perm_dependencies`), which
are all imports from one directory into another, unless two directories are written alike.
-/

namespace SourceSurvey

/-- **Setting a key adds what its value adds.** What a keyed list comes to, if each key comes to what `f` says:
a new value that comes to `more` and to what the key had before leaves the list with `more` and all it had. -/
theorem perm_flatMap_put {α β : Type} (f : String × α → List β) (more : List β) {key : String} {value : α}
    {l : List (String × α)}
    (h : (f (key, value)).Perm (more ++ (l.lookup key).elim [] fun old => f (key, old))) :
    ((put key value l).flatMap f).Perm (more ++ l.flatMap f) := by
  induction l with
  | nil => simpa [put] using h
  | cons head rest ih =>
      obtain ⟨k, old⟩ := head
      by_cases same : k = key
      · subst same
        rw [List.lookup_cons_self] at h
        rw [put, if_pos rfl, List.flatMap_cons, List.flatMap_cons, ← List.append_assoc]
        exact h.append_right _
      · have skipped : ((k, old) :: rest).lookup key = rest.lookup key := by
          rw [List.lookup_cons, beq_false_of_ne (Ne.symm same)]
        rw [skipped] at h
        rw [put, if_neg same, List.flatMap_cons, List.flatMap_cons]
        exact ((ih h).append_left _).trans (List.perm_append_comm_assoc _ _ _)

theorem mem_put {α : Type} (key : String) (value : α) (l : List (String × α)) : (key, value) ∈ put key value l := by
  induction l with
  | nil => exact List.mem_cons_self
  | cons head rest ih =>
      rw [put]
      split
      · next same =>
        rw [same]
        exact List.mem_cons_self
      · exact List.mem_cons_of_mem _ ih

namespace DirectoryGroup

variable {done names : List String} {file : String} {edge : Edge}

/-! ## Where the files are -/

mutual

/-- The files of a directory that `done` has led to, each with the names that lead to its own directory. -/
def placed (done : List String) : DirectoryGroup → List (List String × String × Edge)
  | group _ dirs files => placedInDirs done dirs ++ files.map fun f => (done, f.1, f.2)

def placedInDirs (done : List String) : List (String × DirectoryGroup) → List (List String × String × Edge)
  | [] => []
  | (name, g) :: rest => placed (done ++ [name]) g ++ placedInDirs done rest

end

theorem placedInDirs_eq (done : List String) (dirs : List (String × DirectoryGroup)) :
    placedInDirs done dirs = dirs.flatMap fun d => placed (done ++ [d.1]) d.2 := by
  induction dirs with
  | nil => rfl
  | cons d dirs ih => rw [placedInDirs, List.flatMap_cons, ih]

mutual

theorem edges_eq (done : List String) : ∀ g : DirectoryGroup, edges g = (placed done g).map fun f => f.2.2
  | group _ dirs files => by
      rw [edges, placed, List.map_append, List.map_map, edgesOfDirs_eq done dirs]
      rfl

theorem edgesOfDirs_eq (done : List String) :
    ∀ dirs : List (String × DirectoryGroup), edgesOfDirs dirs = (placedInDirs done dirs).map fun f => f.2.2
  | [] => rfl
  | (name, g) :: rest => by
      rw [edgesOfDirs, placedInDirs, List.map_append, edges_eq (done ++ [name]) g, edgesOfDirs_eq done rest]

end

/-- The place of a file: the names that lead to its directory, and its own. -/
def place (f : List String × String × Edge) : List String × String := (f.1, f.2.1)

theorem placed_subset {dirs : List (String × DirectoryGroup)} {name label : String} {files : List (String × Edge)}
    {g : DirectoryGroup} (found : dirs.lookup name = some g) :
    placed (done ++ [name]) g ⊆ placed done (group label dirs files) := by
  intro f hf
  obtain ⟨front, back, split, -⟩ := List.lookup_eq_some_iff.mp found
  rw [placed, placedInDirs_eq, split]
  exact List.mem_append_left _ (List.mem_flatMap.mpr ⟨(name, g), by simp, hf⟩)

/-- **A file that is put where none was is one more file.** -/
theorem perm_placed_insert (g : DirectoryGroup) (free : (done ++ names, file) ∉ (placed done g).map place) :
    (placed done (insert file edge done names g)).Perm ((done ++ names, file, edge) :: placed done g) := by
  induction names generalizing done g with
  | nil =>
      obtain ⟨label, dirs, files⟩ := g
      rw [List.append_nil] at free ⊢
      have absent : files.lookup file = none := by
        refine List.lookup_eq_none_iff.mpr fun f hf => bne_iff_ne.mpr ?_
        rintro rfl
        refine free (List.mem_map.mpr ⟨(done, f.1, f.2), ?_, rfl⟩)
        exact List.mem_append_right _ (List.mem_map_of_mem hf)
      have added : ((put file edge files).flatMap fun f => [(done, f.1, f.2)]).Perm
          ([(done, file, edge)] ++ files.flatMap fun f => [(done, f.1, f.2)]) :=
        perm_flatMap_put _ _ (by rw [absent]; exact List.Perm.refl _)
      rw [insert, placed, placed, List.map_eq_flatMap, List.map_eq_flatMap]
      exact (added.append_left _).trans List.perm_middle
  | cons name names ih =>
      obtain ⟨label, dirs, files⟩ := g
      have path : done ++ name :: names = (done ++ [name]) ++ names := by simp
      rw [path] at free ⊢
      rw [insert, placed, placed, placedInDirs_eq, placedInDirs_eq]
      refine List.Perm.append_right _ (perm_flatMap_put _ [(done ++ [name] ++ names, file, edge)] ?_)
      cases found : dirs.lookup name with
      | none => exact ih _ List.not_mem_nil
      | some g => exact ih g fun mem => free (List.map_subset _ (placed_subset found) mem)

/-! ## The directories of the tree -/

mutual

/-- The directories in a directory that `done` has led to, each with the names that lead to it and its label. -/
def rooms (done : List String) : DirectoryGroup → List (List String × String)
  | group _ dirs _ => roomsOfDirs done dirs

def roomsOfDirs (done : List String) : List (String × DirectoryGroup) → List (List String × String)
  | [] => []
  | (name, g) :: rest => (done ++ [name], g.label) :: rooms (done ++ [name]) g ++ roomsOfDirs done rest

end

theorem roomsOfDirs_eq (done : List String) (dirs : List (String × DirectoryGroup)) :
    roomsOfDirs done dirs = dirs.flatMap fun d => (done ++ [d.1], d.2.label) :: rooms (done ++ [d.1]) d.2 := by
  induction dirs with
  | nil => rfl
  | cons d dirs ih => rw [roomsOfDirs, List.flatMap_cons, ih]

theorem label_insert (g : DirectoryGroup) : (insert file edge done names g).label = g.label := by
  obtain ⟨label, dirs, files⟩ := g
  cases names <;> rfl

/-- Putting a file somewhere keeps all directories. Those it adds are on the way there, and are labelled by the
names that lead to them. -/
theorem exists_perm_rooms_insert (done : List String) (g : DirectoryGroup) : ∃ more,
    (rooms done (insert file edge done names g)).Perm (more ++ rooms done g) ∧
      ∀ r ∈ more, r.1 <+: done ++ names ∧ r.2 = Text.join "_" r.1 := by
  induction names generalizing done g with
  | nil =>
      obtain ⟨label, dirs, files⟩ := g
      exact ⟨[], List.Perm.refl _, by simp⟩
  | cons name names ih =>
      obtain ⟨label, dirs, files⟩ := g
      have path : done ++ name :: names = (done ++ [name]) ++ names := by simp
      rw [path, insert, rooms, rooms, roomsOfDirs_eq, roomsOfDirs_eq]
      cases found : dirs.lookup name with
      | none =>
          obtain ⟨more, perm, added⟩ := ih (done ++ [name]) (empty (Text.join "_" (done ++ [name])))
          refine ⟨(done ++ [name], Text.join "_" (done ++ [name])) :: more, perm_flatMap_put _ _ ?_,
            List.forall_mem_cons.mpr ⟨⟨List.prefix_append _ _, rfl⟩, added⟩⟩
          rw [found, label_insert]
          exact perm.cons _
      | some g =>
          obtain ⟨more, perm, added⟩ := ih (done ++ [name]) g
          refine ⟨more, perm_flatMap_put _ _ ?_, added⟩
          rw [found, label_insert]
          exact (perm.cons _).trans List.perm_middle.symm

theorem mem_rooms_insert (done : List String) (some : names ≠ []) (g : DirectoryGroup) :
    done ++ names ∈ (rooms done (insert file edge done names g)).map Prod.fst := by
  induction names generalizing done g with
  | nil => exact absurd rfl some
  | cons name names ih =>
      obtain ⟨label, dirs, files⟩ := g
      rw [insert, rooms, roomsOfDirs_eq]
      refine List.map_subset _ (fun r hr => List.mem_flatMap.mpr ⟨_, mem_put name _ dirs, hr⟩) ?_
      by_cases last : names = []
      · subst last
        exact List.mem_cons_self
      · have inner := ih (done ++ [name]) last
          ((dirs.lookup name).getD (empty (Text.join "_" (done ++ [name]))))
        rw [List.append_assoc, List.singleton_append] at inner
        exact List.mem_cons_of_mem _ inner

/-! ## All edges -/

theorem ofEdges_snoc (edges : List Edge) (e : Edge) :
    ofEdges (edges ++ [e]) = (ofEdges edges).insert (Path.fileName e.source) e [] (pathOf e.source) := by
  rw [ofEdges, List.foldl_append]
  rfl

theorem place_not_mem {edges : List Edge} {e : Edge} (normal : ∀ d ∈ edges ++ [e], Path.IsNormal d.source)
    (new : e.source ∉ edges.map Edge.source) :
    (pathOf e.source, Path.fileName e.source) ∉
      edges.map fun d => (pathOf d.source, Path.fileName d.source) := by
  intro mem
  obtain ⟨d, hd, same⟩ := List.mem_map.mp mem
  obtain ⟨path, file⟩ := Prod.mk.inj same
  have equal : d.source = e.source :=
    eq_of_pathOf_eq (normal d (List.mem_append_left _ hd)) (normal e (by simp)) path file
  exact new (equal ▸ List.mem_map_of_mem hd)

/-- **The tree of directories holds every edge once, in the directory that its source names.** -/
theorem perm_placed {edges : List Edge} (distinct : (edges.map Edge.source).Nodup)
    (normal : ∀ e ∈ edges, Path.IsNormal e.source) :
    (placed [] (ofEdges edges)).Perm
      (edges.map fun e => (pathOf e.source, Path.fileName e.source, e)) := by
  induction edges using List.reverseRecOn with
  | nil => exact List.Perm.refl _
  | append_singleton edges e ih =>
      rw [List.map_append, List.map_singleton, List.nodup_append] at distinct
      obtain ⟨before, -, apart⟩ := distinct
      have old := ih before fun d hd => normal d (List.mem_append_left _ hd)
      have new : e.source ∉ edges.map Edge.source := fun mem => apart _ mem _ List.mem_cons_self rfl
      have free : ([] ++ pathOf e.source, Path.fileName e.source) ∉ (placed [] (ofEdges edges)).map place := by
        rw [(old.map place).mem_iff, List.map_map]
        exact place_not_mem normal new
      rw [ofEdges_snoc, List.map_append]
      refine (perm_placed_insert _ free).trans ((old.cons _).trans ?_)
      exact List.perm_append_singleton _ _ |>.symm

theorem perm_edges {edges : List Edge} (distinct : (edges.map Edge.source).Nodup)
    (normal : ∀ e ∈ edges, Path.IsNormal e.source) : (ofEdges edges).edges.Perm edges := by
  rw [edges_eq []]
  refine ((perm_placed distinct normal).map _).trans ?_
  rw [List.map_map]
  exact List.Perm.of_eq (List.map_id edges)

/-- Every directory is on the way to a source, and is labelled by the names that lead to it. -/
theorem room_spec {edges : List Edge} : ∀ r ∈ rooms [] (ofEdges edges),
    (∃ e ∈ edges, r.1 <+: pathOf e.source) ∧ r.2 = Text.join "_" r.1 := by
  induction edges using List.reverseRecOn with
  | nil => exact fun _ none => absurd none List.not_mem_nil
  | append_singleton edges e ih =>
      intro r hr
      rw [ofEdges_snoc] at hr
      obtain ⟨more, perm, added⟩ := exists_perm_rooms_insert [] (ofEdges edges)
      rcases List.mem_append.mp (perm.mem_iff.mp hr) with new | old
      · obtain ⟨way, label⟩ := added r new
        exact ⟨⟨e, by simp, way⟩, label⟩
      · obtain ⟨⟨d, hd, way⟩, label⟩ := ih r old
        exact ⟨⟨d, List.mem_append_left _ hd, way⟩, label⟩

/-- **Every edge has the directory of its source in the tree.** -/
theorem mem_rooms {edges : List Edge} {e : Edge} (he : e ∈ edges) :
    (pathOf e.source, Text.join "_" (pathOf e.source)) ∈ rooms [] (ofEdges edges) := by
  have there : pathOf e.source ∈ (rooms [] (ofEdges edges)).map Prod.fst := by
    induction edges using List.reverseRecOn with
    | nil => exact absurd he List.not_mem_nil
    | append_singleton edges d ih =>
        rw [ofEdges_snoc]
        rcases List.mem_append.mp he with old | new
        · obtain ⟨more, perm, -⟩ := exists_perm_rooms_insert [] (ofEdges edges)
          rw [(perm.map Prod.fst).mem_iff, List.map_append]
          exact List.mem_append_right _ (ih old)
        · rw [List.mem_singleton.mp new]
          exact mem_rooms_insert [] (pathOf_ne_nil d.source) (ofEdges edges)
  obtain ⟨r, hr, path⟩ := List.mem_map.mp there
  rw [← path, ← (room_spec r hr).2]
  exact hr

/-! ## Dependencies -/

/-- The pairs that are listed: each directory with each of those it imports from. -/
def pairs (deps : List (String × List String)) : List (String × String) :=
  deps.flatMap fun d => d.2.map fun target => (d.1, target)

theorem perm_pairs_addDependency (deps : List (String × List String)) (p : String × String) :
    (pairs (addDependency deps p)).Perm (p :: pairs deps) := by
  refine perm_flatMap_put _ [p] ?_
  rw [List.map_append]
  refine (List.perm_append_singleton p _).trans ?_
  cases deps.lookup p.1 <;> exact List.Perm.refl _

theorem perm_pairs_foldl (ps : List (String × String)) (deps : List (String × List String)) :
    (pairs (ps.foldl addDependency deps)).Perm (ps ++ pairs deps) := by
  induction ps generalizing deps with
  | nil => exact List.Perm.refl _
  | cons p ps ih =>
      refine (ih (addDependency deps p)).trans ?_
      exact ((perm_pairs_addDependency deps p).append_left ps).trans List.perm_middle

theorem perm_pairs_dependencies {edges : List Edge} (distinct : (edges.map Edge.source).Nodup)
    (normal : ∀ e ∈ edges, Path.IsNormal e.source) :
    (pairs (ofEdges edges).dependencies).Perm (edges.flatMap crossings) := by
  refine (perm_pairs_foldl _ []).trans ?_
  rw [pairs, List.flatMap_nil, List.append_nil]
  exact (perm_edges distinct normal).flatMap_right crossings

/-- The directory that a path lies in; a dot if it names none. -/
def homeOf (path : String) : String :=
  if Path.directory path = "" then "." else Path.directory path

/-- The directories of an edge's source and of its imports from elsewhere, as plain names. -/
def importsFromElsewhere (e : Edge) : List (String × String) :=
  (e.imports.filter fun i => homeOf e.source ≠ homeOf i).map fun i =>
    (plainName (homeOf e.source), plainName (homeOf i))

theorem plainDirectory_eq_homeOf (path : String) : plainDirectory path = plainName (homeOf path) := rfl

/-- Of the imports from elsewhere only those are seen where the plain names differ. -/
theorem crossings_eq (e : Edge) : crossings e = (importsFromElsewhere e).filter fun p => p.1 ≠ p.2 := by
  have apart (i : String) (h : plainName (homeOf e.source) ≠ plainName (homeOf i)) : homeOf e.source ≠ homeOf i :=
    fun same => h (congrArg plainName same)
  simp only [crossings, importsFromElsewhere, plainDirectory_eq_homeOf, List.filter_map, List.filter_filter]
  refine congrArg (List.map _) (List.filter_congr fun i _ => ?_)
  rw [Bool.eq_iff_iff]
  simpa using apart i

/-- A filtered list is the whole list again if and only if nothing was dropped. -/
theorem perm_filter_iff {α : Type} {p : α → Bool} {l : List α} : (l.filter p).Perm l ↔ ∀ a ∈ l, p a = true := by
  constructor
  · intro perm
    exact List.length_filter_eq_length_iff.mp perm.length_eq
  · intro all
    rw [List.filter_eq_self.mpr all]

/-- **The dependencies between directories are the imports from one into another whose plain names differ.**
For edges whose sources are distinct paths in normal form, the pairs that are listed are, each as often as there
is an import for it, the directories of a source and of an import from elsewhere, less those that have the same
plain name. So all imports from elsewhere are listed if and only if each comes from a directory of another plain
name. -/
theorem perm_dependencies (edges : List Edge) (distinct : (edges.map Edge.source).Nodup)
    (normal : ∀ e ∈ edges, Path.IsNormal e.source) :
    let listed := (ofEdges edges).dependencies.flatMap fun d => d.2.map fun target => (d.1, target)
    let elsewhere := edges.flatMap fun e =>
      (e.imports.filter fun i => homeOf e.source ≠ homeOf i).map fun i =>
        (plainName (homeOf e.source), plainName (homeOf i))
    listed.Perm (elsewhere.filter fun p => p.1 ≠ p.2) ∧
      (listed.Perm elsewhere ↔ ∀ e ∈ edges, ∀ i ∈ e.imports,
        homeOf e.source ≠ homeOf i → plainName (homeOf e.source) ≠ plainName (homeOf i)) := by
  intro listed elsewhere
  have seen : listed.Perm (elsewhere.filter fun p => p.1 ≠ p.2) := by
    refine (perm_pairs_dependencies distinct normal).trans (List.Perm.of_eq ?_)
    rw [List.filter_flatMap]
    exact List.flatMap_congr fun e _ => crossings_eq e
  refine ⟨seen, ?_⟩
  calc listed.Perm elsewhere
      ↔ (elsewhere.filter fun p => p.1 ≠ p.2).Perm elsewhere := ⟨seen.symm.trans, seen.trans⟩
    _ ↔ ∀ p ∈ elsewhere, decide (p.1 ≠ p.2) = true := perm_filter_iff
    _ ↔ _ := by
        simp only [elsewhere, List.forall_mem_flatMap, List.forall_mem_map, List.mem_filter, decide_eq_true_eq]
        exact ⟨fun h e he i hi apart => h e he i ⟨hi, apart⟩, fun h e he i hi => h e he i hi.1 hi.2⟩

/-- Two files of one directory and one above, and imports across. -/
theorem perm_dependencies_upAndAcross :
    let edges : List Edge :=
      [⟨"ui/a.ts", ["ui/b.ts", "../lib/c.ts", "main.ts"]⟩, ⟨"ui/b.ts", ["main.ts"]⟩, ⟨"main.ts", ["ui/a.ts"]⟩,
        ⟨"../lib/c.ts", []⟩]
    (edges.map Edge.source).Nodup ∧ (∀ e ∈ edges, Path.IsNormal e.source) ∧
      ((ofEdges edges).dependencies.flatMap fun d => d.2.map fun target => (d.1, target)).Perm
        [("ui", ".._lib"), ("ui", "."), ("ui", "."), (".", "ui")] := by
  intro edges
  have distinct : (edges.map Edge.source).Nodup := by decide
  have normal : ∀ e ∈ edges, Path.IsNormal e.source := by
    simp only [edges, List.forall_mem_cons]
    refine ⟨Or.inr ⟨0, ["ui", "a.ts"], ?_⟩, Or.inr ⟨0, ["ui", "b.ts"], ?_⟩, Or.inr ⟨0, ["main.ts"], ?_⟩,
      Or.inr ⟨1, ["lib", "c.ts"], ?_⟩, by simp⟩ <;> decide
  refine ⟨distinct, normal, ((perm_dependencies edges distinct normal).2.mpr ?_).trans (List.Perm.of_eq ?_)⟩
  · decide
  · decide

/-- **An underline in a name hides an import.** Two different directories are written alike, so that what the one
imports from the other is taken for its own. -/
theorem not_perm_dependencies_underline :
    let edges : List Edge := [⟨"a_b/x.ts", ["a/b/y.ts"]⟩, ⟨"a/b/y.ts", []⟩]
    let listed := (ofEdges edges).dependencies.flatMap fun d => d.2.map fun target => (d.1, target)
    let elsewhere := edges.flatMap fun e =>
      (e.imports.filter fun i => homeOf e.source ≠ homeOf i).map fun i =>
        (plainName (homeOf e.source), plainName (homeOf i))
    (edges.map Edge.source).Nodup ∧ (∀ e ∈ edges, Path.IsNormal e.source) ∧
      listed = [] ∧ elsewhere = [("a_b", "a_b")] ∧ ¬ listed.Perm elsewhere := by
  intro edges listed elsewhere
  have normal : ∀ e ∈ edges, Path.IsNormal e.source := by
    simp only [edges, List.forall_mem_cons]
    refine ⟨Or.inr ⟨0, ["a_b", "x.ts"], ?_⟩, Or.inr ⟨0, ["a", "b", "y.ts"], ?_⟩, by simp⟩ <;> decide
  have none : listed = [] := by decide +kernel
  have one : elsewhere = [("a_b", "a_b")] := by decide
  refine ⟨by decide, normal, none, one, fun perm => ?_⟩
  rw [none, one] at perm
  exact absurd perm.length_eq (by decide)

end DirectoryGroup

end SourceSurvey
