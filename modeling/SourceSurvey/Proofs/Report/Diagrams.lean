import Mathlib.Data.List.Infix
import SourceSurvey.Proofs.Report.Directories
import SourceSurvey.Report.Dependency

/-!
# Diagrams of files and directories

A diagram is a text of lines: packages that are opened and closed, rectangles, and arrows (`DiagramLine`). Read
from top to bottom with the packages that are open (`DiagramLine.rectangles?`), the diagram of files has one
rectangle for each edge, inside of the packages of its directories, and one arrow for each import. An arrow
leads from one name to another that the diagram declares, as long as every import is the source of an edge: by
a rectangle in the diagram of files, by a package in that of directories (`Report.diagrams_of_edges`).
-/

namespace SourceSurvey

/-- One line of a diagram. Rectangles and packages have a name for show and a label that arrows refer to. -/
inductive DiagramLine where
  | package (name label : String)
  | close
  | rectangle (name label : String)
  | arrow (source target : String)
deriving DecidableEq, Repr

namespace DiagramLine

/-- The lines as they are written, if `depth` packages are open before them. -/
def draw (depth : Nat) : List DiagramLine → List String
  | [] => []
  | package name label :: rest =>
    (Text.indent depth ++ "package \"" ++ name ++ "\" as " ++ label ++ " \x7b") :: draw (depth + 1) rest
  | close :: rest => (Text.indent (depth - 1) ++ "\x7d") :: draw (depth - 1) rest
  | rectangle name label :: rest =>
    (Text.indent depth ++ "rectangle \"" ++ name ++ "\" as " ++ label) :: draw depth rest
  | arrow source target :: rest => (source ++ " ---> " ++ target) :: draw depth rest

/-- The rectangles of lines, each with the packages around it from the outermost in, if `around` are open
before the lines, from the innermost out. None if a package is closed that is not open, or stays open. -/
def rectangles? : List (String × String) → List DiagramLine →
    Option (List (List (String × String) × String × String))
  | [], [] => some []
  | _ :: _, [] => none
  | around, package name label :: rest => rectangles? ((name, label) :: around) rest
  | [], close :: _ => none
  | _ :: around, close :: rest => rectangles? around rest
  | around, rectangle name label :: rest =>
    (rectangles? around rest).map fun later => (around.reverse, name, label) :: later
  | around, arrow _ _ :: rest => rectangles? around rest

def ends? : DiagramLine → Option (String × String)
  | arrow source target => some (source, target)
  | _ => none

def packageLabel? : DiagramLine → Option String
  | package _ label => some label
  | _ => none

end DiagramLine

namespace Report

open DirectoryGroup
open DiagramLine (draw rectangles? ends? packageLabel?)

/-! ## The lines of a tree -/

def rectangleLine (f : String × Edge) : DiagramLine :=
  .rectangle f.1 (plainName f.2.source)

mutual

/-- The lines of a directory: a package for each directory inside, and its files if they are shown. -/
def blockLines (showFiles : Bool) : DirectoryGroup → List DiagramLine
  | .group _ dirs files =>
    blockLinesOfDirs showFiles dirs ++ if showFiles then files.map rectangleLine else []

def blockLinesOfDirs (showFiles : Bool) : List (String × DirectoryGroup) → List DiagramLine
  | [] => []
  | (name, g) :: rest =>
    .package name (plainName (rootName g.label)) :: blockLines showFiles g
      ++ .close :: blockLinesOfDirs showFiles rest

end

theorem draw_rectangles (depth : Nat) (files : List (String × Edge)) (rest : List DiagramLine) :
    draw depth (files.map rectangleLine ++ rest) = files.map (rectangle depth) ++ draw depth rest := by
  induction files with
  | nil => rfl
  | cons f files ih => exact congrArg (rectangle depth f :: ·) ih

mutual

theorem draw_blockLines (showFiles : Bool) (depth : Nat) (rest : List DiagramLine) : ∀ g : DirectoryGroup,
    draw depth (blockLines showFiles g ++ rest) = packages showFiles depth g ++ draw depth rest
  | .group _ dirs files => by
      rw [blockLines, packages, List.append_assoc, List.append_assoc, draw_blockLinesOfDirs]
      cases showFiles with
      | true => exact congrArg (_ ++ ·) (draw_rectangles depth files rest)
      | false => rfl

theorem draw_blockLinesOfDirs (showFiles : Bool) (depth : Nat) (rest : List DiagramLine) :
    ∀ dirs : List (String × DirectoryGroup), draw depth (blockLinesOfDirs showFiles dirs ++ rest) =
      packagesOfDirs showFiles depth dirs ++ draw depth rest
  | [] => rfl
  | (name, g) :: dirs => by
      rw [blockLinesOfDirs, packagesOfDirs, List.append_assoc, List.cons_append, List.cons_append, draw,
        draw_blockLines, draw, Nat.add_sub_cancel, draw_blockLinesOfDirs]
      simp

end

section FilterMap

variable {α : Type} {q : DiagramLine → Option α}

mutual

/-- What is asked of packages alone is answered by the directories of the tree. -/
theorem filterMap_blockLines (closes : q .close = none) (bare : ∀ name label, q (.rectangle name label) = none)
    (showFiles : Bool) (done : List String) : ∀ g : DirectoryGroup,
    (blockLines showFiles g).filterMap q = (rooms done g).filterMap fun r =>
      q (.package (r.1.getLast?.getD "") (plainName (rootName r.2)))
  | .group _ dirs files => by
      have plain : (if showFiles then files.map rectangleLine else []).filterMap q = [] := by
        refine List.filterMap_eq_nil_iff.mpr fun line hline => ?_
        cases showFiles with
        | true =>
            obtain ⟨f, -, rfl⟩ := List.mem_map.mp hline
            exact bare f.1 _
        | false => exact absurd hline List.not_mem_nil
      rw [blockLines, rooms, List.filterMap_append, plain, List.append_nil,
        filterMap_blockLinesOfDirs closes bare showFiles done dirs]

theorem filterMap_blockLinesOfDirs (closes : q .close = none)
    (bare : ∀ name label, q (.rectangle name label) = none) (showFiles : Bool) (done : List String) :
    ∀ dirs : List (String × DirectoryGroup), (blockLinesOfDirs showFiles dirs).filterMap q =
      (roomsOfDirs done dirs).filterMap fun r => q (.package (r.1.getLast?.getD "") (plainName (rootName r.2)))
  | [] => rfl
  | (name, g) :: dirs => by
      have last : (done ++ [name]).getLast?.getD "" = name := by simp
      rw [blockLinesOfDirs, roomsOfDirs, List.cons_append, List.cons_append, List.filterMap_cons,
        List.filterMap_cons, List.filterMap_append, List.filterMap_append, List.filterMap_cons_none closes, last,
        filterMap_blockLines closes bare showFiles (done ++ [name]) g,
        filterMap_blockLinesOfDirs closes bare showFiles done dirs]

end

end FilterMap

theorem filterMap_ends?_blockLines (showFiles : Bool) (g : DirectoryGroup) :
    (blockLines showFiles g).filterMap ends? = [] := by
  rw [filterMap_blockLines rfl (fun _ _ => rfl) showFiles []]
  exact List.filterMap_eq_nil_iff.mpr fun _ _ => rfl

theorem filterMap_packageLabel?_blockLines (showFiles : Bool) (g : DirectoryGroup) :
    (blockLines showFiles g).filterMap packageLabel? = (rooms [] g).map fun r => plainName (rootName r.2) := by
  rw [filterMap_blockLines rfl (fun _ _ => rfl) showFiles []]
  exact congrFun List.filterMap_eq_map _

/-! ## The packages around a file -/

/-- The label of the directory that names lead to: underlines for slashes, and root for the top. -/
def directoryLabel (path : List String) : String :=
  rootName (plainName (Text.join "/" path))

/-- The packages of the directories that names lead through, from the outermost in. -/
def packagesOn (path : List String) : List (String × String) :=
  path.inits.tail.map fun p => (p.getLast?.getD "", directoryLabel p)

theorem reverse_packagesOn_snoc (done : List String) (name : String) :
    (packagesOn (done ++ [name])).reverse =
      (name, directoryLabel (done ++ [name])) :: (packagesOn done).reverse := by
  have some_init : done.inits ≠ [] := List.ne_nil_of_mem ((List.mem_inits [] done).mpr (List.nil_prefix))
  have inits : (done ++ [name]).inits.tail = done.inits.tail ++ [done ++ [name]] := by
    rw [List.inits_append, List.tail_append_of_ne_nil some_init]
    rfl
  rw [packagesOn, inits, List.map_append, List.reverse_append]
  simp [packagesOn]

/-- A file as it is shown: the packages around it, its name and its label. -/
def shown (f : List String × String × Edge) : List (String × String) × String × String :=
  (packagesOn f.1, f.2.1, plainName f.2.2.source)

theorem rectangles?_files (done : List String) (files : List (String × Edge)) (rest : List DiagramLine) :
    rectangles? (packagesOn done).reverse (files.map rectangleLine ++ rest) =
      (rectangles? (packagesOn done).reverse rest).map ((files.map fun f => shown (done, f.1, f.2)) ++ ·) := by
  induction files with
  | nil => simp
  | cons f files ih =>
      rw [List.map_cons, List.cons_append, rectangleLine, rectangles?, ih, Option.map_map, List.reverse_reverse]
      rfl

/-- Every directory in the tree has the label of the names that lead to it. -/
def Labelled (rooms : List (List String × String)) : Prop :=
  ∀ r ∈ rooms, plainName (rootName r.2) = directoryLabel r.1

mutual

/-- **The rectangles of a directory stand in the packages of the names that lead to them.** -/
theorem rectangles?_blockLines (done : List String) (rest : List DiagramLine) : ∀ g : DirectoryGroup,
    Labelled (rooms done g) →
    rectangles? (packagesOn done).reverse (blockLines true g ++ rest) =
      (rectangles? (packagesOn done).reverse rest).map ((placed done g).map shown ++ ·)
  | .group _ dirs files, labelled => by
      rw [blockLines, placed, if_pos rfl, List.append_assoc, rectangles?_blockLinesOfDirs done _ dirs labelled,
        rectangles?_files, Option.map_map, List.map_append, List.map_map]
      refine congrArg (Option.map · _) (funext fun later => ?_)
      exact (List.append_assoc _ _ _).symm

theorem rectangles?_blockLinesOfDirs (done : List String) (rest : List DiagramLine) :
    ∀ dirs : List (String × DirectoryGroup), Labelled (roomsOfDirs done dirs) →
    rectangles? (packagesOn done).reverse (blockLinesOfDirs true dirs ++ rest) =
      (rectangles? (packagesOn done).reverse rest).map ((placedInDirs done dirs).map shown ++ ·)
  | [], _ => by simp [blockLinesOfDirs, placedInDirs]
  | (name, g) :: dirs, labelled => by
      obtain ⟨here, labelled⟩ := List.forall_mem_cons.mp labelled
      obtain ⟨inside, beside⟩ := List.forall_mem_append.mp labelled
      rw [blockLinesOfDirs, placedInDirs, List.append_assoc, List.cons_append, List.cons_append, rectangles?, here,
        ← reverse_packagesOn_snoc, rectangles?_blockLines (done ++ [name]) _ g inside, reverse_packagesOn_snoc,
        rectangles?, rectangles?_blockLinesOfDirs done rest dirs beside, Option.map_map, List.map_append]
      refine congrArg (Option.map · _) (funext fun later => ?_)
      exact (List.append_assoc _ _ _).symm

end

/-! ## Labels -/

theorem not_mem_plainName (s : String) : '/' ∉ (plainName s).toList := by
  rw [plainName, Text.replaceChar, String.toList_ofList, List.mem_flatMap]
  rintro ⟨c, -, slash⟩
  split at slash
  · exact absurd slash (by decide)
  · next other => exact other (List.mem_singleton.mp slash).symm

theorem plainName_rootName_plainName (s : String) :
    plainName (rootName (plainName s)) = rootName (plainName s) := by
  refine plainName_of_not_mem ?_
  unfold rootName
  split
  · decide
  · exact not_mem_plainName s

theorem labelled_ofEdges (edges : List Edge) : Labelled (rooms [] (ofEdges edges)) := by
  intro r hr
  obtain ⟨⟨e, -, way⟩, label⟩ := room_spec r hr
  have plain : ∀ n ∈ r.1, '/' ∉ n.toList := fun n hn => not_mem_of_mem_pathOf (way.subset hn)
  rw [label, ← plainName_joined plain, plainName_rootName_plainName]
  rfl

theorem rootName_plainDirectory {path : String} (h : Path.IsNormal path) :
    rootName (plainDirectory path) = directoryLabel (pathOf path) := by
  rw [plainDirectory_eq h, ← plainName_joined fun n hn => not_mem_of_mem_pathOf hn]
  rfl

/-! ## Whole diagrams -/

def arrowLines (arrows : List (String × String)) : List DiagramLine :=
  arrows.map fun a => .arrow a.1 a.2

theorem draw_arrowLines (depth : Nat) (arrows : List (String × String)) :
    draw depth (arrowLines arrows) = arrows.map fun a => arrow a.1 a.2 := by
  induction arrows with
  | nil => rfl
  | cons a arrows ih => exact congrArg (arrow a.1 a.2 :: ·) ih

theorem rectangles?_arrowLines (arrows : List (String × String)) : rectangles? [] (arrowLines arrows) = some [] := by
  induction arrows with
  | nil => rfl
  | cons a arrows ih => exact ih

theorem filterMap_ends?_arrowLines (arrows : List (String × String)) :
    (arrowLines arrows).filterMap ends? = arrows := by
  rw [arrowLines, List.filterMap_map]
  exact List.filterMap_some

def importArrows (edges : List Edge) : List (String × String) :=
  edges.flatMap fun e => e.imports.map fun i => (plainName e.source, plainName i)

def fileLines (edges : List Edge) : List DiagramLine :=
  blockLines true (ofEdges edges) ++ arrowLines (importArrows (ofEdges edges).edges)

def directoryLines (edges : List Edge) : List DiagramLine :=
  blockLines false (ofEdges edges) ++ arrowLines (directoryPairs edges)

theorem fileDiagram_eq (edges : List Edge) (title : String) :
    fileDiagram edges title = Text.unlines (diagramHeader title ++ draw 0 (fileLines edges) ++ diagramFooter) := by
  rw [fileDiagram, fileLines, draw_blockLines, draw_arrowLines, importArrows, List.map_flatMap]
  simp only [List.map_map, List.append_assoc]
  rfl

theorem directoryDiagram_eq (edges : List Edge) (title : String) :
    directoryDiagram edges title =
      Text.unlines (diagramHeader title ++ draw 0 (directoryLines edges) ++ diagramFooter) := by
  rw [directoryDiagram, directoryLines, draw_blockLines, draw_arrowLines]
  simp only [List.append_assoc]

theorem rectangles?_fileLines (edges : List Edge) :
    rectangles? [] (fileLines edges) = some ((placed [] (ofEdges edges)).map shown) := by
  have read := rectangles?_blockLines [] (arrowLines (importArrows (ofEdges edges).edges)) (ofEdges edges)
    (labelled_ofEdges edges)
  refine read.trans ?_
  show (rectangles? [] _).map _ = _
  rw [rectangles?_arrowLines, Option.map_some, List.append_nil]

theorem filterMap_ends?_fileLines (edges : List Edge) :
    (fileLines edges).filterMap ends? = importArrows (ofEdges edges).edges := by
  rw [fileLines, List.filterMap_append, filterMap_ends?_blockLines, filterMap_ends?_arrowLines, List.nil_append]

theorem filterMap_ends?_directoryLines (edges : List Edge) :
    (directoryLines edges).filterMap ends? = directoryPairs edges := by
  rw [directoryLines, List.filterMap_append, filterMap_ends?_blockLines, filterMap_ends?_arrowLines, List.nil_append]

theorem directoryLabel_mem {edges : List Edge} {e : Edge} (he : e ∈ edges) :
    directoryLabel (pathOf e.source) ∈ (directoryLines edges).filterMap packageLabel? := by
  rw [directoryLines, List.filterMap_append, filterMap_packageLabel?_blockLines]
  refine List.mem_append_left _ (List.mem_map.mpr ⟨_, mem_rooms he, ?_⟩)
  exact labelled_ofEdges edges _ (mem_rooms he)

theorem exists_of_mem_directoryPairs {edges : List Edge} (distinct : (edges.map Edge.source).Nodup)
    (normal : ∀ e ∈ edges, Path.IsNormal e.source) {a : String × String} (ha : a ∈ directoryPairs edges) :
    ∃ e ∈ edges, ∃ i ∈ e.imports, a = (rootName (plainDirectory e.source), rootName (plainDirectory i)) := by
  have shape : directoryPairs edges =
      (pairs (ofEdges edges).dependencies).map fun p => (rootName p.1, rootName p.2) := by
    rw [directoryPairs, pairs, List.map_flatMap]
    simp only [List.map_map]
    rfl
  rw [shape] at ha
  obtain ⟨p, hp, rfl⟩ := List.mem_map.mp ha
  obtain ⟨e, he, crossing⟩ := List.mem_flatMap.mp ((perm_pairs_dependencies distinct normal).mem_iff.mp hp)
  obtain ⟨i, hi, rfl⟩ := List.mem_map.mp (List.mem_filter.mp crossing).1
  exact ⟨e, he, i, hi, rfl⟩

/-- **The diagrams of edges.** The sources are distinct paths in normal form, and every import is a source. The
diagram of files is written line by line: read back, its packages are closed in turn, and there is exactly one
rectangle for each edge, inside of the packages of its directories, and exactly one arrow for each import of each
edge. The diagram of directories has the listed pairs of directories for arrows. In both, an arrow leads from a
label to a label that the diagram declares, there by a rectangle and here by a package. -/
theorem diagrams_of_edges (edges : List Edge) (title : String) (distinct : (edges.map Edge.source).Nodup)
    (normal : ∀ e ∈ edges, Path.IsNormal e.source)
    (closed : ∀ e ∈ edges, ∀ i ∈ e.imports, i ∈ edges.map Edge.source) :
    (fileDiagram edges title = Text.unlines (diagramHeader title ++ draw 0 (fileLines edges) ++ diagramFooter) ∧
      ∃ rectangles, rectangles? [] (fileLines edges) = some rectangles ∧
        rectangles.Perm (edges.map fun e =>
          (packagesOn (pathOf e.source), Path.fileName e.source, plainName e.source)) ∧
        ((fileLines edges).filterMap ends?).Perm (edges.flatMap fun e =>
          e.imports.map fun i => (plainName e.source, plainName i)) ∧
        ∀ a ∈ (fileLines edges).filterMap ends?,
          a.1 ∈ rectangles.map (fun r => r.2.2) ∧ a.2 ∈ rectangles.map fun r => r.2.2) ∧
    (directoryDiagram edges title =
        Text.unlines (diagramHeader title ++ draw 0 (directoryLines edges) ++ diagramFooter) ∧
      (directoryLines edges).filterMap ends? = directoryPairs edges ∧
      ∀ a ∈ (directoryLines edges).filterMap ends?,
        a.1 ∈ (directoryLines edges).filterMap packageLabel? ∧
          a.2 ∈ (directoryLines edges).filterMap packageLabel?) := by
  have rectangles : ((placed [] (ofEdges edges)).map shown).Perm (edges.map fun e =>
      (packagesOn (pathOf e.source), Path.fileName e.source, plainName e.source)) := by
    have perm := (perm_placed distinct normal).map shown
    rwa [List.map_map] at perm
  have arrows : ((fileLines edges).filterMap ends?).Perm (importArrows edges) := by
    rw [filterMap_ends?_fileLines]
    exact (perm_edges distinct normal).flatMap_right _
  -- a source has a rectangle, and an import is a source
  have declared {e : Edge} (he : e ∈ edges) :
      plainName e.source ∈ ((placed [] (ofEdges edges)).map shown).map fun r => r.2.2 := by
    rw [(rectangles.map _).mem_iff, List.map_map]
    exact List.mem_map.mpr ⟨e, he, rfl⟩
  refine ⟨⟨fileDiagram_eq edges title, _, rectangles?_fileLines edges, rectangles, arrows, fun a ha => ?_⟩,
    directoryDiagram_eq edges title, filterMap_ends?_directoryLines edges, fun a ha => ?_⟩
  · obtain ⟨e, he, mem⟩ := List.mem_flatMap.mp (arrows.mem_iff.mp ha)
    obtain ⟨i, hi, rfl⟩ := List.mem_map.mp mem
    obtain ⟨d, hd, same⟩ := List.mem_map.mp (closed e he i hi)
    subst same
    exact ⟨declared he, declared hd⟩
  · rw [filterMap_ends?_directoryLines] at ha
    obtain ⟨e, he, i, hi, rfl⟩ := exists_of_mem_directoryPairs distinct normal ha
    obtain ⟨d, hd, same⟩ := List.mem_map.mp (closed e he i hi)
    subst same
    dsimp only
    rw [rootName_plainDirectory (normal e he), rootName_plainDirectory (normal d hd)]
    exact ⟨directoryLabel_mem he, directoryLabel_mem hd⟩

/-- Files at the top, two directories down and in a directory beside, which import each other. -/
theorem diagrams_of_edges_downAndBeside :
    let edges : List Edge :=
      [⟨"ui/parts/a.ts", ["main.ts", "../lib/c.ts"]⟩, ⟨"main.ts", ["ui/parts/a.ts"]⟩, ⟨"../lib/c.ts", []⟩]
    (edges.map Edge.source).Nodup ∧ (∀ e ∈ edges, Path.IsNormal e.source) ∧
      (∀ e ∈ edges, ∀ i ∈ e.imports, i ∈ edges.map Edge.source) ∧
      (∃ rectangles, rectangles? [] (fileLines edges) = some rectangles ∧
        rectangles.Perm
          [ ([("ui", "ui"), ("parts", "ui_parts")], "a.ts", "ui_parts_a.ts"),
            ([(".", "root")], "main.ts", "main.ts"),
            ([("..", ".."), ("lib", ".._lib")], "c.ts", ".._lib_c.ts") ]) ∧
      directoryPairs edges = [("ui_parts", "root"), ("ui_parts", ".._lib"), ("root", "ui_parts")] ∧
      ∀ a ∈ directoryPairs edges, a.1 ∈ (directoryLines edges).filterMap packageLabel? ∧
        a.2 ∈ (directoryLines edges).filterMap packageLabel? := by
  intro edges
  have distinct : (edges.map Edge.source).Nodup := by decide
  have normal : ∀ e ∈ edges, Path.IsNormal e.source := by
    simp only [edges, List.forall_mem_cons]
    refine ⟨Or.inr ⟨0, ["ui", "parts", "a.ts"], ?_⟩, Or.inr ⟨0, ["main.ts"], ?_⟩,
      Or.inr ⟨1, ["lib", "c.ts"], ?_⟩, by simp⟩ <;> decide
  have closed : ∀ e ∈ edges, ∀ i ∈ e.imports, i ∈ edges.map Edge.source := by decide
  obtain ⟨⟨-, rectangles, read, perm, -⟩, -, arrows, declared⟩ :=
    diagrams_of_edges edges "" distinct normal closed
  have pairs : directoryPairs edges = [("ui_parts", "root"), ("ui_parts", ".._lib"), ("root", "ui_parts")] := by
    decide +kernel
  rw [arrows] at declared
  refine ⟨distinct, normal, closed, ⟨rectangles, read, perm.trans (List.Perm.of_eq ?_)⟩, pairs, declared⟩
  decide

end Report

end SourceSurvey
