import Mathlib.Data.List.Infix
import SourceSurvey.Proofs.Import.Specifiers
import SourceSurvey.Proofs.Marking.ImportPaths
import SourceSurvey.Proofs.Survey.Reports
import SourceSurvey.Proofs.Text.Encoding
import SourceSurvey.Proofs.Tree.Navigation

/-!
# Edges and reports name the same files

The imports of a file are found twice: by the scan, which looks at its characters, and by the report on
the file, which looks at its tree. The scan resolves a specifier in the directory of the location it has
come to, the report in the directory of the name under which the file was looked for again. Both are the
same directory, as long as nothing starts with exactly two slashes: that name leads back to the location
(`Workspace.locate_join_relative`). So a specifier that both have found means the same file to both
(`Survey.importPath_attention`).
-/

namespace SourceSurvey

open Text

/-! ## Nothing starts with two slashes -/

namespace Workspace

variable {w : Workspace} {path : String}

theorem doubled_locate (single : w.cwd.doubled = false) (plain : Path.root path ≠ "//") :
    (w.locate path).doubled = false := by
  unfold locate Location.resolve
  split
  · exact decide_eq_false plain
  · exact single

/-- A relative path starts like the root it is joined to. -/
theorem doubled_locate_join {root : String} (plain : (w.locate root).doubled = false)
    (relative : ¬ Path.isAbsolute path = true) : (w.locate (Path.join root path)).doubled = false := by
  rw [locate, Location.resolve_join w.cwd root relative]
  exact plain

end Workspace

namespace Resolver

variable {r : Resolver} {specifier : String} {l : Location}

theorem not_isAbsolute_append {path : String} (nonempty : path ≠ "") (relative : ¬ Path.isAbsolute path = true)
    (more : String) : ¬ Path.isAbsolute (path ++ more) = true := by
  rw [Path.isAbsolute_iff] at relative ⊢
  rintro ⟨rest, chars⟩
  rw [String.toList_append] at chars
  cases start : path.toList with
  | nil => exact nonempty (String.toList_eq_nil_iff.mp start)
  | cons c cs =>
      rw [start, List.cons_append] at chars
      exact relative ⟨cs, by rw [start, (List.cons.inj chars).1]⟩

theorem doubled_of_mem_complete {root path : String} (plain : (r.workspace.locate root).doubled = false)
    (nonempty : path ≠ "") (relative : ¬ Path.isAbsolute path = true) (h : l ∈ r.complete root path) :
    l.doubled = false := by
  obtain ⟨ext, -, rfl⟩ := List.mem_map.mp h
  exact Workspace.doubled_locate_join plain (not_isAbsolute_append nonempty relative ext)

/-- What a specifier means starts with two slashes only if one of the directories does that it is looked
for in. -/
theorem doubled_of_resolve? {fromDir baseDir : String} (cwd : r.workspace.cwd.doubled = false)
    (here : (r.workspace.locate fromDir).doubled = false) (base : (r.workspace.locate baseDir).doubled = false)
    (nonempty : specifier ≠ "") (h : r.resolve? fromDir baseDir specifier = some l) : l.doubled = false := by
  unfold resolve? at h
  split at h
  · cases h
  next relative =>
  split at h
  · have shown : (r.workspace.locate (Resolver.here fromDir)).doubled = false := by
      unfold Resolver.here
      split
      · exact cwd
      · exact here
    exact doubled_of_mem_complete shown (by decide) (by decide) (List.mem_of_find?_eq_some h)
  split at h
  · cases h
    rw [Workspace.locate, Location.resolve, if_neg relative]
    exact cwd
  · obtain ⟨root, hroot, candidate⟩ := List.mem_flatMap.mp (List.mem_of_find?_eq_some h)
    have plain : (r.workspace.locate root).doubled = false := by
      rcases List.mem_cons.mp hroot with rfl | hroot
      · exact cwd
      · have among := List.mem_of_mem_filter hroot
        rcases List.mem_pair.mp among with rfl | rfl
        · exact here
        · exact base
    rcases List.mem_append.mp candidate with candidate | candidate
    · exact doubled_of_mem_complete plain nonempty relative candidate
    · apply doubled_of_mem_complete plain _ (not_isAbsolute_append nonempty relative "/index") candidate
      intro empty
      have := congrArg String.toList empty
      simp at this

end Resolver

namespace Scan

variable {r : Resolver} {base : String} {first l : Location}

/-- No file starts with two slashes that is reached from one that does not. -/
theorem Reaches.doubled (cwd : r.workspace.cwd.IsNormal) (single : r.workspace.cwd.doubled = false)
    (plain : (r.workspace.locate base).doubled = false) (hfirst : first.IsNormal)
    (entered : first.doubled = false) (reached : Reaches r base first l) : l.doubled = false := by
  induction reached with
  | refl => exact entered
  | @tail k l before imports ih =>
      obtain ⟨bytes, -, hl⟩ := imports
      obtain ⟨specifier, mem, resolved⟩ := List.mem_filterMap.mp (List.mem_eraseDups.mp hl)
      have normal : k.parent.IsNormal := by
        intro n hn
        exact Reaches.isNormal cwd hfirst before n (List.mem_of_mem_dropLast hn)
      have here : (r.workspace.locate k.parent.text).doubled = false := by
        rw [Workspace.locate, Location.resolve_text r.workspace.cwd normal]
        exact ih
      exact Resolver.doubled_of_resolve? single here plain (ne_empty_of_mem_specifiers mem) resolved

end Scan

/-! ## Finding the file again -/

/-- Wherever a tidy path leads, it leads to the location that the path means. -/
theorem Disk.eq_of_find_tidy {d : Disk} {cwd : Location} {path : String} {names : List String}
    (h : d.find cwd (Path.tidy path) = .ok names) : names = (cwd.resolve path).names := by
  obtain ⟨nonempty, absolute, idle, stays, parts⟩ := Path.tidy_spec path
  rw [find, if_neg nonempty, parts] at h
  rw [walk_eq_foldl h, List.foldl_append, Location.foldl_follow_idle stays, Location.foldl_follow_segments,
    Location.resolve]
  by_cases rooted : Path.isAbsolute path = true
  · rw [if_pos rooted, if_pos (absolute.mpr rooted)]
  · rw [if_neg rooted, if_neg (mt absolute.mp rooted)]

theorem textDropping_of_textOf {bytes : Bytes} {text : String} (h : textOf bytes = .ok text) :
    textDropping bytes = text := by
  unfold textOf at h
  split at h
  · next decoded =>
    cases h
    rw [textDropping, Utf8.decodeDropping_of_decode? decoded]
  · cases h

theorem exists_of_bind_eq_ok {ε α β : Type} {x : Except ε α} {f : α → Except ε β} {y : β}
    (h : x >>= f = .ok y) : ∃ a, x = .ok a ∧ f a = .ok y := by
  cases x with
  | error e => cases h
  | ok a => exact ⟨a, rfl, h⟩

theorem exists_of_mem_mapM {ε α β : Type} {f : α → Except ε β} {l : List α} {found : List β} {y : β}
    (h : l.mapM f = .ok found) (hy : y ∈ found) : ∃ x ∈ l, f x = .ok y := by
  induction l generalizing found with
  | nil =>
      cases h
      cases hy
  | cons x rest ih =>
      rw [List.mapM_cons] at h
      obtain ⟨first, one, h⟩ := exists_of_bind_eq_ok h
      obtain ⟨later, others, h⟩ := exists_of_bind_eq_ok h
      cases h
      rcases List.mem_cons.mp hy with rfl | hy
      · exact ⟨x, List.mem_cons_self, one⟩
      · obtain ⟨w, hw, two⟩ := ih others hy
        exact ⟨w, List.mem_cons_of_mem x hw, two⟩

namespace Survey

variable {s : Survey} {entry file : String} {l : Location}

def memo (s : Survey) (entry : String) : Memo :=
  (Session.scan { base := s.base, extensions := s.extensions } s.workspace entry).value.memo

/-- What a specifier that stands in a file adds to the imports of the file, if it means any. -/
def contribution (s : Survey) (l : Location) (specifier : String) : Option String :=
  (s.resolver.resolve? l.parent.text s.base specifier).map s.sourceOf

def edgeOf (s : Survey) (e : Location × List Location) : Edge :=
  ⟨s.sourceOf e.1, e.2.map s.sourceOf⟩

theorem dependencies_eq (s : Survey) (entry : String) :
    (s.dependencies entry).value = (s.memo entry).map s.edgeOf := rfl

/-! ## Taking a survey apart -/

theorem of_result_attention {edges : List Edge} {reports : List FileReport}
    (h : (s.attention entry).result = .ok (edges, reports)) :
    edges = (s.memo entry).map s.edgeOf ∧ ∀ report ∈ reports, ∃ e ∈ s.memo entry,
      (s.analyze (Path.join s.base (s.sourceOf e.1)) (some (s.sourceOf e.1))).result = .ok (some report) := by
  simp only [attention, SurveyM.result_bind, SurveyM.result_lift, SurveyM.result_mapM, SurveyM.result_pure] at h
  obtain ⟨_, ⟨⟩, h⟩ := exists_of_bind_eq_ok h
  obtain ⟨found, collected, h⟩ := exists_of_bind_eq_ok h
  cases h
  refine ⟨rfl, ?_⟩
  intro report hreport
  obtain ⟨_, mem, rfl⟩ := List.mem_filterMap.mp hreport
  obtain ⟨source, hsource, one⟩ := exists_of_mem_mapM collected mem
  rw [List.mem_eraseDups, dependencies_eq, List.map_map] at hsource
  obtain ⟨e, he, rfl⟩ := List.mem_map.mp hsource
  exact ⟨e, he, one⟩

theorem mem_scanned_locate {bytes : Bytes}
    (read : s.workspace.disk.read (s.workspace.locate entry).names = .ok bytes) :
    s.workspace.locate entry ∈ s.scanned entry := by
  have frontier := Session.frontier_scan { base := s.base, extensions := s.extensions } s.workspace entry
  have noted := Scan.has_of_settled (Scan.pending_run _ _ _) frontier.entered ⟨bytes, read⟩
  exact Memo.has_iff.mp noted

theorem of_readText {source : String} (h : s.readText file = .ok source) :
    ∃ bytes text, s.readFile file = .ok bytes ∧ textOf bytes = .ok text ∧ strip text = source := by
  obtain ⟨bytes, read, h⟩ := exists_of_bind_eq_ok h
  obtain ⟨text, held, h⟩ := exists_of_bind_eq_ok h
  cases h
  exact ⟨bytes, text, read, held, rfl⟩

theorem of_result_analyze {name : Option String} {report : FileReport}
    (h : (s.analyze file name).result = .ok (some report)) :
    report.source = analyze.nameOf s file name ∧ ∃ language bytes text, s.readFile file = .ok bytes ∧
      textOf bytes = .ok text ∧ s.annotate file language (strip text) = .ok report.nodes := by
  cases known : languageOf? file with
  | none =>
      rw [result_analyze_of_foreign s file name known] at h
      cases h
  | some language =>
      cases read : s.readText file with
      | error cause =>
          rw [result_analyze_of_unreadable s file name read] at h
          cases h
      | ok source =>
          rw [result_analyze s file name known read] at h
          obtain ⟨bytes, text, opened, held, rfl⟩ := of_readText read
          cases annotated : s.annotate file language (strip text) with
          | error e =>
              rw [annotated] at h
              cases h
          | ok nodes =>
              rw [annotated] at h
              cases h
              exact ⟨rfl, language, bytes, text, opened, held, annotated⟩

/-- In a report every import path shows what its label means in the file. -/
theorem path_annotate {language source : String} {nodes : List MarkedNode}
    (h : s.annotate file language source = .ok nodes) {m : MarkedNode} (hm : m ∈ nodes)
    (noted : m.mark.note = "import-path") : m.mark.path = s.resolveImport? file m.mark.label := by
  unfold annotate at h
  split at h
  · cases h
  next parsed _ =>
  split at h
  · cases h
  next markings walked =>
  cases h
  obtain ⟨i, -, rfl⟩ := List.mem_map.mp hm
  exact Markings.path_ofNodes parsed.treeShaped_nodes walked noted

/-! ## Both name the same files -/

/-- A survey takes place in a proper directory, and neither that nor the base nor the entry file starts
with exactly two slashes. -/
structure SingleRooted (s : Survey) (entry : String) : Prop where
  cwd : s.workspace.cwd.IsNormal
  single : s.workspace.cwd.doubled = false
  base : Path.root s.base ≠ "//"
  entry : Path.root entry ≠ "//"

theorem SingleRooted.of_mem_memo (hs : s.SingleRooted entry) {e : Location × List Location}
    (he : e ∈ s.memo entry) :
    e.1.IsNormal ∧ e.1.doubled = false ∧ Scan.Faithful s.resolver s.base e := by
  have entered : (s.workspace.locate entry).IsNormal := Location.isNormal_resolve (Or.inr hs.cwd)
  have frontier := Session.frontier_scan { base := s.base, extensions := s.extensions } s.workspace entry
  rcases frontier.noted e he with old | ⟨faithful, reached, -⟩
  · cases old
  · refine ⟨reached.isNormal hs.cwd entered, ?_, faithful⟩
    exact reached.doubled hs.cwd hs.single (Workspace.doubled_locate hs.single hs.base) entered
      (Workspace.doubled_locate hs.single hs.entry)

theorem SingleRooted.edge_unique (hs : s.SingleRooted entry) {e e' : Location × List Location}
    (he : e ∈ s.memo entry) (he' : e' ∈ s.memo entry) (same : s.sourceOf e.1 = s.sourceOf e'.1) : e = e' := by
  obtain ⟨normal, plain, -⟩ := hs.of_mem_memo he
  obtain ⟨normal', plain', -⟩ := hs.of_mem_memo he'
  have base := Workspace.doubled_locate hs.single hs.base
  have location : e.1 = e'.1 :=
    Workspace.eq_of_relative_eq normal normal' (plain.trans base.symm) (plain'.trans base.symm) same
  have distinct : ((s.memo entry).map Prod.fst).Nodup :=
    (Session.frontier_scan { base := s.base, extensions := s.extensions } s.workspace entry).distinct .nil
  exact List.inj_on_of_nodup_map distinct he he' location

theorem mem_imports_iff {source path : String} : path ∈ (Scan.importsOf s.resolver s.base l source).map s.sourceOf ↔
    ∃ specifier ∈ specifiers source, s.contribution l specifier = some path := by
  simp only [Scan.importsOf, List.mem_map, List.mem_eraseDups, List.mem_filterMap, contribution,
    Option.map_eq_some_iff]
  constructor
  · rintro ⟨k, ⟨specifier, mem, resolved⟩, rfl⟩
    exact ⟨specifier, mem, k, resolved, rfl⟩
  · rintro ⟨specifier, mem, k, resolved, rfl⟩
    exact ⟨k, ⟨specifier, mem, resolved⟩, rfl⟩

/-- A report under the name of a scanned file tells what that file holds, and resolves its import paths
where the scan does. -/
theorem SingleRooted.of_analyzed (hs : s.SingleRooted entry) {e : Location × List Location}
    (he : e ∈ s.memo entry) {report : FileReport}
    (h : (s.analyze (Path.join s.base (s.sourceOf e.1)) (some (s.sourceOf e.1))).result = .ok (some report)) :
    s.sourceOf e.1 = report.source ∧ ∃ bytes text, s.workspace.disk.read e.1.names = .ok bytes ∧
      textOf bytes = .ok text ∧ e.2 = Scan.importsOf s.resolver s.base e.1 text ∧
      ∀ m ∈ report.nodes, m.mark.note = "import-path" → m.mark.path = s.contribution e.1 m.mark.label := by
  obtain ⟨normal, plain, bytes, read, held⟩ := hs.of_mem_memo he
  replace read : s.workspace.disk.read e.1.names = .ok bytes := read
  have back : s.workspace.locate (Path.join s.base (s.sourceOf e.1)) = e.1 :=
    Workspace.locate_join_relative normal
      (plain.trans (Workspace.doubled_locate hs.single hs.base).symm)
  obtain ⟨named, language, bytes', text, reread, decoded, annotated⟩ := of_result_analyze h
  -- the file that was found again is the file that was scanned
  have same : bytes' = bytes := by
    obtain ⟨names, there, again⟩ := exists_of_bind_eq_ok reread
    have at_l : names = e.1.names := (Disk.eq_of_find_tidy there).trans (congrArg Location.names back)
    rw [at_l, read] at again
    exact (Except.ok.inj again).symm
  subst same
  rw [textDropping_of_textOf decoded] at held
  refine ⟨?_, bytes', text, read, decoded, held, ?_⟩
  · rw [named, analyze.nameOf, if_neg]
    rw [sourceOf, Workspace.relative_eq]
    exact Location.relativeTo_ne_empty normal
  · intro m hm noted
    rw [path_annotate annotated hm noted, resolveImport?, directoryOf, back]
    rfl

/-- **Edges and reports agree on imports.** Every report is about a scanned file, and there is one edge with
its source, whose imports are what the specifiers of the file contribute. An import path of the report that
is among these specifiers shows one of the imports of the edge, or else its specifier contributes none. -/
theorem importPath_attention (hs : s.SingleRooted entry) {edges : List Edge} {reports : List FileReport}
    (h : (s.attention entry).result = .ok (edges, reports)) {report : FileReport} (hr : report ∈ reports) :
    ∃ l ∈ s.scanned entry, ∃ bytes text edge, s.sourceOf l = report.source ∧
      s.workspace.disk.read l.names = .ok bytes ∧ textOf bytes = .ok text ∧
      edge ∈ edges ∧ (∀ e ∈ edges, e.source = report.source ↔ e = edge) ∧
      (∀ path, path ∈ edge.imports ↔
        ∃ specifier ∈ specifiers text, s.contribution l specifier = some path) ∧
      ∀ m ∈ report.nodes, m.mark.note = "import-path" → m.mark.label ∈ specifiers text →
        (∀ path, m.mark.path = some path → path ∈ edge.imports) ∧
        (m.mark.path = none → s.contribution l m.mark.label = none) := by
  obtain ⟨rfl, found⟩ := of_result_attention h
  obtain ⟨e, he, analyzed⟩ := found report hr
  obtain ⟨source, bytes, text, read, decoded, imports, paths⟩ := hs.of_analyzed he analyzed
  have contributed : ∀ path, path ∈ (s.edgeOf e).imports ↔
      ∃ specifier ∈ specifiers text, s.contribution e.1 specifier = some path := by
    intro path
    rw [edgeOf, imports]
    exact mem_imports_iff
  refine ⟨e.1, List.mem_map_of_mem he, bytes, text, s.edgeOf e, source, read, decoded,
    List.mem_map_of_mem he, ?_, contributed, ?_⟩
  · intro edge hedge
    obtain ⟨e', he', rfl⟩ := List.mem_map.mp hedge
    constructor
    · intro shared
      rw [hs.edge_unique he' he (shared.trans source.symm)]
    · intro equal
      rw [equal]
      exact source
  · intro m hm noted among
    rw [paths m hm noted]
    refine ⟨?_, id⟩
    intro path contributes
    exact (contributed path).mpr ⟨m.mark.label, among, contributes⟩

def importTree : SyntaxTree :=
  .node ⟨"program", none, 0, 25⟩
    [.node ⟨"import_statement", none, 0, 12⟩ [.node ⟨"string", some "source", 7, 12⟩ []],
     .node ⟨"import_statement", none, 13, 25⟩ [.node ⟨"string", some "source", 20, 25⟩ []]]

/-- A file that imports one that is there and one that is not, as seen from a directory beside it. -/
def halfImporting : Survey where
  workspace :=
    { disk :=
        { directories := [["lib"]]
          files := [(["a.ts"], Utf8.encode "import './b'\nimport './c'"), (["b.ts"], [])] }
      cwd := ⟨false, []⟩ }
  base := "lib"
  grammars := { read := fun _ _ => importTree }

theorem ready_halfImporting : halfImporting.Ready where
  cwd := nofun
  directory := rfl
  disk := by
    have wellFormed : Disk.WellFormed halfImporting.workspace.disk := by decide +kernel
    exact wellFormed
  loaded := by
    show ∀ language ∈ knownGrammars, knownGrammars.contains language = true
    decide
  rooted := by
    intro language source
    show "program" ≠ "pair_pattern"
    decide

def importNodes : List FlatNode :=
  [⟨0, "program", "import './b'\nimport './c'", 1, 2, 0, 12, true, none⟩,
   ⟨1, "import_statement", "import './b'", 1, 1, 0, 12, true, none⟩,
   ⟨2, "string", "'./b'", 1, 1, 7, 12, false, some "source"⟩,
   ⟨1, "import_statement", "import './c'", 2, 2, 0, 12, true, none⟩,
   ⟨2, "string", "'./c'", 2, 2, 7, 12, false, some "source"⟩]

theorem marks_halfImporting {nodes : List MarkedNode} (h : halfImporting.annotate "lib/../a.ts" "typescript"
    "import './b'\nimport './c'" = .ok nodes) :
    (∃ m ∈ nodes, m.mark.note = "import-path" ∧ m.mark.label = "./b" ∧ m.mark.path = some "../b.ts") ∧
      ∃ m ∈ nodes, m.mark.note = "import-path" ∧ m.mark.label = "./c" ∧ m.mark.path = none := by
  have flat : ParsedSource.nodes ⟨Utf8.encode "import './b'\nimport './c'", importTree⟩ = importNodes := by
    rw [ParsedSource.nodes_eq]
    decide +kernel
  have parsed : halfImporting.grammars.parse "typescript" "import './b'\nimport './c'" =
      .ok ⟨Utf8.encode "import './b'\nimport './c'", importTree⟩ := rfl
  have shown : (Markings.ofNodes importNodes (some (halfImporting.resolveImport? "lib/../a.ts"))).toOption.map
      (fun s => (s.attended, s.mark 2, s.mark 4)) =
        some ([4, 3, 2, 1], ⟨some .imported, "import-path", "./b", some "../b.ts", none, false⟩,
          ⟨some .imported, "import-path", "./c", none, none, false⟩) := by
    decide +kernel
  simp only [annotate, parsed, flat] at h
  cases walked : Markings.ofNodes importNodes (some (halfImporting.resolveImport? "lib/../a.ts")) with
  | error e =>
      rw [walked] at h
      cases h
  | ok markings =>
      rw [walked] at h shown
      cases h
      replace shown : some (markings.attended, markings.mark 2, markings.mark 4) = _ := shown
      simp only [Option.some.injEq, Prod.mk.injEq] at shown
      obtain ⟨attended, first, second⟩ := shown
      have present (i : Nat) (hi : i ∈ markings.attended) (labelled : (markings.mark i).label ≠ "") :=
        List.mem_map_of_mem (f := fun i => MarkedNode.mk i (importNodes.getD i default) (markings.mark i))
          (Markings.mem_attention.mpr ⟨hi, labelled⟩)
      refine ⟨⟨_, present 2 ?_ ?_, ?_⟩, ⟨_, present 4 ?_ ?_, ?_⟩⟩
      · simp [attended]
      · simp [first]
      · simp [first]
      · simp [attended]
      · simp [second]
      · simp [second]

theorem importPath_attention_halfImporting : halfImporting.SingleRooted "a.ts" ∧
    ∃ edges reports report edge, (halfImporting.attention "a.ts").result = .ok (edges, reports) ∧
      report ∈ reports ∧ edge ∈ edges ∧ edge.source = report.source ∧
      (∃ m ∈ report.nodes, m.mark.note = "import-path" ∧ m.mark.path = some "../b.ts" ∧
        "../b.ts" ∈ edge.imports) ∧
      ∃ m ∈ report.nodes, m.mark.note = "import-path" ∧ m.mark.path = none ∧
        halfImporting.contribution ⟨false, ["a.ts"]⟩ m.mark.label = none := by
  have rooted : halfImporting.SingleRooted "a.ts" := ⟨by decide, by decide, by decide, by decide⟩
  have content : halfImporting.workspace.disk.read ["a.ts"] =
      .ok (Utf8.encode "import './b'\nimport './c'") := rfl
  have decoded : textOf (Utf8.encode "import './b'\nimport './c'") = .ok "import './b'\nimport './c'" := by
    decide +kernel
  have stripped : strip "import './b'\nimport './c'" = "import './b'\nimport './c'" := by decide +kernel
  have located : (ImportForm.all.flatMap fun form =>
      form.find (blankComments "import './b'\nimport './c'".toList)).eraseDupsBy (fun a b => a.1 == b.1) =
        [(8, "./b"), (21, "./c")] := by decide +kernel
  have found : specifiers "import './b'\nimport './c'" = ["./b", "./c"] := by
    rw [specifiers, locateSpecifiers, located, List.mergeSort_of_pairwise (by decide)]
    rfl
  have scanned : (⟨false, ["a.ts"]⟩ : Location) ∈ halfImporting.scanned "a.ts" := mem_scanned_locate content
  obtain ⟨-, present, about⟩ := report?_spec ready_halfImporting scanned
  have reported : (halfImporting.report? (halfImporting.sourceOf ⟨false, ["a.ts"]⟩)).isSome = true := by
    rw [present]
    decide +kernel
  obtain ⟨report, one⟩ := Option.isSome_iff_exists.mp reported
  have mem : report ∈ ((halfImporting.scanned "a.ts").map halfImporting.sourceOf).eraseDups.filterMap
      halfImporting.report? :=
    List.mem_filterMap.mpr ⟨_, List.mem_eraseDups.mpr (List.mem_map_of_mem scanned), one⟩
  have result := result_attention ready_halfImporting "a.ts"
  obtain ⟨l, hl, bytes, text, edge, same, read, held, member, unique, -, agree⟩ :=
    importPath_attention rooted result mem
  obtain ⟨source, -, language, bytes', text', known, read', held', annotated⟩ := about report one
  -- the report is on the entry file, as no other has its name
  obtain ⟨e, he, rfl⟩ := List.mem_map.mp hl
  obtain ⟨e', he', entered⟩ := List.mem_map.mp scanned
  have here : e.1 = ⟨false, ["a.ts"]⟩ := by
    rw [rooted.edge_unique he he' (by rw [entered, same, source]), entered]
  rw [here, content] at read
  cases read
  rw [content] at read'
  cases read'
  rw [decoded] at held held'
  cases held
  cases held'
  have typescript : languageOf? (Location.text ⟨false, ["a.ts"]⟩) = some "typescript" := by decide +kernel
  rw [typescript] at known
  cases known
  have name : Path.join halfImporting.base (halfImporting.sourceOf ⟨false, ["a.ts"]⟩) = "lib/../a.ts" := by
    decide +kernel
  rw [name, stripped] at annotated
  obtain ⟨⟨m, hm, noted, label, path⟩, m', hm', noted', label', path'⟩ := marks_halfImporting annotated
  refine ⟨rooted, _, _, report, edge, result, mem, member, ((unique edge member).mpr rfl), ⟨m, hm, noted, path, ?_⟩,
    m', hm', noted', path', ?_⟩
  · exact (agree m hm noted (by rw [label, found]; decide)).1 _ path
  · rw [← here]
    exact (agree m' hm' noted' (by rw [label', found]; decide)).2 path'

end Survey

end SourceSurvey
