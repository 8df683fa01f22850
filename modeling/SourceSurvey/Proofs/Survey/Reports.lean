import SourceSurvey.Proofs.Disk
import SourceSurvey.Proofs.Marking.Failure
import SourceSurvey.Proofs.Scan.Sources
import SourceSurvey.Proofs.Survey.Lines

/-!
# Which files are reported

A survey scans files by their locations, and then looks for each of them again: from the base, under the
name that the file has as seen from there. The base need not lead to a directory, and then the names lead
nowhere. So the files with a report are those that can be surveyed and are found again
(`Survey.attention_reports`); if the base leads to a directory, every scanned file is.
-/

namespace SourceSurvey

theorem eraseDups_filter {α : Type} [BEq α] [LawfulBEq α] (p : α → Bool) (l : List α) :
    (l.filter p).eraseDups = l.eraseDups.filter p := by
  match l with
  | [] => rfl
  | a :: rest =>
      have shorter : (rest.filter fun b => !b == a).length < (a :: rest).length :=
        Nat.lt_succ_of_le (List.length_filter_le _ rest)
      have ih := eraseDups_filter p (rest.filter fun b => !b == a)
      rw [List.eraseDups_cons, List.filter_cons, List.filter_cons]
      by_cases ha : p a = true
      · rw [if_pos ha, if_pos ha, List.eraseDups_cons, List.filter_comm, ih]
      · rw [if_neg ha, if_neg ha, ← ih, List.filter_filter]
        congr 1
        refine List.filter_congr fun b _ => ?_
        by_cases hb : b = a
        · simp [hb, ha]
        · simp [hb]
termination_by l.length
decreasing_by exact shorter

theorem mapM_eq_ok {ε α β : Type} {f : α → Except ε β} {g : α → β} {l : List α} (h : ∀ x ∈ l, f x = .ok (g x)) :
    l.mapM f = .ok (l.map g) := by
  induction l with
  | nil => rfl
  | cons x rest ih =>
      rw [List.mapM_cons, h x List.mem_cons_self, ih fun y hy => h y (List.mem_cons_of_mem x hy)]
      rfl

/-- Names that are looked up once each, in order: what is found is what is found for some owner. -/
theorem map_filterMap_eraseDups {α β γ : Type} [BEq β] [LawfulBEq β] {l : List α} {name : α → β}
    {find : β → Option γ} {nameOf : γ → β} {p : α → Bool} (some_iff : ∀ x ∈ l, (find (name x)).isSome = p x)
    (own : ∀ x ∈ l, ∀ y, find (name x) = some y → nameOf y = name x) :
    ((l.map name).eraseDups.filterMap find).map nameOf = ((l.filter p).map name).eraseDups := by
  have kept : (l.filter p).map name = (l.map name).filter fun n => (find n).isSome := by
    rw [List.filter_map]
    exact congrArg (List.map name) (List.filter_congr fun x hx => (some_iff x hx).symm)
  rw [kept, eraseDups_filter, List.map_filterMap, ← List.filterMap_eq_filter]
  refine List.filterMap_congr fun n hn => ?_
  obtain ⟨x, hx, rfl⟩ := List.mem_map.mp (List.mem_eraseDups.mp hn)
  cases one : find (name x) with
  | none => simp [Option.guard, one]
  | some y => simp [Option.guard, one, own x hx y one]

namespace Survey

open Text

variable {s : Survey} {entry : String} {l : Location} {bytes : Bytes}

def scanned (s : Survey) (entry : String) : List Location :=
  (Session.scan { base := s.base, extensions := s.extensions } s.workspace entry).value.memo.map Prod.fst

def basePlace (s : Survey) : Except ReadError (List String) :=
  s.workspace.disk.find s.workspace.cwd (Path.tidy s.base)

/-- The file is found again from the base: the base leads to a directory, or to the file. -/
def reopens (s : Survey) (l : Location) : Bool :=
  match s.basePlace with
  | .ok place => s.workspace.disk.isDirectory place || place == l.names
  | .error _ => false

/-- The file is in a language that is surveyed, and it holds a text. -/
def isSurveyable (s : Survey) (l : Location) : Bool :=
  (languageOf? l.text).isSome &&
    match s.workspace.disk.read l.names with
    | .ok bytes => (Utf8.decode? bytes).isSome
    | .error _ => false

def sourceOf (s : Survey) (l : Location) : String :=
  s.workspace.relative l s.base

/-- The report tells what the file holds, under its name. -/
structure IsReportOf (s : Survey) (l : Location) (report : FileReport) : Prop where
  source : report.source = s.sourceOf l
  base : report.base = s.base
  nodes : ∃ language bytes text, languageOf? l.text = some language ∧
    s.workspace.disk.read l.names = .ok bytes ∧ textOf bytes = .ok text ∧
    s.annotate (Path.join s.base (s.sourceOf l)) language (strip text) = .ok report.nodes

/-- What a survey takes for granted: it works in a directory of a proper disk, both grammars are at hand,
and no tree is a lone pair pattern. -/
structure Ready (s : Survey) : Prop where
  cwd : s.workspace.cwd.IsNormal
  directory : s.workspace.disk.isDirectory s.workspace.cwd.names = true
  disk : s.workspace.disk.WellFormed
  loaded : ∀ language ∈ knownGrammars, s.grammars.loaded.contains language = true
  rooted : ∀ language source, (s.grammars.read language source).info.kind ≠ "pair_pattern"

/-! ## Scanned files -/

theorem isFile_of_read {d : Disk} {names : List String} (h : d.read names = .ok bytes) : d.isFile names = true := by
  unfold Disk.read at h
  split at h
  · cases h
  · next found => exact Option.isSome_of_eq_some found
  · split at h <;> cases h

theorem of_mem_scanned (hs : s.Ready) (hl : l ∈ s.scanned entry) :
    l.IsNormal ∧ ∃ bytes, s.workspace.disk.read l.names = .ok bytes := by
  obtain ⟨e, he, rfl⟩ := List.mem_map.mp hl
  have fresh : Memo.Proper [] := ⟨List.nodup_nil, (fun _ h => nomatch h), (fun _ h => nomatch h)⟩
  have proper : Memo.Proper
      (Session.scan { base := s.base, extensions := s.extensions } s.workspace entry).value.memo :=
    Session.proper_scan hs.cwd fresh
  refine ⟨proper.normal e he, ?_⟩
  rcases (Session.frontier_scan _ s.workspace entry).noted e he with old | ⟨⟨bytes, read, -⟩, -⟩
  · cases old
  · exact ⟨bytes, read⟩

theorem source_dependencies (s : Survey) (entry : String) :
    (s.dependencies entry).value.map Edge.source = (s.scanned entry).map s.sourceOf := by
  rw [scanned, List.map_map]
  exact List.map_map

/-! ## Looking for a file again -/

def baseStart (s : Survey) : List String :=
  if Path.isAbsolute s.base then [] else s.workspace.cwd.names

theorem isDirectory_baseStart (hs : s.Ready) : s.workspace.disk.isDirectory s.baseStart = true := by
  unfold baseStart
  split
  · rfl
  · exact hs.directory

theorem names_locate_base (s : Survey) :
    (s.workspace.locate s.base).names = (Path.names s.base).foldl Location.follow s.baseStart := by
  rw [Location.foldl_follow_segments, Workspace.locate, Location.resolve, baseStart]
  split <;> rfl

/-- The name of a file leads on from the base. -/
theorem relative_sourceOf (hl : l.IsNormal) : ¬ Path.isAbsolute (s.sourceOf l) = true := by
  rw [sourceOf, Workspace.relative_eq]
  exact Location.not_isAbsolute_relativeTo hl

theorem find_joined (hs : s.Ready) (hl : l.IsNormal) :
    s.workspace.disk.find s.workspace.cwd (Path.tidy (Path.join s.base (s.sourceOf l))) =
      s.workspace.disk.walk s.baseStart (Path.names (Path.join s.base (s.sourceOf l))) := by
  have same : Path.isAbsolute (Path.join s.base (s.sourceOf l)) = Path.isAbsolute s.base := by
    by_cases absolute : Path.isAbsolute s.base = true
    · rw [absolute, Path.isAbsolute_join absolute (relative_sourceOf hl)]
    · rw [Bool.eq_iff_iff, iff_false_right absolute]
      exact Path.not_isAbsolute_join absolute (relative_sourceOf hl)
  rw [Disk.find_tidy hs.directory, same]
  rfl

/-- **A file is found again exactly if the base leads to a directory or to the file.** -/
theorem walk_joined (hs : s.Ready) (hl : l.IsNormal) (file : s.workspace.disk.isFile l.names = true) :
    (s.reopens l = true →
      s.workspace.disk.walk s.baseStart (Path.names (Path.join s.base (s.sourceOf l))) = .ok l.names) ∧
    (s.reopens l = false → ∃ cause,
      s.workspace.disk.walk s.baseStart (Path.names (Path.join s.base (s.sourceOf l))) = .error cause) := by
  have steps : Path.names (s.sourceOf l) = l.stepsFrom (s.workspace.locate s.base) := by
    rw [sourceOf, Workspace.relative_eq, Location.names_relativeTo hl]
  have place : s.basePlace = s.workspace.disk.walk s.baseStart (Path.names s.base) :=
    Disk.find_tidy hs.directory s.base
  rw [Path.names_join s.base (relative_sourceOf hl), Disk.walk_append, ← place, steps, reopens]
  cases at_place : s.basePlace with
  | error cause => exact ⟨nofun, fun _ => ⟨cause, rfl⟩⟩
  | ok here =>
      have there : here = (s.workspace.locate s.base).names := by
        rw [names_locate_base]
        exact Disk.walk_eq_foldl (place.symm.trans at_place)
      have walked := Disk.walk_stepsFrom hs.disk (s.workspace.locate s.base) hl file
      rw [← there] at walked
      show (_ → s.workspace.disk.walk here _ = _) ∧ (_ → ∃ cause, s.workspace.disk.walk here _ = _)
      rw [walked]
      constructor
      · intro found
        rw [Bool.or_eq_true, beq_iff_eq] at found
        rw [if_pos found]
      · intro lost
        rw [Bool.or_eq_false_iff, beq_eq_false_iff_ne] at lost
        rw [if_neg (not_or.mpr ⟨by rw [lost.1]; decide, lost.2⟩)]
        exact ⟨_, rfl⟩

/-! ## Reports -/

theorem readFile_of_find {file : String} {names : List String}
    (found : s.workspace.disk.find s.workspace.cwd (Path.tidy file) = .ok names)
    (read : s.workspace.disk.read names = .ok bytes) : s.readFile file = .ok bytes := by
  rw [readFile, Disk.readPath, found]
  exact read

theorem textOf_of_decode? (h : (Utf8.decode? bytes).isSome = true) : ∃ text, textOf bytes = .ok text := by
  obtain ⟨text, decoded⟩ := Option.isSome_iff_exists.mp h
  exact ⟨_, by rw [textOf, decoded]⟩

/-- With a grammar and a root that is no pair pattern every text can be annotated. -/
theorem exists_annotate (hs : s.Ready) {language : String} (known : language ∈ knownGrammars)
    (file source : String) : ∃ nodes, s.annotate file language source = .ok nodes := by
  have parsed : s.grammars.parse language source =
      .ok ⟨Utf8.encode source, s.grammars.read language source⟩ := if_pos (hs.loaded language known)
  obtain ⟨markings, walked⟩ := ParsedSource.exists_ofNodes
    ⟨Utf8.encode source, s.grammars.read language source⟩ (hs.rooted language source)
    (some (s.resolveImport? file))
  have annotated : s.annotate file language source = .ok (markings.attentionNodes
      (ParsedSource.nodes ⟨Utf8.encode source, s.grammars.read language source⟩)) := by
    rw [annotate, parsed]
    simp only [walked]
  exact ⟨_, annotated⟩

theorem mem_knownGrammars {path language : String} (h : languageOf? path = some language) :
    language ∈ knownGrammars := by
  have table : ∀ entry ∈ languageTable, entry.2 ∈ knownGrammars := by decide
  exact table _ (mem_of_lookup h)

theorem exists_report (hs : s.Ready) (hl : l.IsNormal) (can : s.isSurveyable l = true)
    (found : s.reopens l = true) :
    ∃ report, (s.analyze (Path.join s.base (s.sourceOf l)) (some (s.sourceOf l))).result =
      .ok (some report) ∧ s.IsReportOf l report := by
  rw [isSurveyable, Bool.and_eq_true] at can
  obtain ⟨language, hlanguage⟩ := Option.isSome_iff_exists.mp can.1
  cases read : s.workspace.disk.read l.names with
  | error cause =>
      rw [read] at can
      cases can.2
  | ok bytes =>
      rw [read] at can
      obtain ⟨text, ht⟩ := textOf_of_decode? can.2
      have file := isFile_of_read read
      have walked := (walk_joined hs hl file).1 found
      have same := Disk.languageOf?_of_walk hs.disk (isDirectory_baseStart hs) hl walked file
      have reread := readText_eq (readFile_of_find ((find_joined hs hl).trans walked) read) ht
      obtain ⟨nodes, annotated⟩ := exists_annotate hs (mem_knownGrammars hlanguage)
        (Path.join s.base (s.sourceOf l)) (strip text)
      have named : analyze.nameOf s (Path.join s.base (s.sourceOf l)) (some (s.sourceOf l)) = s.sourceOf l := by
        refine if_neg ?_
        rw [sourceOf, Workspace.relative_eq]
        exact Location.relativeTo_ne_empty hl
      refine ⟨⟨s.sourceOf l, s.base, nodes⟩, ?_, rfl, rfl, language, bytes, text, hlanguage, read, ht, annotated⟩
      rw [result_analyze s _ _ (same.trans hlanguage) reread, annotated, named]
      rfl

theorem no_report (hs : s.Ready) (hl : l.IsNormal) (read : s.workspace.disk.read l.names = .ok bytes)
    (h : (s.isSurveyable l && s.reopens l) = false) :
    (s.analyze (Path.join s.base (s.sourceOf l)) (some (s.sourceOf l))).result = .ok none := by
  have file := isFile_of_read read
  cases found : s.reopens l with
  | false =>
      obtain ⟨cause, lost⟩ := (walk_joined hs hl file).2 found
      have unreadable : s.readText (Path.join s.base (s.sourceOf l)) = .error cause := by
        rw [readText, readFile, Disk.readPath, find_joined hs hl, lost]
        rfl
      exact result_analyze_of_unreadable s _ _ unreadable
  | true =>
      have walked := (walk_joined hs hl file).1 found
      have same := Disk.languageOf?_of_walk hs.disk (isDirectory_baseStart hs) hl walked file
      have reread := readFile_of_find ((find_joined hs hl).trans walked) read
      rw [found, Bool.and_true, isSurveyable, read, Bool.and_eq_false_iff] at h
      rcases h with foreign | broken
      · rw [Option.isSome_eq_false_iff, Option.isNone_iff_eq_none] at foreign
        exact result_analyze_of_foreign s _ _ (same.trans foreign)
      · have unreadable : s.readText (Path.join s.base (s.sourceOf l)) = .error .notText := by
          rw [Option.isSome_eq_false_iff, Option.isNone_iff_eq_none] at broken
          rw [readText, reread]
          show (textOf bytes >>= fun text => pure (strip text)) = _
          rw [textOf, broken]
          rfl
        exact result_analyze_of_unreadable s _ _ unreadable

/-- What becomes of a name under which a scanned file is looked for. -/
def report? (s : Survey) (source : String) : Option FileReport :=
  (s.analyze (Path.join s.base source) (some source)).result.toOption.join

theorem report?_spec (hs : s.Ready) (hl : l ∈ s.scanned entry) :
    (s.analyze (Path.join s.base (s.sourceOf l)) (some (s.sourceOf l))).result =
        .ok (s.report? (s.sourceOf l)) ∧
      (s.report? (s.sourceOf l)).isSome = (s.isSurveyable l && s.reopens l) ∧
      ∀ report, s.report? (s.sourceOf l) = some report → s.IsReportOf l report := by
  obtain ⟨normal, bytes, read⟩ := of_mem_scanned hs hl
  cases h : s.isSurveyable l && s.reopens l with
  | false =>
      have none := no_report hs normal read h
      have same : s.report? (s.sourceOf l) = Option.none := by
        rw [report?, none]
        rfl
      rw [none, same]
      exact ⟨rfl, rfl, nofun⟩
  | true =>
      rw [Bool.and_eq_true] at h
      obtain ⟨report, one, about⟩ := exists_report hs normal h.1 h.2
      have same : s.report? (s.sourceOf l) = some report := by
        rw [report?, one]
        rfl
      rw [one, same]
      refine ⟨rfl, rfl, ?_⟩
      rintro _ ⟨⟩
      exact about

/-- The reports of a survey, one for each name of a scanned file that has one. -/
theorem result_attention (hs : s.Ready) (entry : String) :
    (s.attention entry).result = .ok ((s.dependencies entry).value,
      ((s.scanned entry).map s.sourceOf).eraseDups.filterMap s.report?) := by
  have each : ∀ source ∈ ((s.scanned entry).map s.sourceOf).eraseDups,
      (s.analyze (Path.join s.base source) (some source)).result = .ok (s.report? source) := by
    intro source h
    obtain ⟨l, hl, rfl⟩ := List.mem_map.mp (List.mem_eraseDups.mp h)
    exact (report?_spec hs hl).1
  have collected := mapM_eq_ok each
  simp only [attention, SurveyM.result_bind, SurveyM.result_lift, SurveyM.result_mapM, SurveyM.result_pure]
  have sources := source_dependencies s entry
  generalize (s.dependencies entry).value = edges at sources ⊢
  show (List.mapM _ (edges.map Edge.source).eraseDups >>= fun found =>
    Except.ok (edges, found.filterMap id)) = _
  rw [sources, collected]
  show Except.ok (edges, (List.map s.report? _).filterMap id) = _
  rw [List.filterMap_map, Function.id_comp]

theorem reopens_iff : s.reopens l = true ↔
    ∃ place, s.basePlace = .ok place ∧ (s.workspace.disk.isDirectory place = true ∨ place = l.names) := by
  unfold reopens
  split
  · next place h => simp [h]
  · next cause h => simp [h]

/-- All files that can be surveyed are found again if the base leads to a directory, or to the only one. -/
theorem reopens_all_iff : (∀ l ∈ s.scanned entry, s.isSurveyable l = true → s.reopens l = true) ↔
    (∃ place, s.basePlace = .ok place ∧ s.workspace.disk.isDirectory place = true) ∨
      ∀ l ∈ s.scanned entry, s.isSurveyable l = true → s.basePlace = .ok l.names := by
  constructor
  · intro found
    by_cases dir : ∃ place, s.basePlace = .ok place ∧ s.workspace.disk.isDirectory place = true
    · exact Or.inl dir
    · refine Or.inr fun l hl can => ?_
      obtain ⟨place, at_place, here | rfl⟩ := reopens_iff.mp (found l hl can)
      · exact absurd ⟨place, at_place, here⟩ dir
      · exact at_place
  · rintro (⟨place, at_place, here⟩ | only) l hl can
    · exact reopens_iff.mpr ⟨place, at_place, Or.inl here⟩
    · exact reopens_iff.mpr ⟨l.names, only l hl can, Or.inr rfl⟩

/-- **The reports of a survey.** In the order of the edges and each once, the files are reported that can be
surveyed and are found again; the report of such a file tells what that file holds. These are all files
that can be surveyed if the base leads to a directory, or else to the only one of them, and in no other
case. -/
theorem attention_reports (hs : s.Ready) (entry : String) :
    ∃ reports, (s.attention entry).result = .ok ((s.dependencies entry).value, reports) ∧
      (s.dependencies entry).value.map Edge.source = (s.scanned entry).map s.sourceOf ∧
      reports.map FileReport.source =
        (((s.scanned entry).filter fun l => s.isSurveyable l && s.reopens l).map s.sourceOf).eraseDups ∧
      (∀ l ∈ s.scanned entry, s.isSurveyable l = true → s.reopens l = true →
        ∃ report ∈ reports, s.IsReportOf l report) ∧
      (reports.map FileReport.source = (((s.scanned entry).filter s.isSurveyable).map s.sourceOf).eraseDups ↔
        (∃ place, s.basePlace = .ok place ∧ s.workspace.disk.isDirectory place = true) ∨
          ∀ l ∈ s.scanned entry, s.isSurveyable l = true → s.basePlace = .ok l.names) := by
  have present : ∀ l ∈ s.scanned entry,
      (s.report? (s.sourceOf l)).isSome = (s.isSurveyable l && s.reopens l) :=
    fun l hl => (report?_spec hs hl).2.1
  have sources := map_filterMap_eraseDups present
    fun l hl report one => ((report?_spec hs hl).2.2 report one).source
  refine ⟨_, result_attention hs entry, source_dependencies s entry, sources, ?_, ?_⟩
  · intro l hl can found
    obtain ⟨-, present, about⟩ := report?_spec hs hl
    rw [can, found] at present
    obtain ⟨report, one⟩ := Option.isSome_iff_exists.mp present
    refine ⟨report, List.mem_filterMap.mpr ⟨s.sourceOf l, ?_, one⟩, about report one⟩
    exact List.mem_eraseDups.mpr (List.mem_map_of_mem hl)
  · rw [sources, ← reopens_all_iff]
    constructor
    · intro all l hl can
      -- the file shares its name with one that is found again, and so is found again
      have named : s.sourceOf l ∈ (((s.scanned entry).filter s.isSurveyable).map s.sourceOf).eraseDups :=
        List.mem_eraseDups.mpr (List.mem_map_of_mem (List.mem_filter.mpr ⟨hl, can⟩))
      rw [← all] at named
      obtain ⟨k, hk, same⟩ := List.mem_map.mp (List.mem_eraseDups.mp named)
      obtain ⟨hk, both⟩ := List.mem_filter.mp hk
      have there := present k hk
      rw [both, same, present l hl, Bool.and_eq_true] at there
      exact there.2
    · intro found
      have same : ∀ l ∈ s.scanned entry, (s.isSurveyable l && s.reopens l) = s.isSurveyable l := by
        intro l hl
        cases can : s.isSurveyable l with
        | false => rfl
        | true => rw [found l hl can]; rfl
      rw [List.filter_congr same]

/-- A comment in a file beside an empty directory, as seen from a base. -/
def noteSeenFrom (base : String) : Survey where
  workspace :=
    { disk := { directories := [["lib"]], files := [(["a.ts"], Utf8.encode "// note\n")] }
      cwd := ⟨false, []⟩ }
  base := base
  grammars := noteGrammars

theorem ready_noteSeenFrom (base : String) : (noteSeenFrom base).Ready where
  cwd := nofun
  directory := rfl
  disk := by
    show Disk.WellFormed { directories := [["lib"]], files := [(["a.ts"], Utf8.encode "// note\n")] }
    decide
  loaded := by
    show ∀ language ∈ knownGrammars, knownGrammars.contains language = true
    decide
  rooted := by
    intro language source
    show "program" ≠ "pair_pattern"
    decide

theorem memo_noteSeenFrom (base : String) (h : base ∈ ["lib", "nope"]) :
    (Session.scan { base := (noteSeenFrom base).base, extensions := (noteSeenFrom base).extensions }
      (noteSeenFrom base).workspace "a.ts").value.memo = [(⟨false, ["a.ts"]⟩, [])] := by
  have one : ∀ base ∈ ["lib", "nope"],
      let p := Scan.rounds (noteSeenFrom base).resolver base 1
        { pending := [(noteSeenFrom base).workspace.locate "a.ts"], memo := [] }
      p.pending = [] ∧ p.memo = [(⟨false, ["a.ts"]⟩, [])] := by decide +kernel
  rw [Session.memo_scan_eq_rounds _ _ _ 1 (one base h).1]
  exact (one base h).2

theorem scanned_noteSeenFrom (base : String) (h : base ∈ ["lib", "nope"]) :
    (noteSeenFrom base).scanned "a.ts" = [⟨false, ["a.ts"]⟩] :=
  congrArg (List.map Prod.fst) (memo_noteSeenFrom base h)

theorem attention_reports_beside_directory :
    (noteSeenFrom "lib").Ready ∧ (noteSeenFrom "lib").scanned "a.ts" = [⟨false, ["a.ts"]⟩] ∧
      (noteSeenFrom "lib").basePlace = .ok ["lib"] ∧
      ∃ reports, ((noteSeenFrom "lib").attention "a.ts").result =
          .ok (((noteSeenFrom "lib").dependencies "a.ts").value, reports) ∧
        reports.map FileReport.source = ["../a.ts"] ∧
        ∃ report ∈ reports, (noteSeenFrom "lib").IsReportOf ⟨false, ["a.ts"]⟩ report := by
  have scanned := scanned_noteSeenFrom "lib" (by decide)
  have can : (noteSeenFrom "lib").isSurveyable ⟨false, ["a.ts"]⟩ = true := by decide +kernel
  have place : (noteSeenFrom "lib").basePlace = .ok ["lib"] := by decide +kernel
  have found : (noteSeenFrom "lib").reopens ⟨false, ["a.ts"]⟩ = true :=
    reopens_iff.mpr ⟨["lib"], place, Or.inl (by decide)⟩
  obtain ⟨reports, result, -, sources, own, -⟩ := attention_reports (ready_noteSeenFrom "lib") "a.ts"
  refine ⟨ready_noteSeenFrom "lib", scanned, place, reports, result, ?_, own _ ?_ can found⟩
  · rw [sources, scanned, List.filter_cons_of_pos (by rw [can, found]; rfl)]
    decide
  · rw [scanned]
    exact List.mem_singleton_self _

/-- Seen from a directory that is not there, the file is scanned and not reported. -/
theorem attention_from_missing_base :
    (noteSeenFrom "nope").scanned "a.ts" = [⟨false, ["a.ts"]⟩] ∧
      (noteSeenFrom "nope").isSurveyable ⟨false, ["a.ts"]⟩ = true ∧
      ((noteSeenFrom "nope").attention "a.ts").result = .ok ([⟨"../a.ts", []⟩], []) := by
  have scanned := scanned_noteSeenFrom "nope" (by decide)
  have can : (noteSeenFrom "nope").isSurveyable ⟨false, ["a.ts"]⟩ = true := by decide +kernel
  have lost : (noteSeenFrom "nope").reopens ⟨false, ["a.ts"]⟩ = false := by decide +kernel
  have edges : ((noteSeenFrom "nope").dependencies "a.ts").value = [⟨"../a.ts", []⟩] := by
    show List.map _ (Session.scan _ _ _).value.memo = _
    rw [memo_noteSeenFrom "nope" (by decide)]
    decide +kernel
  have shown : (noteSeenFrom "nope").sourceOf ⟨false, ["a.ts"]⟩ = "../a.ts" := by decide
  refine ⟨scanned, can, ?_⟩
  have absent := (report?_spec (ready_noteSeenFrom "nope") (scanned ▸ List.mem_singleton_self _)).2.1
  rw [can, lost, shown, Bool.and_false, Option.isSome_eq_false_iff, Option.isNone_iff_eq_none] at absent
  have once : ["../a.ts"].eraseDups = ["../a.ts"] := rfl
  rw [result_attention (ready_noteSeenFrom "nope"), edges, scanned, List.map_singleton, shown, once,
    List.filterMap_cons_none absent]
  rfl

end Survey

end SourceSurvey
