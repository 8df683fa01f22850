import SourceSurvey.Proofs.Tree.Listing
import SourceSurvey.Survey

/-!
# What a survey comes to

A step of a survey reports on its way and may end the survey. What it comes to is its value without the
reports (`SurveyM.result`), and that can be followed step by step. A file comes to no report if it is in
another language or cannot be read, and otherwise to what its text is annotated with.
-/

namespace SourceSurvey

namespace SurveyM

variable {α β : Type}

/-- The value of a step, without what is reported on the way to it. -/
def result (x : SurveyM α) : Except SurveyError α := x.run.value

theorem result_pure (a : α) : (pure a : SurveyM α).result = .ok a := rfl

theorem result_lift (x : Logged α) : SurveyM.result (ExceptT.lift x) = .ok x.value := rfl

theorem result_bind (x : SurveyM α) (f : α → SurveyM β) :
    (x >>= f).result = x.result >>= fun a => (f a).result := by
  rw [result, result, ExceptT.run_bind, Logged.value_bind]
  cases x.run.value with
  | error e => rfl
  | ok a => rfl

theorem result_mapM (f : α → SurveyM β) (l : List α) :
    (l.mapM f).result = l.mapM fun a => (f a).result := by
  induction l with
  | nil => rfl
  | cons a rest ih =>
      rw [List.mapM_cons, List.mapM_cons, result_bind]
      simp only [result_bind, ih, result_pure]
      rfl

end SurveyM

namespace Survey

variable (s : Survey) (file : String)

def annotate (language source : String) : Except SurveyError (List MarkedNode) :=
  match s.grammars.parse language source with
  | .error cause => .error (.noGrammar cause)
  | .ok parsed =>
    match Markings.ofNodes parsed.nodes (some (s.resolveImport? file)) with
    | .error cause => .error (.walk cause)
    | .ok markings => .ok (markings.attentionNodes parsed.nodes)

theorem result_analyze_of_foreign (name : Option String) (h : languageOf? file = none) :
    (s.analyze file name).result = .ok none := by
  rw [analyze, h]
  rfl

theorem result_analyze_of_unreadable (name : Option String) {cause : ReadError}
    (h : s.readText file = .error cause) : (s.analyze file name).result = .ok none := by
  rw [analyze, h]
  cases languageOf? file with
  | none => rfl
  | some language => rfl

theorem result_analyze (name : Option String) {language source : String}
    (hl : languageOf? file = some language) (hs : s.readText file = .ok source) :
    (s.analyze file name).result = (s.annotate file language source).map fun nodes =>
      some ⟨analyze.nameOf s file name, s.base, nodes⟩ := by
  rw [analyze, hl, hs, annotate]
  simp only [flattenText, flattenSource, hl, Option.getD_some]
  cases s.grammars.parse language source with
  | error cause => rfl
  | ok parsed =>
      simp only [pure_bind, ParsedSource.nodes]
      cases Markings.ofNodes (parsed.flatten.map IndexedNode.toFlatNode) (some (s.resolveImport? file)) with
      | error cause => rfl
      | ok markings => rfl

end Survey

/-! ## A text with one comment -/

/-- The tree of a program of seven bytes that is one comment. -/
def noteTree : SyntaxTree := .node ⟨"program", none, 0, 7⟩ [.node ⟨"comment", none, 0, 7⟩ []]

/-- Both grammars are at hand and find one comment. -/
def noteGrammars : Grammars := { read := fun _ _ => noteTree }

def markedNote : MarkedNode where
  index := 1
  node := ⟨1, "comment", "// note", 1, 1, 0, 7, false, none⟩
  mark := { category := some .comment, note := "line-comment", label := "// note" }

theorem nodes_note : ParsedSource.nodes ⟨Text.Utf8.encode "// note", noteTree⟩ =
    [⟨0, "program", "// note", 1, 1, 0, 7, true, none⟩, markedNote.node] := by
  rw [ParsedSource.nodes_eq]
  decide +kernel

theorem annotate_note {s : Survey} {file language : String} (hs : s.grammars = noteGrammars)
    (hl : knownGrammars.contains language = true) :
    s.annotate file language "// note" = .ok [markedNote] := by
  have parsed : s.grammars.parse language "// note" = .ok ⟨Text.Utf8.encode "// note", noteTree⟩ := by
    rw [hs]
    exact if_pos hl
  have walked (resolve : Option (String → Option String)) :
      Markings.ofNodes [⟨0, "program", "// note", 1, 1, 0, 7, true, none⟩, markedNote.node] resolve =
        .ok ((Markings.init 2).attend 1 .comment "line-comment" "// note") := rfl
  have attention : ((Markings.init 2).attend 1 .comment "line-comment" "// note").attention = [1] := by decide +kernel
  simp only [Survey.annotate, parsed, nodes_note, walked, Markings.attentionNodes, attention]
  rfl

end SourceSurvey
