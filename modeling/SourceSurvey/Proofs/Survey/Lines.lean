import SourceSurvey.Proofs.Marking.Writes
import SourceSurvey.Proofs.Survey.Result
import SourceSurvey.Proofs.Text.Utf8
import SourceSurvey.Proofs.Tree.Listing

/-!
# The lines of a report

A file is freed of the blanks at its two ends before it is parsed, and the lines of its nodes are counted
in what is left. So every node of a report stands as many lines too high as there are line feeds among
the blanks that were dropped at the start (`Survey.startLine_analyze`); the lines are those of the file
just in case there are none.
-/

namespace SourceSurvey

namespace Text

def leading (s : String) : List Char := s.toList.takeWhile isBlank

/-- The line of the character that comes after `k` others, counted from 1. -/
def lineAt (s : String) (k : Nat) : Nat := (s.toList.take k).count '\n' + 1

theorem exists_trailing (s : String) : ∃ trailing, s.toList = leading s ++ ((strip s).toList ++ trailing) := by
  refine ⟨((s.toList.dropWhile isBlank).reverse.takeWhile isBlank).reverse, ?_⟩
  rw [toList_strip, dropEndWhile, ← List.reverse_append, List.takeWhile_append_dropWhile,
    List.reverse_reverse, leading, List.takeWhile_append_dropWhile]

/-- The lines of a text are those of its stripped text, further down by the lines that were dropped. -/
theorem lineAt_leading_add (s : String) {k : Nat} (hk : k ≤ (strip s).toList.length) :
    lineAt s ((leading s).length + k) = lineAt (strip s) k + (leading s).count '\n' := by
  obtain ⟨trailing, parts⟩ := exists_trailing s
  have front : s.toList.take ((leading s).length + k) = leading s ++ (strip s).toList.take k := by
    rw [parts, List.take_length_add_append, List.take_append_of_le_length hk]
  rw [lineAt, lineAt, front, List.count_append]
  omega

end Text

open Text

/-- In a parsed text, the line of a node is that of the character at its start. -/
theorem ParsedSource.startLine_flatNode (text : String) (tree : SyntaxTree) (row : Nat × SyntaxTree) :
    (ParsedSource.flatNode ⟨Utf8.encode text, tree⟩ row).startLine =
      lineAt text (Utf8.charsBefore text.toList row.2.info.start) := by
  show (((Utf8.encode text).take row.2.info.start).count 0x0A : Int) + 1 = _
  rw [Utf8.count_take_encode, lineAt]
  rfl

namespace Survey

variable {s : Survey} {file : String} {bytes : Bytes} {text : String}

theorem readText_eq (hb : s.readFile file = .ok bytes) (ht : textOf bytes = .ok text) :
    s.readText file = .ok (strip text) := by
  rw [readText, hb]
  show (textOf bytes >>= fun text => pure (strip text)) = _
  rw [ht]
  rfl

theorem mem_annotate {language source : String} {nodes : List MarkedNode}
    (h : s.annotate file language source = .ok nodes) {m : MarkedNode} (hm : m ∈ nodes) :
    ∃ row, ((s.grammars.read language source).listing 0)[m.index]? = some row ∧
      m.node = ParsedSource.flatNode ⟨Utf8.encode source, s.grammars.read language source⟩ row := by
  unfold annotate at h
  split at h
  · cases h
  · next parsed hp =>
    split at h
    · cases h
    · next markings walked =>
      cases h
      obtain ⟨i, hi, rfl⟩ := List.mem_map.mp hm
      have present := Markings.lt_of_mem_attention hi
      rw [Markings.size_ofNodes walked] at present
      have same : parsed = ⟨Utf8.encode source, s.grammars.read language source⟩ := by
        unfold Grammars.parse at hp
        split at hp
        · exact (Except.ok.inj hp).symm
        · cases hp
      subst same
      rw [ParsedSource.nodes_eq, List.length_map] at present
      refine ⟨_, List.getElem?_eq_getElem present, ?_⟩
      simp only [ParsedSource.nodes_eq]
      rw [List.getD_eq_getElem?_getD, List.getElem?_map, List.getElem?_eq_getElem present]
      rfl

/-- **The nodes of a report stand higher than in the file by the line feeds among its leading blanks.** -/
theorem startLine_analyze {name : Option String} {report : FileReport} (hb : s.readFile file = .ok bytes)
    (ht : textOf bytes = .ok text) (h : (s.analyze file name).result = .ok (some report)) :
    ∃ language, languageOf? file = some language ∧ ∀ m ∈ report.nodes, ∃ row,
      ((s.grammars.read language (strip text)).listing 0)[m.index]? = some row ∧
      m.node.kind = row.2.info.kind ∧
      let line := lineAt text ((leading text).length +
        Utf8.charsBefore (strip text).toList row.2.info.start)
      m.node.startLine + (leading text).count '\n' = line ∧
        (m.node.startLine = line ↔ '\n' ∉ leading text) := by
  have read := readText_eq hb ht
  cases hl : languageOf? file with
  | none =>
      rw [result_analyze_of_foreign s file name hl] at h
      cases h
  | some language =>
      refine ⟨language, rfl, ?_⟩
      rw [result_analyze s file name hl read] at h
      intro m hm
      cases annotated : s.annotate file language (strip text) with
      | error e =>
          rw [annotated] at h
          cases h
      | ok nodes =>
          rw [annotated] at h
          cases h
          obtain ⟨row, at_index, node⟩ := mem_annotate annotated hm
          have stripped := ParsedSource.startLine_flatNode (strip text)
            (s.grammars.read language (strip text)) row
          have moved := lineAt_leading_add text
            (Utf8.charsBefore_le (strip text).toList row.2.info.start)
          refine ⟨row, at_index, congrArg FlatNode.kind node, ?_⟩
          rw [node, stripped, moved, ← List.count_eq_zero]
          constructor
          · rfl
          · omega

/-- A workspace with one file, in which a comment stands below two empty lines. -/
def belowEmptyLines : Survey where
  workspace :=
    { disk := ({} : Disk).write ["a.ts"] (Utf8.encode "\n\n// note\n")
      cwd := ⟨false, []⟩ }
  grammars := noteGrammars

theorem readFile_belowEmptyLines :
    belowEmptyLines.readFile "a.ts" = .ok (Utf8.encode "\n\n// note\n") := by
  decide +kernel

theorem textOf_belowEmptyLines : textOf (Utf8.encode "\n\n// note\n") = .ok "\n\n// note\n" := by
  decide +kernel

theorem analyze_belowEmptyLines :
    (belowEmptyLines.analyze "a.ts" none).result = .ok (some ⟨"a.ts", "", [markedNote]⟩) := by
  have read := readText_eq readFile_belowEmptyLines textOf_belowEmptyLines
  have stripped : strip "\n\n// note\n" = "// note" := by decide
  rw [stripped] at read
  rw [result_analyze belowEmptyLines "a.ts" none (by decide : languageOf? "a.ts" = some "typescript") read,
    annotate_note rfl (by decide)]
  rfl

theorem startLine_analyze_belowEmptyLines :
    (belowEmptyLines.analyze "a.ts" none).result = .ok (some ⟨"a.ts", "", [markedNote]⟩) ∧
      ∃ language, languageOf? "a.ts" = some language ∧ ∀ m ∈ [markedNote], ∃ row,
        (noteTree.listing 0)[m.index]? = some row ∧ m.node.kind = row.2.info.kind ∧
        let line := lineAt "\n\n// note\n" (2 + Utf8.charsBefore "// note".toList row.2.info.start)
        m.node.startLine + 2 = line ∧ (m.node.startLine = line ↔ '\n' ∉ ['\n', '\n']) :=
  ⟨analyze_belowEmptyLines,
    startLine_analyze readFile_belowEmptyLines textOf_belowEmptyLines analyze_belowEmptyLines⟩

/-- The comment on line 3 is reported on line 1. -/
theorem startLine_ne_lineAt_belowEmptyLines :
    ∃ report, (belowEmptyLines.analyze "a.ts" none).result = .ok (some report) ∧
      ∃ m ∈ report.nodes, m.node.startLine = 1 ∧ ∃ row, (noteTree.listing 0)[m.index]? = some row ∧
        lineAt "\n\n// note\n" ((leading "\n\n// note\n").length +
          Utf8.charsBefore (strip "\n\n// note\n").toList row.2.info.start) = 3 := by
  refine ⟨_, analyze_belowEmptyLines, markedNote, List.mem_singleton_self _, rfl, _, rfl, ?_⟩
  decide

end Survey

end SourceSurvey
