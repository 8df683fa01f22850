import SourceSurvey.Proofs.Path.Segments
import SourceSurvey.Proofs.Report.Indentation
import SourceSurvey.Proofs.Table
import SourceSurvey.Report.Attention

/-!
# The tables of a report read back

The tables of several files are written one under the other with an empty line between two of them, outside of
any table. An empty line is how a row with one empty cell is written, so the whole is one table again
(`Table.join_render`), and it is read back as such: a row for each node with the texts of that node, whatever a
comment holds (`Report.parse_attentionTable`). Only a carriage return could end a row too early.
-/

namespace SourceSurvey

section Intercalate

variable {α β : Type} {sep : List α} {ls : List (List α)}

theorem intercalate_eq_nil (h : ∀ l ∈ ls, l ≠ []) (none : sep.intercalate ls = []) : ls = [] := by
  cases ls with
  | nil => rfl
  | cons l ls =>
      have some := h l List.mem_cons_self
      cases ls with
      | nil => exact absurd (List.intercalate_singleton.symm.trans none) some
      | cons l' ls =>
          rw [List.intercalate_cons_cons, List.append_assoc, List.append_eq_nil_iff] at none
          exact absurd none.1 some

theorem mem_intercalate {a : α} (h : a ∈ sep.intercalate ls) : a ∈ sep ∨ ∃ l ∈ ls, a ∈ l := by
  induction ls with
  | nil => exact absurd h List.not_mem_nil
  | cons l ls ih =>
      cases ls with
      | nil =>
          rw [List.intercalate_singleton] at h
          exact Or.inr ⟨l, List.mem_cons_self, h⟩
      | cons l' ls =>
          rw [List.intercalate_cons_cons, List.mem_append, List.mem_append] at h
          rcases h with (first | between) | later
          · exact Or.inr ⟨l, List.mem_cons_self, first⟩
          · exact Or.inl between
          · exact (ih later).imp_right fun ⟨m, hm, mem⟩ => ⟨m, List.mem_cons_of_mem l hm, mem⟩

theorem map_intercalate (f : α → β) :
    (sep.intercalate ls).map f = (sep.map f).intercalate (ls.map (List.map f)) := by
  induction ls with
  | nil => rfl
  | cons l ls ih =>
      cases ls with
      | nil => simp
      | cons l' ls =>
          rw [List.intercalate_cons_cons, List.map_append, List.map_append, ih]
          exact List.intercalate_cons_cons.symm

end Intercalate

namespace Table

/-- What stands for an empty line: one row with one empty cell. -/
def gap : Table := [[{ value := "" }]]

theorem render_append {front back : Table} (hfront : front ≠ []) (hback : back ≠ []) :
    render (front ++ back) = front.render ++ "\n" ++ back.render := by
  rw [render, List.map_append]
  exact Text.join_append "\n" (mt List.map_eq_nil_iff.mp hfront) (mt List.map_eq_nil_iff.mp hback)

/-- **Tables with an empty line between them are one table.** -/
theorem join_render {tables : List Table} (rows : ∀ t ∈ tables, t ≠ []) :
    Text.join "\n\n" (tables.map render) = render (gap.intercalate tables) := by
  induction tables with
  | nil => rfl
  | cons t tables ih =>
      cases tables with
      | nil =>
          rw [List.intercalate_singleton]
          rfl
      | cons t' tables =>
          have later : ∀ t ∈ t' :: tables, t ≠ [] := fun t ht => rows t (List.mem_cons_of_mem _ ht)
          have rest : gap.intercalate (t' :: tables) ≠ [] :=
            fun none => List.cons_ne_nil _ _ (intercalate_eq_nil later none)
          have gap_some : gap ++ gap.intercalate (t' :: tables) ≠ [] := List.append_ne_nil_of_left_ne_nil (by decide) _
          have twice : ("\n\n" : String) = "\n" ++ ("" ++ "\n") := rfl
          have empty : gap.render = "" := rfl
          show t.render ++ "\n\n" ++ Text.join "\n\n" ((t' :: tables).map render) = _
          rw [List.intercalate_cons_cons, List.append_assoc, render_append (rows t List.mem_cons_self) gap_some,
            render_append (by decide) rest, ih later, empty, twice]
          simp only [String.append_assoc]

theorem values_parse_plain {values : List (List String)} (some : values ≠ [])
    (rows : ∀ row ∈ values, row ≠ [] ∧ ∀ value ∈ row, '\r' ∉ value.toList) :
    (parse (render (values.map plainRow))).map (List.map Cell.value) = values := by
  have readable : Readable (values.map plainRow) := by
    refine ⟨mt List.map_eq_nil_iff.mp some, List.forall_mem_map.mpr fun row hrow => ?_⟩
    refine ⟨mt List.map_eq_nil_iff.mp (rows row hrow).1, List.forall_mem_map.mpr fun value hvalue => ?_⟩
    exact ⟨rfl, fun _ => (rows row hrow).2 value hvalue⟩
  rw [parse_render readable, List.map_map, List.map_map]
  refine (List.map_congr_left fun row _ => ?_).trans (List.map_id values)
  simp only [Function.comp_apply, plainRow, List.map_map]
  exact List.map_id row

end Table

/-! ## Texts without a carriage return -/

/-- No text of the report has a carriage return in it. -/
structure FileReport.ReturnFree (report : FileReport) : Prop where
  source : '\r' ∉ report.source.toList
  label : ∀ n ∈ report.nodes, '\r' ∉ n.mark.label.toList
  note : ∀ n ∈ report.nodes, '\r' ∉ n.mark.note.toList
  path : ∀ n ∈ report.nodes, ∀ p ∈ n.mark.path, '\r' ∉ p.toList

theorem Category.returnFree_name (c : Category) : '\r' ∉ c.name.toList := by
  cases c <;> decide

theorem returnFree_toString (i : Int) : '\r' ∉ (toString i).toList := by
  have digits (n : Nat) : '\r' ∉ n.repr.toList := by
    intro mem
    rw [Nat.repr, String.toList_ofList] at mem
    exact absurd (Nat.isDigit_of_mem_toDigits (by decide) (by decide) mem) (by decide)
  cases i with
  | ofNat n => exact digits n
  | negSucc n =>
      show '\r' ∉ ("-" ++ n.succ.repr).toList
      rw [String.toList_append, List.mem_append, not_or]
      exact ⟨by decide, digits n.succ⟩

namespace AttentionRow

theorem returnFree_displayText {m : Mark} (h : '\r' ∉ m.label.toList) : '\r' ∉ (displayText m).toList := by
  have tag (front back : String) (hfront : '\r' ∉ front.toList) (hback : '\r' ∉ back.toList) :
      '\r' ∉ (front ++ m.label ++ back).toList := by
    simp [hfront, h, hback]
  unfold displayText
  split
  · split
    · decide
    split
    · decide
    split
    · exact tag "</" ">" (by decide) (by decide)
    split
    · exact tag "<" " />" (by decide) (by decide)
    · exact tag "<" ">" (by decide) (by decide)
  · exact h

/-! ## The rows of nodes -/

def valuesOf (level : Nat) (n : MarkedNode) : List String :=
  [ toString n.node.startLine, n.mark.category.elim "" Category.name,
    String.ofList (List.replicate (2 * level) ' ') ++ displayText n.mark,
    if n.mark.exported then "export" else "", n.mark.note, n.mark.path.getD "" ]

theorem cells_ofNode (n : MarkedNode) (level : Nat) :
    (ofNode n level).cells = Table.plainRow (valuesOf level n) := by
  rw [cells, ofNode, valuesOf]
  cases n.mark.category <;> rfl

/-- Each node has its row, at the level that the nodes before it leave. -/
theorem map_cells_list (ms : List MarkedNode) : (list ms).map cells =
    (ms.mapIdx fun k n => valuesOf (levelAt (levelAfter 0 (ms.take k)) n) n).map Table.plainRow := by
  refine List.ext_getElem? fun k => ?_
  rw [List.getElem?_map, List.getElem?_map, List.getElem?_mapIdx]
  cases hk : ms[k]? with
  | some n =>
      rw [getElem?_list hk]
      exact congrArg some (cells_ofNode n _)
  | none =>
      have beyond : (list ms).length ≤ k := by
        rw [list, length_listFrom]
        exact List.getElem?_eq_none_iff.mp hk
      rw [List.getElem?_eq_none_iff.mpr beyond]
      rfl

theorem returnFree_valuesOf {report : FileReport} (h : report.ReturnFree) {n : MarkedNode} (hn : n ∈ report.nodes)
    (level : Nat) : ∀ value ∈ valuesOf level n, '\r' ∉ value.toList := by
  have kind : '\r' ∉ (n.mark.category.elim "" Category.name).toList := by
    cases n.mark.category with
    | none => decide
    | some c => exact c.returnFree_name
  have text : '\r' ∉ (String.ofList (List.replicate (2 * level) ' ') ++ displayText n.mark).toList := by
    rw [String.toList_append, String.toList_ofList, List.mem_append, not_or]
    exact ⟨fun mem => absurd (List.eq_of_mem_replicate mem) (by decide), returnFree_displayText (h.label n hn)⟩
  have exported : '\r' ∉ (if n.mark.exported then "export" else "").toList := by
    split <;> decide
  have path : '\r' ∉ (n.mark.path.getD "").toList := by
    cases hp : n.mark.path with
    | none => decide
    | some p => exact h.path n hn p hp
  simp only [valuesOf, List.forall_mem_cons]
  exact ⟨returnFree_toString _, kind, text, exported, h.note n hn, path, by simp⟩

end AttentionRow

namespace Report

open AttentionRow

/-! ## The tables of reports -/

/-- The values in the table of one file: its name, the columns, a row for each node. -/
def attentionValues (report : FileReport) : List (List String) :=
  [report.source] :: ["line", "kind", "text", "export", "note", "path"] ::
    report.nodes.mapIdx fun k n => valuesOf (levelAt (levelAfter 0 (report.nodes.take k)) n) n

theorem attentionTableOf_eq (report : FileReport) :
    attentionTableOf report = (attentionValues report).map Table.plainRow := by
  rw [attentionTableOf, map_cells_list]
  rfl

/-- The values of all files, with an empty value in a row of its own between two of them. -/
def allValues (reports : List FileReport) : List (List String) :=
  [[""]].intercalate (reports.map attentionValues)

theorem attentionTable_eq (reports : List FileReport) :
    attentionTable reports = Table.render ((allValues reports).map Table.plainRow) := by
  have tables : (reports.map attentionValues).map (List.map Table.plainRow) = reports.map attentionTableOf := by
    rw [List.map_map]
    exact List.map_congr_left fun report _ => (attentionTableOf_eq report).symm
  have rows : ∀ t ∈ reports.map attentionTableOf, t ≠ [] := by
    simp [attentionTableOf]
  calc attentionTable reports
      = Text.join "\n\n" ((reports.map attentionTableOf).map Table.render) := by
        rw [List.map_map]
        rfl
    _ = Table.render (Table.gap.intercalate (reports.map attentionTableOf)) := Table.join_render rows
    _ = Table.render ((allValues reports).map Table.plainRow) := by
        rw [allValues, map_intercalate, tables]
        rfl

theorem returnFree_attentionValues {report : FileReport} (h : report.ReturnFree) :
    ∀ row ∈ attentionValues report, row ≠ [] ∧ ∀ value ∈ row, '\r' ∉ value.toList := by
  simp only [attentionValues, List.forall_mem_cons]
  refine ⟨⟨List.cons_ne_nil _ _, by simpa using h.source⟩, ⟨List.cons_ne_nil _ _, by decide⟩, fun row hrow => ?_⟩
  obtain ⟨k, hk, rfl⟩ := List.mem_mapIdx.mp hrow
  exact ⟨List.cons_ne_nil _ _, returnFree_valuesOf h (List.getElem_mem hk) _⟩

theorem values_parse_attentionTable {reports : List FileReport} (some : reports ≠ [])
    (free : ∀ r ∈ reports, r.ReturnFree) :
    (Table.parse (attentionTable reports)).map (List.map Cell.value) = allValues reports := by
  rw [attentionTable_eq]
  refine Table.values_parse_plain ?_ ?_
  · intro none
    refine some (List.map_eq_nil_iff.mp (intercalate_eq_nil ?_ none))
    simp [attentionValues]
  · intro row hrow
    rcases mem_intercalate hrow with between | ⟨values, hvalues, mem⟩
    · rw [List.mem_singleton.mp between]
      decide
    · obtain ⟨report, hreport, rfl⟩ := List.mem_map.mp hvalues
      exact returnFree_attentionValues (free report hreport) row mem

/-! ## Labels -/

def withLabel (label : String) (n : MarkedNode) : MarkedNode :=
  { n with mark := { n.mark with label } }

def relabel (label : MarkedNode → String) (report : FileReport) : FileReport :=
  { report with nodes := report.nodes.map fun n => withLabel (label n) n }

theorem returnFree_relabel {report : FileReport} (h : report.ReturnFree) {label : MarkedNode → String}
    (free : ∀ n, '\r' ∉ (label n).toList) : (relabel label report).ReturnFree where
  source := h.source
  label := List.forall_mem_map.mpr fun n _ => free n
  note := List.forall_mem_map.mpr h.note
  path := List.forall_mem_map.mpr h.path

theorem eraseIdx_valuesOf_withLabel (level : Nat) (label : String) (n : MarkedNode) :
    (valuesOf (levelAt level (withLabel label n)) (withLabel label n)).eraseIdx 2 =
      (valuesOf (levelAt level n) n).eraseIdx 2 := by
  simp only [valuesOf, withLabel, List.eraseIdx]
  rfl

theorem levelAfter_relabel (label : MarkedNode → String) (level : Nat) (ms : List MarkedNode) :
    levelAfter level (ms.map fun n => withLabel (label n) n) = levelAfter level ms := by
  rw [levelAfter, List.foldl_map]
  rfl

theorem attentionValues_relabel (label : MarkedNode → String) (report : FileReport) :
    (attentionValues (relabel label report)).map (List.eraseIdx · 2) =
      (attentionValues report).map (List.eraseIdx · 2) := by
  refine congrArg (fun rows => [report.source] :: _ :: rows) (List.ext_getElem? fun k => ?_)
  rw [List.getElem?_map, List.getElem?_map, List.getElem?_mapIdx, List.getElem?_mapIdx, relabel,
    ← List.map_take, levelAfter_relabel, List.getElem?_map]
  cases report.nodes[k]? with
  | none => rfl
  | some n => exact congrArg some (eraseIdx_valuesOf_withLabel _ (label n) n)

theorem allValues_relabel (label : MarkedNode → String) (reports : List FileReport) :
    (allValues (reports.map (relabel label))).map (List.eraseIdx · 2) =
      (allValues reports).map (List.eraseIdx · 2) := by
  rw [allValues, allValues, map_intercalate, map_intercalate, List.map_map, List.map_map, List.map_map]
  refine congrArg (List.intercalate _) ?_
  exact List.map_congr_left fun report _ => attentionValues_relabel label report

/-- **The tables of reports are read back.** For reports without a carriage return in their texts: report by
report come a row with its name, the columns, and for each node one row with its line, its category, its text
behind two spaces for each level, its export, its note and its path; between two reports comes one row with one
empty value. Labels, whatever they hold, only show in the column of texts. -/
theorem parse_attentionTable (reports : List FileReport) (some : reports ≠ [])
    (free : ∀ r ∈ reports, r.ReturnFree) :
    (Table.parse (attentionTable reports)).map (List.map Cell.value) =
        [[""]].intercalate (reports.map attentionValues) ∧
      ∀ label : MarkedNode → String, (∀ n, '\r' ∉ (label n).toList) →
        ((Table.parse (attentionTable (reports.map (relabel label)))).map (List.map Cell.value)).map
            (List.eraseIdx · 2) =
          ((Table.parse (attentionTable reports)).map (List.map Cell.value)).map (List.eraseIdx · 2) := by
  have back := values_parse_attentionTable some free
  refine ⟨back, fun label hlabel => ?_⟩
  have relabelled : ∀ r ∈ reports.map (relabel label), r.ReturnFree :=
    List.forall_mem_map.mpr fun r hr => returnFree_relabel (free r hr) hlabel
  rw [back, values_parse_attentionTable (mt List.map_eq_nil_iff.mp some) relabelled, allValues_relabel]

/-- A comment with quotes, a comma and an empty line in it, inside of a block, beside an empty report. -/
theorem parse_attentionTable_commentInBlock :
    let at_line (n : Int) : FlatNode := { (default : FlatNode) with startLine := n }
    let opening : MarkedNode := ⟨1, at_line 4, { category := some .block, note := "block-open", label := "\x7b" }⟩
    let comment : MarkedNode :=
      ⟨2, at_line 5, { category := some .comment, note := "block-comment", label := "/* \"a\",\n\nb */" }⟩
    let reports : List FileReport :=
      [{ source := "a.ts", nodes := [opening, comment] }, { source := "b.ts", nodes := [] }]
    let rows : List (List String) :=
      [ ["a.ts"], ["line", "kind", "text", "export", "note", "path"],
        ["4", "block", "\x7b", "", "block-open", ""],
        ["5", "comment", "  /* \"a\",\n\nb */", "", "block-comment", ""],
        [""],
        ["b.ts"], ["line", "kind", "text", "export", "note", "path"] ]
    (∀ r ∈ reports, r.ReturnFree) ∧
      (Table.parse (attentionTable reports)).map (List.map Cell.value) = rows ∧
      ((Table.parse (attentionTable (reports.map (relabel fun _ => "\",\n\n")))).map (List.map Cell.value)).map
        (List.eraseIdx · 2) = rows.map (List.eraseIdx · 2) := by
  intro at_line opening comment reports rows
  have free : ∀ r ∈ reports, r.ReturnFree := by
    refine List.forall_mem_cons.mpr ⟨⟨by decide, by decide, by decide, by simp [opening, comment]⟩, ?_⟩
    exact List.forall_mem_singleton.mpr ⟨by decide, by simp, by simp, by simp⟩
  obtain ⟨back, relabelled⟩ := parse_attentionTable reports (List.cons_ne_nil _ _) free
  have values : (Table.parse (attentionTable reports)).map (List.map Cell.value) = rows := back.trans (by decide)
  refine ⟨free, values, ?_⟩
  rw [relabelled _ fun _ => by decide, values]

end Report

end SourceSurvey
