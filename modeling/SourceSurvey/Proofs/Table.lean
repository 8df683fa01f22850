import Mathlib.Data.List.Forall2
import Mathlib.Data.List.TakeWhile
import SourceSurvey.Table

/-!
# Tables read back

A table that is written and read again has the same cells, except that a cell which had to be quoted is now
known as quoted (`Cell.settled`). One kind of cell is lost: a bare one with a carriage return in it, as that
ends the row (`Cell.Readable` excludes it). Reading never yields such a cell, whatever the text was, so one
pass of reading and writing brings any text into a form that further passes leave alone
(`Table.render_parse_settles`), and a table is read back if and only if it has no such cell
(`Table.parse_render_iff`).
-/

namespace SourceSurvey

namespace Cell

/-- The characters of a value as they stand between quotes. -/
def escaped (value : List Char) : List Char :=
  value.flatMap fun c => if c = '"' then ['"', '"'] else [c]

/-- The cell as it is read back: quoted, if it was or had to be. -/
def settled (cell : Cell) : Cell :=
  { cell with quoted := needsQuotes cell.value || cell.quoted }

/-- The cell is written as it stands, and what is written is read as one cell: nothing aligns it, and a
carriage return in it stands between quotes. -/
structure Readable (cell : Cell) : Prop where
  width : cell.width = none
  bare : cell.settled.quoted = false → '\r' ∉ cell.value.toList

theorem settled_eq {cell : Cell} (h : cell.width = none) {quoted : Bool} (q : cell.settled.quoted = quoted) :
    cell.settled = { value := cell.value, quoted } := by
  subst q
  rw [settled, h]

theorem escaped_of_not_mem {value : List Char} (h : '"' ∉ value) : escaped value = value := by
  induction value with
  | nil => rfl
  | cons c rest ih =>
      rw [List.mem_cons, not_or] at h
      rw [escaped, List.flatMap_cons, if_neg (Ne.symm h.1)]
      exact congrArg (c :: ·) (ih h.2)

theorem needsQuotes_eq_false {value : String} : needsQuotes value = false ↔
    ∀ c ∈ value.toList, c ≠ ',' ∧ c ≠ '"' ∧ c ≠ ' ' ∧ c ≠ '\n' := by
  simp [needsQuotes, and_assoc]

/-- The characters that have to stand between quotes, by name. -/
theorem needsQuotes_eq (value : String) :
    needsQuotes value = value.toList.any fun c => c ∈ [',', '"', ' ', '\n'] := by
  rw [needsQuotes]
  congr 1
  funext c
  simp [Bool.or_assoc, Bool.beq_eq_decide_eq]

theorem quoted_settled (cell : Cell) : cell.settled.quoted =
    (cell.quoted || cell.value.toList.any fun c => c ∈ [',', '"', ' ', '\n']) := by
  rw [← needsQuotes_eq, Bool.or_comm]
  rfl

theorem quoted_settled_eq_false {cell : Cell} : cell.settled.quoted = false ↔
    cell.quoted = false ∧ ∀ c ∈ [',', '"', ' ', '\n'], c ∉ cell.value.toList := by
  rw [quoted_settled, Bool.or_eq_false_iff, List.any_eq_false]
  refine and_congr_right fun _ => ⟨?_, ?_⟩
  · intro other c special mem
    exact other c mem (decide_eq_true special)
  · intro absent c mem special
    exact absent c (of_decide_eq_true special) mem

theorem readable_of_settled {cell : Cell} (h : cell.settled.Readable) : cell.Readable := by
  refine ⟨h.width, fun bare => h.bare ?_⟩
  obtain ⟨-, plain⟩ := quoted_settled_eq_false.mp bare
  exact quoted_settled_eq_false.mpr ⟨bare, plain⟩

/-- A cell is written bare, or with its value between quotes. -/
theorem toList_render {cell : Cell} (h : cell.width = none) : cell.render.toList =
    if cell.settled.quoted then '"' :: (escaped cell.value.toList ++ ['"']) else cell.value.toList := by
  have quote : ("\"" : String).toList = ['"'] := rfl
  rw [render, settled, h]
  cases special : needsQuotes cell.value with
  | true =>
      rw [if_pos rfl, Bool.true_or, if_pos rfl, String.toList_append, String.toList_append, quote, align,
        Text.replaceChar, String.toList_ofList]
      rfl
  | false =>
      rw [if_neg Bool.false_ne_true, Bool.false_or]
      split
      · -- a value that needs no quotes has none to escape
        have bare : '"' ∉ cell.value.toList := fun mem => (needsQuotes_eq_false.mp special _ mem).2.1 rfl
        rw [String.toList_append, String.toList_append, quote, align, escaped_of_not_mem bare]
        rfl
      · rfl

theorem render_settled (cell : Cell) : cell.settled.render = cell.render := by
  rw [render, render, settled]
  cases needsQuotes cell.value with
  | true => rfl
  | false => rw [Bool.false_or]

end Cell

namespace Table

/-- The text ends here, or a character comes that ends a cell. -/
def Stops (rest : List Char) : Prop := ∀ c ∈ rest.head?, endsCell c = true

theorem readQuoted_cons {c : Char} {l : List Char} (h : c ≠ '"') :
    readQuoted (c :: l) = (c :: (readQuoted l).1, (readQuoted l).2) := by
  rw [readQuoted]
  · exact fun _ both => absurd both h
  · exact h

theorem readQuoted_escaped (value : List Char) {rest : List Char} (stops : Stops rest) :
    readQuoted (Cell.escaped value ++ '"' :: rest) = (value, rest) := by
  induction value with
  | nil =>
      -- what follows the closing quote is no quote, so it is not a doubled one
      cases rest with
      | nil => rfl
      | cons c rest =>
          have other : c ≠ '"' := by
            rintro rfl
            exact absurd (stops '"' rfl) (by decide)
          simp [Cell.escaped, readQuoted, other]
  | cons c value ih =>
      rw [Cell.escaped, List.flatMap_cons, List.append_assoc]
      by_cases quote : c = '"'
      · rw [if_pos quote, quote]
        exact congrArg (fun r => ('"' :: r.1, r.2)) ih
      · rw [if_neg quote, List.singleton_append, readQuoted_cons quote]
        exact congrArg (fun r => (c :: r.1, r.2)) ih

theorem readPlain_append {value rest : List Char} (plain : ∀ c ∈ value, endsCell c = false)
    (stops : Stops rest) : readPlain (value ++ rest) = (value, rest) := by
  have inside : ∀ c ∈ value, (!endsCell c) = true := fun c hc => by rw [plain c hc]; rfl
  rw [readPlain, List.takeWhile_append_of_pos inside, List.dropWhile_append_of_pos inside]
  cases rest with
  | nil => rw [List.takeWhile_nil, List.dropWhile_nil, List.append_nil]
  | cons c rest =>
      have ends : (!endsCell c) = false := by rw [stops c rfl]; rfl
      simp [ends]

theorem readPlain_nil {rest : List Char} (stops : Stops rest) : readPlain rest = ([], rest) :=
  readPlain_append (fun _ none => absurd none List.not_mem_nil) stops

theorem readCell_bare {l : List Char} (h : l.head? ≠ some '"') :
    readCell l = ({ value := String.ofList (readPlain l).1 }, (readPlain l).2) := by
  rw [readCell]
  rintro l rfl
  exact h rfl

theorem readCell_render {cell : Cell} (h : cell.Readable) {rest : List Char} (stops : Stops rest) :
    readCell (cell.render.toList ++ rest) = (cell.settled, rest) := by
  rw [Cell.toList_render h.width]
  cases quoted : cell.settled.quoted with
  | true =>
      rw [if_pos rfl, List.cons_append, List.append_assoc, List.singleton_append, readCell]
      simp only [readQuoted_escaped _ stops, readPlain_nil stops, List.append_nil, String.ofList_toList]
      rw [Cell.settled_eq h.width quoted]
  | false =>
      have plain : ∀ c ∈ cell.value.toList, endsCell c = false ∧ c ≠ '"' := by
        intro c hc
        have special : Cell.needsQuotes cell.value = false := (Bool.or_eq_false_iff.mp quoted).1
        obtain ⟨comma, quote, -, feed⟩ := Cell.needsQuotes_eq_false.mp special c hc
        have return' : c ≠ '\r' := fun same => h.bare quoted (same ▸ hc)
        exact ⟨by simp [endsCell, comma, return', feed], quote⟩
      have head : (cell.value.toList ++ rest).head? ≠ some '"' := by
        intro first
        cases value : cell.value.toList with
        | nil =>
            rw [value] at first
            exact absurd (stops '"' first) (by decide)
        | cons c more =>
            rw [value] at first plain
            exact (plain c List.mem_cons_self).2 (Option.some.inj first)
      rw [if_neg Bool.false_ne_true, readCell_bare head, readPlain_append (fun c hc => (plain c hc).1) stops,
        Cell.settled_eq h.width quoted, String.ofList_toList]

/-! ## Rows and tables -/

/-- The table has a row, every row has a cell, and every cell can be read back. -/
structure Readable (table : Table) : Prop where
  nonempty : table ≠ []
  rows : ∀ row ∈ table, row ≠ [] ∧ ∀ cell ∈ row, cell.Readable

theorem parseChars_end {l : List Char} {cell : Cell} (h : readCell l = (cell, [])) :
    parseChars l = [[cell]] := by
  rw [parseChars]
  split <;> simp_all

theorem parseChars_comma {l rest : List Char} {cell : Cell} (h : readCell l = (cell, ',' :: rest)) :
    parseChars l = consCell cell (parseChars rest) := by
  rw [parseChars]
  split <;> simp_all

theorem parseChars_feed {l rest : List Char} {cell : Cell} (h : readCell l = (cell, '\n' :: rest)) :
    parseChars l = [cell] :: parseChars rest := by
  rw [parseChars]
  split <;> simp_all

/-- A row is read back with what follows it, if its last cell is. -/
theorem parseChars_row {row : List Cell} (some : row ≠ []) (readable : ∀ cell ∈ row, cell.Readable)
    {rest : List Char} (stops : Stops rest) {rows : Table}
    (last : ∀ l cell, readCell l = (cell, rest) → parseChars l = [cell] :: rows) :
    parseChars ((Text.join "," (row.map Cell.render)).toList ++ rest) = row.map Cell.settled :: rows := by
  induction row with
  | nil => exact absurd rfl some
  | cons cell row ih =>
      have first := readable cell List.mem_cons_self
      cases row with
      | nil => exact last _ _ (readCell_render first stops)
      | cons next row =>
          have comma : (Text.join "," ((cell :: next :: row).map Cell.render)).toList ++ rest =
              cell.render.toList ++
                ',' :: ((Text.join "," ((next :: row).map Cell.render)).toList ++ rest) := by
            simp [Text.join, List.append_assoc]
          have ends : Stops (',' :: ((Text.join "," ((next :: row).map Cell.render)).toList ++ rest)) := by
            rintro c ⟨⟩
            rfl
          rw [comma, parseChars_comma (readCell_render first ends),
            ih (List.cons_ne_nil _ _) fun c hc => readable c (List.mem_cons_of_mem _ hc)]
          rfl

/-- **A table is read back with its cells settled.** -/
theorem parse_render {table : Table} (h : table.Readable) :
    parse table.render = table.map (List.map Cell.settled) := by
  obtain ⟨nonempty, rows⟩ := h
  rw [parse]
  induction table with
  | nil => exact absurd rfl nonempty
  | cons row table ih =>
      obtain ⟨some, readable⟩ := rows row List.mem_cons_self
      cases table with
      | nil =>
          have ends : Stops [] := by simp [Stops]
          have whole := parseChars_row some readable ends fun _ _ => parseChars_end
          rwa [List.append_nil] at whole
      | cons next table =>
          have feed : (render (row :: next :: table)).toList =
              (Text.join "," (row.map Cell.render)).toList ++ '\n' :: (render (next :: table)).toList := by
            simp [render, Text.unlines, Text.join]
          have ends : Stops ('\n' :: (render (next :: table)).toList) := by
            rintro c ⟨⟩
            rfl
          rw [feed, parseChars_row some readable ends fun _ _ => parseChars_feed,
            ih (List.cons_ne_nil _ _) fun r hr => rows r (List.mem_cons_of_mem _ hr)]
          rfl

/-- What is read as a cell can be read back: a bare cell has ended before a carriage return. -/
theorem readable_readCell (l : List Char) : (readCell l).1.Readable := by
  fun_cases readCell l with
  | case1 l body tail => exact ⟨rfl, fun bare => by simp [Cell.settled] at bare⟩
  | case2 l _ tail =>
      refine ⟨rfl, fun _ mem => ?_⟩
      rw [String.toList_ofList] at mem
      have inside := List.mem_takeWhile_imp mem
      exact absurd inside (by decide)

theorem readable_of_readCell {l rest : List Char} {cell : Cell} (h : readCell l = (cell, rest)) :
    cell.Readable := by
  have readable := readable_readCell l
  rwa [h] at readable

theorem readable_consCell {cell : Cell} (h : cell.Readable) {table : Table} (ht : table.Readable) :
    (consCell cell table).Readable := by
  obtain ⟨nonempty, rows⟩ := ht
  cases table with
  | nil => exact absurd rfl nonempty
  | cons row table =>
      obtain ⟨first, later⟩ := List.forall_mem_cons.mp rows
      refine ⟨List.cons_ne_nil _ _, List.forall_mem_cons.mpr ⟨⟨List.cons_ne_nil _ _, ?_⟩, later⟩⟩
      exact List.forall_mem_cons.mpr ⟨h, first.2⟩

theorem readable_cons {cell : Cell} (h : cell.Readable) {table : Table}
    (later : ∀ row ∈ table, row ≠ [] ∧ ∀ cell ∈ row, cell.Readable) : Readable ([cell] :: table) :=
  ⟨List.cons_ne_nil _ _, List.forall_mem_cons.mpr
    ⟨⟨List.cons_ne_nil _ _, fun c hc => by rwa [List.mem_singleton.mp hc]⟩, later⟩⟩

/-- **Whatever a text is, the table read from it can be read back.** -/
theorem readable_parse (text : String) : (parse text).Readable := by
  rw [parse]
  generalize text.toList = l
  fun_induction parseChars l with
  | case1 l cell read => exact readable_cons (readable_of_readCell read) (by simp)
  | case2 l cell rest read ih => exact readable_consCell (readable_of_readCell read) ih
  | case3 l cell rest read ih => exact readable_cons (readable_of_readCell read) ih.rows
  | case4 l cell c rest _ _ read ih => exact readable_cons (readable_of_readCell read) ih.rows

theorem render_settled (table : Table) : render (table.map (List.map Cell.settled)) = table.render := by
  rw [render, render, List.map_map]
  congr 1
  refine List.map_congr_left fun row _ => ?_
  rw [Function.comp_apply, List.map_map]
  congr 1
  exact List.map_congr_left fun cell _ => cell.render_settled

/-- **One pass of reading and writing settles a text.** The table that is read from the written text has the
same values in the same places, no cell loses its quotes, and it is written as the same text again. -/
theorem render_parse_settles (text : String) :
    (parse (parse text).render).map (List.map Cell.value) = (parse text).map (List.map Cell.value) ∧
      List.Forall₂ (List.Forall₂ fun cell cell' => cell.quoted = true → cell'.quoted = true)
        (parse text) (parse (parse text).render) ∧
      (parse (parse text).render).render = (parse text).render := by
  rw [parse_render (readable_parse text)]
  refine ⟨?_, ?_, render_settled _⟩
  · rw [List.map_map]
    refine List.map_congr_left fun row _ => ?_
    rw [Function.comp_apply, List.map_map]
    rfl
  · refine List.forall₂_map_right_iff.mpr (List.forall₂_same.mpr fun row _ => ?_)
    refine List.forall₂_map_right_iff.mpr (List.forall₂_same.mpr fun cell _ => ?_)
    exact fun quoted => Bool.or_eq_true_iff.mpr (Or.inr quoted)

/-! ## What is lost -/

/-- Nothing else than a table that can be read back is read back: what is read always can. -/
theorem readable_of_parse_render {table : Table}
    (h : parse table.render = table.map (List.map Cell.settled)) : table.Readable := by
  obtain ⟨nonempty, rows⟩ := readable_parse table.render
  rw [h] at nonempty rows
  refine ⟨fun none => nonempty (by rw [none]; rfl), fun row hrow => ?_⟩
  obtain ⟨some, readable⟩ := rows _ (List.mem_map_of_mem hrow)
  refine ⟨fun none => some (by rw [none]; rfl), fun cell hcell => ?_⟩
  exact Cell.readable_of_settled (readable _ (List.mem_map_of_mem hcell))

/-- **A table is read back if and only if no bare cell has a carriage return in it.** The table has a row, every
row has a cell, and no cell is aligned. What comes back are the values in their places, quoted exactly where they
were or where they have a comma, a quote, a space or a line feed in them; a carriage return is harmless in these,
and in any other cell it ends the row. -/
theorem parse_render_iff (table : Table) (nonempty : table ≠ []) (rows : ∀ row ∈ table, row ≠ [])
    (unaligned : ∀ row ∈ table, ∀ cell ∈ row, cell.width = none) :
    parse table.render = table.map (List.map fun cell =>
        { value := cell.value
          quoted := cell.quoted || cell.value.toList.any fun c => c ∈ [',', '"', ' ', '\n'] }) ↔
      ∀ row ∈ table, ∀ cell ∈ row, cell.quoted = false →
        (∀ c ∈ [',', '"', ' ', '\n'], c ∉ cell.value.toList) → '\r' ∉ cell.value.toList := by
  have settled : table.map (List.map Cell.settled) = table.map (List.map fun cell =>
      { value := cell.value
        quoted := cell.quoted || cell.value.toList.any fun c => c ∈ [',', '"', ' ', '\n'] }) := by
    refine List.map_congr_left fun row hrow => List.map_congr_left fun cell hcell => ?_
    exact Cell.settled_eq (unaligned row hrow cell hcell) (Cell.quoted_settled cell)
  rw [← settled]
  constructor
  · intro back row hrow cell hcell bare plain
    have readable := ((readable_of_parse_render back).rows row hrow).2 cell hcell
    exact readable.bare (Cell.quoted_settled_eq_false.mpr ⟨bare, plain⟩)
  · intro free
    refine parse_render ⟨nonempty, fun row hrow => ⟨rows row hrow, fun cell hcell => ?_⟩⟩
    refine ⟨unaligned row hrow cell hcell, fun bare => ?_⟩
    obtain ⟨unquoted, plain⟩ := Cell.quoted_settled_eq_false.mp bare
    exact free row hrow cell hcell unquoted plain

/-- A carriage return comes back between quotes and beside a space, and a bare one does not. -/
theorem parse_render_iff_returns :
    let kept : Table := [[{ value := "a\rb", quoted := true }, { value := "\r \"" }], [{ value := "" }]]
    let lost : Table := [[{ value := "a" }, { value := "b\r" }], [{ value := "c" }]]
    parse kept.render =
        [[{ value := "a\rb", quoted := true }, { value := "\r \"", quoted := true }], [{ value := "" }]] ∧
      parse lost.render ≠ lost := by
  intro kept lost
  constructor
  · refine (parse_render_iff kept (by decide) (by decide) (by decide)).mpr ?_
    simp [kept]
  · intro back
    have free := (parse_render_iff lost (by decide) (by decide) (by decide)).mp back
    simp [lost] at free

end Table

end SourceSurvey
