import SourceSurvey.Text.Lines

/-!
# Tables as text

Rows of cells, written with a comma between cells and a line feed between rows. A cell is quoted when
its value would otherwise be misread (`Cell.needsQuotes`) or when it came quoted; inside quotes a
quote is written twice. Reading (`Table.parse`) takes CR LF, CR and LF as the end of a row, knows a
quote as an opening one only at the very start of a cell, and never fails: a quoted part without its
closing quote runs to the end of the text.
-/

namespace SourceSurvey

/-- One cell of a table. `width` asks for the value to be aligned right in that many columns. -/
structure Cell where
  value : String
  width : Option Int := none
  quoted : Bool := false
deriving DecidableEq, Repr, Inhabited

namespace Cell

/-- A comma, a quote, a space or a line feed: a value that holds one has to be quoted. -/
def needsQuotes (value : String) : Bool :=
  value.toList.any fun c => c == ',' || c == '"' || c == ' ' || c == '\n'

/-- Aligns a text as the cell asks; a width of zero asks for nothing. -/
def align (width : Option Int) (text : String) : String :=
  match width with
  | none => text
  | some w => Text.alignRight w text

def render (cell : Cell) : String :=
  if needsQuotes cell.value then
    "\"" ++ align cell.width (Text.replaceChar '"' "\"\"" cell.value) ++ "\""
  else if cell.quoted then "\"" ++ align cell.width cell.value ++ "\""
  else align cell.width cell.value

end Cell

abbrev Table := List (List Cell)

namespace Table

def plainRow (values : List String) : List Cell :=
  values.map fun v => { value := v }

def render (table : Table) : String :=
  Text.unlines (table.map fun row => Text.join "," (row.map Cell.render))

/-! ## Reading -/

/-- Reads on from behind an opening quote: the quoted value, and what follows its closing quote. -/
def readQuoted : List Char → List Char × List Char
  | [] => ([], [])
  | '"' :: '"' :: rest => let r := readQuoted rest; ('"' :: r.1, r.2)
  | '"' :: rest => ([], rest)
  | c :: rest => let r := readQuoted rest; (c :: r.1, r.2)

def endsCell (c : Char) : Bool :=
  c == ',' || c == '\r' || c == '\n'

def readPlain (l : List Char) : List Char × List Char :=
  (l.takeWhile fun c => !endsCell c, l.dropWhile fun c => !endsCell c)

/-- Reads one cell: a quoted part if it starts with a quote, then plain characters. The rest is empty
or starts with a character that ends a cell. -/
def readCell : List Char → Cell × List Char
  | '"' :: l =>
    let body := readQuoted l
    let tail := readPlain body.2
    ({ value := String.ofList (body.1 ++ tail.1), quoted := true }, tail.2)
  | l =>
    let tail := readPlain l
    ({ value := String.ofList tail.1 }, tail.2)

theorem length_readQuoted_le (l : List Char) : (readQuoted l).2.length ≤ l.length := by
  fun_induction readQuoted l with
  | case1 => simp
  | case2 rest r ih => simp only [r, List.length_cons]; omega
  | case3 => simp
  | case4 c rest _ _ r ih => simp only [r, List.length_cons]; omega

theorem length_readPlain_le (l : List Char) : (readPlain l).2.length ≤ l.length := by
  simpa [readPlain] using (List.dropWhile_sublist _).length_le

theorem length_readCell_le (l : List Char) : (readCell l).2.length ≤ l.length := by
  fun_cases readCell l with
  | case1 l body tail =>
    have h₁ := length_readQuoted_le l
    have h₂ := length_readPlain_le (readQuoted l).2
    simp only [tail, body, List.length_cons]
    omega
  | case2 l _ tail => exact length_readPlain_le l

/-- Puts a cell in front of the first row. -/
def consCell (cell : Cell) : Table → Table
  | [] => [[cell]]
  | row :: rows => (cell :: row) :: rows

def parseChars (l : List Char) : Table :=
  match _h : readCell l with
  | (cell, []) => [[cell]]
  | (cell, ',' :: rest) => consCell cell (parseChars rest)
  | (cell, '\r' :: '\n' :: rest) => [cell] :: parseChars rest
  | (cell, _ :: rest) => [cell] :: parseChars rest
termination_by l.length
decreasing_by
  all_goals
    have := length_readCell_le l
    simp only [_h, List.length_cons] at this
    omega

/-- Reads a table. The empty text is one row with one empty cell. -/
def parse (text : String) : Table :=
  parseChars text.toList

end Table

end SourceSurvey
