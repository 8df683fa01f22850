/-!
# Blank characters

Which characters count as blank, and the three ways a text is freed of them: everywhere (`compact`),
at both ends (`strip`), at the end (`stripEnd`).
-/

namespace SourceSurvey.Text

/-- The 29 blank characters: the ASCII blanks and the four information separators, the next-line and
no-break characters, and the space, line and paragraph separators of Unicode. -/
def isBlank (c : Char) : Bool :=
  let n := c.toNat
  (0x09 ≤ n && n ≤ 0x0D) || (0x1C ≤ n && n ≤ 0x20) || n == 0x85 || n == 0xA0 || n == 0x1680
    || (0x2000 ≤ n && n ≤ 0x200A) || n == 0x2028 || n == 0x2029 || n == 0x202F || n == 0x205F
    || n == 0x3000

/-- The text without any blank, for display on one line. -/
def compact (s : String) : String :=
  String.ofList (s.toList.filter fun c => !isBlank c)

/-- Drops the longest end of a list that satisfies `p`. -/
def dropEndWhile {α : Type} (p : α → Bool) (l : List α) : List α :=
  (l.reverse.dropWhile p).reverse

def stripEnd (s : String) : String :=
  String.ofList (dropEndWhile isBlank s.toList)

def strip (s : String) : String :=
  String.ofList (dropEndWhile isBlank (s.toList.dropWhile isBlank))

@[simp] theorem toList_compact (s : String) :
    (compact s).toList = s.toList.filter fun c => !isBlank c := by
  simp [compact]

@[simp] theorem toList_strip (s : String) :
    (strip s).toList = dropEndWhile isBlank (s.toList.dropWhile isBlank) := by
  simp [strip]

end SourceSurvey.Text
