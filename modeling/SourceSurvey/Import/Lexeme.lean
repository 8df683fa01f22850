import SourceSurvey.Text.Lines

/-!
# Comments and literals

A source is read from left to right as literals, comments and other characters. A literal runs from a
quote to the next one of its kind that is not escaped, and stays on its line unless it is a template; a
quote that is never closed is an ordinary character. A block comment that is never closed runs to the
end. `blankComments` overwrites comments with spaces and leaves everything else where it is.
-/

namespace SourceSurvey

inductive Lexeme where
  | literal (text : List Char)
  | comment (text : List Char)
  | other (c : Char)
deriving DecidableEq, Repr

namespace Lexeme

def chars : Lexeme → List Char
  | literal t => t
  | comment t => t
  | other c => [c]

/-- The characters that open a literal: the two quotes, and the mark of a template. -/
def opensLiteral (c : Char) : Bool :=
  c == '\x27' || c == '"' || c == '\x60'

/-- The literal opened by `quote` may go over several lines. -/
def spansLines (quote : Char) : Bool :=
  quote == '\x60'

/-- Reads on from behind the opening quote of a literal: up to and with its closing quote, and the
rest; none if it is not closed. -/
def closeLiteral (quote : Char) : List Char → Option (List Char × List Char)
  | [] => none
  | '\\' :: c :: rest => (closeLiteral quote rest).map fun r => ('\\' :: c :: r.1, r.2)
  | c :: rest =>
    if c = quote then some ([c], rest)
    else if c = '\n' && !spansLines quote then none
    else (closeLiteral quote rest).map fun r => (c :: r.1, r.2)

/-- Reads on from behind the opening of a block comment: up to and with its end, and the rest. -/
def closeComment : List Char → List Char × List Char
  | [] => ([], [])
  | '*' :: '/' :: rest => (['*', '/'], rest)
  | c :: rest => let r := closeComment rest; (c :: r.1, r.2)

def read (c : Char) (rest : List Char) : Lexeme × List Char :=
  if opensLiteral c then
    match closeLiteral c rest with
    | some (t, rest') => (literal (c :: t), rest')
    | none => (other c, rest)
  else if c = '/' then
    match rest with
    | '*' :: body => let r := closeComment body; (comment ('/' :: '*' :: r.1), r.2)
    | '/' :: _ => (comment ('/' :: rest.takeWhile (· != '\n')), rest.dropWhile (· != '\n'))
    | _ => (other c, rest)
  else (other c, rest)

theorem length_closeLiteral_le {quote : Char} {l : List Char} {r : List Char × List Char}
    (h : closeLiteral quote l = some r) : r.2.length ≤ l.length := by
  fun_induction closeLiteral quote l generalizing r with
  | case1 => contradiction
  | case2 c rest ih =>
    obtain ⟨s, hs, rfl⟩ := Option.map_eq_some_iff.1 h
    have := ih hs
    simp only [List.length_cons]
    omega
  | case3 rest _ => cases h; simp
  | case4 => contradiction
  | case5 c rest _ _ _ ih =>
    obtain ⟨s, hs, rfl⟩ := Option.map_eq_some_iff.1 h
    have := ih hs
    simp only [List.length_cons]
    omega

theorem length_closeComment_le (l : List Char) : (closeComment l).2.length ≤ l.length := by
  fun_induction closeComment l with
  | case1 => simp
  | case2 rest => simp only [List.length_cons]; omega
  | case3 c rest _ r ih => simp only [r, List.length_cons]; omega

theorem length_read_le (c : Char) (rest : List Char) : (read c rest).2.length ≤ rest.length := by
  unfold read
  split
  · split
    · next h => exact length_closeLiteral_le h
    · exact Nat.le_refl _
  · split
    · split
      · exact Nat.le_succ_of_le (length_closeComment_le _)
      · exact (List.dropWhile_sublist _).length_le
      · exact Nat.le_refl _
    · exact Nat.le_refl _

def list : List Char → List Lexeme
  | [] => []
  | c :: rest => (read c rest).1 :: list (read c rest).2
termination_by l => l.length
decreasing_by exact Nat.lt_succ_of_le (length_read_le ..)

theorem append_closeLiteral {quote : Char} {l : List Char} {r : List Char × List Char}
    (h : closeLiteral quote l = some r) : r.1 ++ r.2 = l := by
  fun_induction closeLiteral quote l generalizing r with
  | case1 => contradiction
  | case2 c rest ih =>
    obtain ⟨s, hs, rfl⟩ := Option.map_eq_some_iff.1 h
    simp [ih hs]
  | case3 rest _ => cases h; simp
  | case4 => contradiction
  | case5 c rest _ _ _ ih =>
    obtain ⟨s, hs, rfl⟩ := Option.map_eq_some_iff.1 h
    simp [ih hs]

theorem append_closeComment (l : List Char) : (closeComment l).1 ++ (closeComment l).2 = l := by
  fun_induction closeComment l with
  | case1 => rfl
  | case2 rest => rfl
  | case3 c rest _ r ih => simpa [r] using ih

theorem chars_read_append (c : Char) (rest : List Char) :
    (read c rest).1.chars ++ (read c rest).2 = c :: rest := by
  unfold read
  split
  · split
    · next h => simp [chars, append_closeLiteral h]
    · rfl
  · split
    · next h =>
      subst h
      split
      · simp [chars, append_closeComment]
      · simp [chars]
      · rfl
    · rfl

theorem flatMap_chars_list (l : List Char) : (list l).flatMap chars = l := by
  fun_induction list l with
  | case1 => rfl
  | case2 c rest ih => rw [List.flatMap_cons, ih, chars_read_append]

/-- A space for every character but a line feed. -/
def blank (t : List Char) : List Char :=
  t.map fun c => if c = '\n' then '\n' else ' '

def withoutComment : Lexeme → List Char
  | comment t => blank t
  | l => l.chars

end Lexeme

/-- The source with its comments overwritten by spaces; line feeds and all positions stay. -/
def blankComments (source : List Char) : List Char :=
  (Lexeme.list source).flatMap Lexeme.withoutComment

end SourceSurvey
