/-!
# Terminal sequences

A terminal sequence starts with the escape character and a bracket, may have parameters, and ends with a
letter. It colours a terminal and means nothing anywhere else, so output that does not go to a terminal is
freed of it (`withoutSequences`).
-/

namespace SourceSurvey.Text

/-- A character of the parameters of a terminal sequence. -/
def inParameters (c : Char) : Bool := c.isDigit || c == ';' || c == '?'

/-- What follows a terminal sequence, from behind its escape character; none if it is no sequence. -/
def afterSequence? : List Char → Option (List Char)
  | '[' :: l =>
    match l.dropWhile inParameters with
    | c :: rest => if c.isAlpha then some rest else none
    | [] => none
  | _ => none

theorem length_afterSequence?_lt {l rest : List Char} (h : afterSequence? l = some rest) :
    rest.length < l.length := by
  unfold afterSequence? at h
  split at h
  · next l =>
    have hle := (List.dropWhile_sublist inParameters (l := l)).length_le
    split at h
    · next heq =>
      split at h
      · cases h
        rw [heq] at hle
        simp only [List.length_cons] at *
        omega
      · contradiction
    · contradiction
  · contradiction

def dropSequences : List Char → List Char
  | [] => []
  | c :: l =>
    if c = '\x1b' then
      match _h : afterSequence? l with
      | some rest => dropSequences rest
      | none => c :: dropSequences l
    else c :: dropSequences l
termination_by l => l.length
decreasing_by
  · exact Nat.lt_succ_of_lt (length_afterSequence?_lt _h)
  · exact Nat.lt_succ_self _
  · exact Nat.lt_succ_self _

def withoutSequences (s : String) : String :=
  String.ofList (dropSequences s.toList)

end SourceSurvey.Text
