/-!
# Ranges of code points

A property of characters is kept as a list of closed ranges of code points.
-/

namespace SourceSurvey.Text

def inRanges (ranges : List (Nat × Nat)) (n : Nat) : Bool :=
  ranges.any fun (lo, hi) => lo ≤ n && n ≤ hi

end SourceSurvey.Text
