import SourceSurvey.Calendar
import SourceSurvey.Number.Double
import SourceSurvey.Text.Lines
import SourceSurvey.Text.Quoted

/-!
# Values of settings

What a settings file can say: texts, numbers, truth values, lists and tables. `Value.display` is the text
of a value where a text is wanted; inside lists and tables, texts are shown in quotes.
-/

namespace SourceSurvey

inductive Value where
  | null
  | boolean (b : Bool)
  | integer (n : Int)
  | decimal (x : Double)
  | moment (m : Moment)
  | text (s : String)
  | list (items : List Value)
  | table (entries : List (String × Value))
deriving Repr, Inhabited

namespace Value

mutual

def inspect : Value → String
  | null => "None"
  | boolean true => "True"
  | boolean false => "False"
  | integer n => toString n
  | decimal x => x.render
  | moment m => m.render
  | text s => Text.quote s
  | list items => "[" ++ Text.join ", " (inspectItems items) ++ "]"
  | table entries => "\x7b" ++ Text.join ", " (inspectEntries entries) ++ "\x7d"

def inspectItems : List Value → List String
  | [] => []
  | v :: rest => inspect v :: inspectItems rest

def inspectEntries : List (String × Value) → List String
  | [] => []
  | (k, v) :: rest => (Text.quote k ++ ": " ++ inspect v) :: inspectEntries rest

end

/-- The text of a value; a text stands for itself. -/
def display : Value → String
  | text s => s
  | v => v.inspect

end Value

/-- Reads a document: the entries that a text sets, or nothing if it is not well formed. -/
abbrev DocumentReader := String → Option (List (String × Value))

end SourceSurvey
