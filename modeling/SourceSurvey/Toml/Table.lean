import SourceSurvey.Keyed
import SourceSurvey.Settings.Value

/-!
# Tables in the making

A TOML document builds its tables piece by piece, and each table may be defined once. So a table under
construction remembers what brought it about: a header of its own, a dotted key, or only the header of a
table inside it. Arrays of tables grow by one table with each of their headers.
-/

namespace SourceSurvey.Toml

inductive TableOrigin where
  | header
  | dotted
  | implied
deriving DecidableEq, Repr

/-- A value, a table or an array of tables under construction. -/
inductive Node where
  | leaf (v : Value)
  | table (origin : TableOrigin) (entries : List (String × Node))
  | tables (items : List (List (String × Node)))

abbrev Entries := List (String × Node)

mutual

def Node.value : Node → Value
  | .leaf v => v
  | .table _ entries => .table (finish entries)
  | .tables items => .list (finishAll items)

def finish : List (String × Node) → List (String × Value)
  | [] => []
  | (k, n) :: rest => (k, n.value) :: finish rest

def finishAll : List (List (String × Node)) → List Value
  | [] => []
  | entries :: rest => .table (finish entries) :: finishAll rest

end

namespace Entries

/-- Sets a key, which may be dotted and must be new. A dotted key does not reach into a table that has a
header of its own. -/
def assign (v : Value) : List String → Entries → Option Entries
  | [], _ => none
  | [k], es => if (es.lookup k).isSome then none else some (es ++ [(k, .leaf v)])
  | k :: rest, es =>
    match es.lookup k with
    | none => (assign v rest []).map fun inner => es ++ [(k, .table .dotted inner)]
    | some (.table origin inner) =>
      if origin = .header then none
      else (assign v rest inner).map fun inner => put k (.table origin inner) es
    | some _ => none

/-- Changes the table that the names of a header lead to. Tables on the way that are not there are
implied; of an array of tables the last one is meant. -/
def within (change : Entries → Option Entries) : List String → Entries → Option Entries
  | [], es => change es
  | k :: rest, es =>
    match es.lookup k with
    | none => (within change rest []).map fun inner => es ++ [(k, .table .implied inner)]
    | some (.table origin inner) =>
      (within change rest inner).map fun inner => put k (.table origin inner) es
    | some (.tables items) =>
      match items.getLast? with
      | some last =>
        (within change rest last).map fun last => put k (.tables (items.dropLast ++ [last])) es
      | none => none
    | some (.leaf _) => none

def openTable (k : String) (es : Entries) : Option Entries :=
  match es.lookup k with
  | none => some (es ++ [(k, .table .header [])])
  | some (.table .implied inner) => some (put k (.table .header inner) es)
  | some _ => none

def appendTable (k : String) (es : Entries) : Option Entries :=
  match es.lookup k with
  | none => some (es ++ [(k, .tables [[]])])
  | some (.tables items) => some (put k (.tables (items ++ [[]])) es)
  | some _ => none

end Entries

end SourceSurvey.Toml
