import SourceSurvey.Tree.Arena

/-!
# Outlines

An outline lists the returns, the functions and the tags of a source, each indented below the entry it
stands in. Depths in the tree are first taken as levels and then compressed (`compressLevels`), so that
an entry stands exactly one level below the entry around it.
-/

namespace SourceSurvey

/-- Compresses levels, where `openLevels` are the levels of the entries still open, innermost first. -/
def compressFrom (openLevels : List Int) : List Int → List Nat
  | [] => []
  | level :: rest =>
    let outer := openLevels.dropWhile fun l => level < l
    let openLevels := if outer.head? = some level then outer else level :: outer
    (openLevels.length - 1) :: compressFrom openLevels rest

/-- Renumbers levels so that each is one more than that of the nearest earlier smaller level. -/
def compressLevels (levels : List Int) : List Nat :=
  compressFrom [] levels

/-- One line of an outline: what it is, its name, if it has one, and whether it is exported. -/
structure OutlineEntry where
  level : Nat
  kind : String
  name : Option String := none
  exported : Bool := false
deriving DecidableEq, Repr

namespace OutlineEntry

def render (e : OutlineEntry) : String :=
  Text.indent e.level ++ (if e.exported then "export " else "") ++ e.kind ++
    match e.name with
    | some n => " \"" ++ n ++ "\""
    | none => ""

end OutlineEntry

namespace Outline

def inExport (a : Arena) (i : Nat) : Bool :=
  match a.parent? i with
  | some p => a.kind p == "export_statement"
  | none => false

def nameText? (a : Arena) (i : Nat) : Option String :=
  (a.childByField? i "name").map a.text

/-- The first declarator of a declaration whose value is an arrow function. -/
def arrowDeclarator? (a : Arena) (i : Nat) : Option Nat :=
  (a.children i).find? fun j =>
    a.kind j == "variable_declarator" &&
      match a.childByField? j "value" with
      | some value => a.kind value == "arrow_function"
      | none => false

/-- The name of a tag: its access chain, or its text where that is no chain. -/
def tagName? (a : Arena) (i : Nat) : Option String :=
  (a.childByField? i "name").map fun name =>
    let chain := a.chainText name
    if chain = "" then a.text name else chain

/-- The entry of node `i`, with the node's depth as its level; none if it is not outlined. -/
def entryOf? (a : Arena) (i depth : Nat) : Option OutlineEntry :=
  let kind := a.kind i
  if kind = "return_statement" then some ⟨depth, kind, none, false⟩
  else if kind = "function_declaration" then some ⟨depth, kind, nameText? a i, inExport a i⟩
  else if kind = "lexical_declaration" then
    (arrowDeclarator? a i).map fun j => ⟨depth, "arrow_function", nameText? a j, inExport a i⟩
  else if kind = "jsx_element" then
    some ⟨depth, kind, tagName? a ((a.childOfKind? i "jsx_opening_element").getD i), false⟩
  else if kind = "jsx_self_closing_element" then some ⟨depth, kind, tagName? a i, false⟩
  else none

/-- The entries of a node list, with depths as levels. -/
def rawEntries (nodes : List FlatNode) : List OutlineEntry :=
  let a := Arena.ofNodes nodes
  nodes.zipIdx.filterMap fun (n, i) => entryOf? a i n.depth

def entries (nodes : List FlatNode) : List OutlineEntry :=
  let raw := rawEntries nodes
  (raw.zip (compressLevels (raw.map fun e => (e.level : Int)))).map fun (e, level) => { e with level }

end Outline

end SourceSurvey
