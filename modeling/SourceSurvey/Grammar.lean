import SourceSurvey.Log
import SourceSurvey.Path.Basic
import SourceSurvey.Tree.Cursor

/-!
# Languages and grammars

Which language a file is written in, by its extension, and the grammars that are at hand. Parsing itself
is done elsewhere: a grammar is known by what it makes of a text.
-/

namespace SourceSurvey

def languageTable : List (String × String) :=
  [ (".ts", "typescript"), (".mts", "typescript"), (".cts", "typescript"), (".tsx", "tsx"), (".js", "tsx"),
    (".jsx", "tsx"), (".mjs", "tsx"), (".cjs", "tsx") ]

/-- The language of a file; none if the file is in no language that is surveyed. -/
def languageOf? (path : String) : Option String :=
  languageTable.lookup (Path.extension path)

/-- The language in which a file is parsed when it has no language of its own. -/
def fallbackLanguage : String := "tsx"

def knownGrammars : List String := ["typescript", "tsx"]

namespace Grammar

/-- The languages that are asked for; asking for none asks for all. -/
def requested : Option (List String) → List String
  | none => knownGrammars
  | some [] => knownGrammars
  | some languages => languages

def loadRecord (language : String) : Record :=
  if knownGrammars.contains language then
    .debug .parser ("Loaded tree-sitter parser for " ++ language)
  else
    { level := .warning, origin := .parser, message := "No grammar mapped for language '" ++ language ++ "'" }

def load (languages : Option (List String)) : Logged (List String) :=
  let languages := requested languages
  { value := languages.filter fun l => knownGrammars.contains l, log := languages.map loadRecord }

end Grammar

structure MissingGrammar where
  language : String
deriving DecidableEq, Repr

def MissingGrammar.message (e : MissingGrammar) : String :=
  "No tree-sitter grammar loaded for '" ++ e.language ++ "'"

/-- The grammars that are loaded, and the tree that each makes of a text. -/
structure Grammars where
  loaded : List String := knownGrammars
  read : (language source : String) → SyntaxTree

namespace Grammars

def parse (g : Grammars) (language source : String) : Except MissingGrammar ParsedSource :=
  if g.loaded.contains language then .ok ⟨Text.Utf8.encode source, g.read language source⟩
  else .error ⟨language⟩

end Grammars

end SourceSurvey
