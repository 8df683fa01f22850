import SourceSurvey.Text.Blank
import SourceSurvey.Text.Lines
import SourceSurvey.Text.Word

/-!
# Forms of imports

The five ways in which a source names another module, told from the characters alone. Each form starts
with a word and leads to a quoted specifier; the words in between are not looked at closely.
-/

namespace SourceSurvey

inductive ImportForm where
  /-- `import NAMES from 'MODULE'` -/
  | clause
  /-- `import 'MODULE'` -/
  | effect
  /-- `export NAMES from 'MODULE'` -/
  | reexport
  /-- `require('MODULE')` -/
  | require
  /-- `import('MODULE')` -/
  | dynamic
deriving DecidableEq, Repr

/-- A specifier that was read: the characters from its start on, the specifier, and the rest after the
form it stands in. -/
structure Specifier where
  start : List Char
  chars : List Char
  rest : List Char
deriving DecidableEq, Repr

namespace ImportForm

/-- The forms in the order in which they are searched for. -/
def all : List ImportForm := [clause, effect, reexport, require, dynamic]

/-- A quote; the two kinds need not agree. -/
def isQuote (c : Char) : Bool := c == '\x27' || c == '"'

/-- Reads a quoted specifier, which is not empty and stays on its line. -/
def quoted? : List Char → Option Specifier
  | q :: l =>
    let chars := l.takeWhile fun c => !isQuote c && c != '\n'
    match l.dropWhile fun c => !isQuote c && c != '\n' with
    | q' :: rest =>
      if isQuote q && isQuote q' && !chars.isEmpty then some ⟨l, chars, rest⟩ else none
    | [] => none
  | [] => none

def skipBlanks (l : List Char) : List Char := l.dropWhile Text.isBlank

def someBlanks? : List Char → Option (List Char)
  | c :: l => if Text.isBlank c then some (skipBlanks l) else none
  | [] => none

def fromQuoted? (l : List Char) : Option Specifier := do
  let l ← Text.dropStart? "from".toList (skipBlanks l)
  quoted? (skipBlanks l)

def inClause (c : Char) : Bool :=
  Text.isWord c || Text.isBlank c || c == '$' || c == '*' || c == '\x7b' || c == '\x7d' || c == ','

/-- Reads the names and the specifier of an import: a run of characters that ends in the word `from`,
with something before it, and then the specifier. -/
def clause? (l : List Char) : Option Specifier :=
  let names := Text.dropEndWhile Text.isBlank (l.takeWhile inClause)
  if "from".toList.isSuffixOf names && 4 < names.length then quoted? (l.dropWhile inClause) else none

def inName (c : Char) : Bool := Text.isWord c || c == '$'

/-- Reads the new name of a re-exported module and the specifier. The word `from` may be the end of the
name itself, if something comes before it. -/
def renamed? (l : List Char) : Option Specifier := do
  let l ← Text.dropStart? "as".toList (← someBlanks? l)
  let l ← someBlanks? l
  let name := l.takeWhile inName
  let rest := l.dropWhile inName
  if name.isEmpty then none
  else match fromQuoted? rest with
    | some s => some s
    | none =>
      if "from".toList.isSuffixOf name && 4 < name.length then quoted? (skipBlanks rest) else none

/-- Reads what is re-exported, everything or a list in braces, and the specifier. -/
def reexport? (l : List Char) : Option Specifier :=
  match afterType (skipBlanks l) with
  | '*' :: l =>
    match renamed? l with
    | some s => some s
    | none => fromQuoted? l
  | '\x7b' :: l =>
    match l.dropWhile (· != '\x7d') with
    | _ :: rest => fromQuoted? rest
    | [] => none
  | _ => none
where
  /-- What follows the word `type` and blanks, if they are there. -/
  afterType (l : List Char) : List Char :=
    ((Text.dropStart? "type".toList l).bind someBlanks?).getD l

def parenthesized? (l : List Char) : Option Specifier :=
  match skipBlanks l with
  | '(' :: l => do
    let s ← quoted? (skipBlanks l)
    match skipBlanks s.rest with
    | ')' :: rest => some { s with rest }
    | _ => none
  | _ => none

def word : ImportForm → String
  | clause | effect | dynamic => "import"
  | reexport => "export"
  | require => "require"

def readAfter? : ImportForm → List Char → Option Specifier
  | clause => clause?
  | effect => fun l => quoted? (skipBlanks l)
  | reexport => reexport?
  | require | dynamic => parenthesized?

def read? (form : ImportForm) (l : List Char) : Option Specifier := do
  form.readAfter? (← Text.dropStart? form.word.toList l)

end ImportForm

end SourceSurvey
