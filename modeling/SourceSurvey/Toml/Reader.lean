import SourceSurvey.Toml.Scalar
import SourceSurvey.Toml.Table

/-!
# Reading TOML

A reader of TOML documents with LF as the line end. It gives the table of a document that is well formed
and nothing for any other. Readers take the characters ahead and return what is left of them; where
values nest, a bound on the depth, taken from the length of the document, comes first.
-/

namespace SourceSurvey.Toml

def isControl (c : Char) : Bool :=
  (c.toNat < 0x20 && c != '\t') || c.toNat == 0x7F

def isSpace (c : Char) : Bool := c == ' ' || c == '\t'

def skipSpaces (l : List Char) : List Char := l.dropWhile isSpace

/-- What follows blanks, line ends and comments; none if a comment holds a control character. -/
def skipVoid (inComment : Bool) : List Char → Option (List Char)
  | [] => some []
  | c :: rest =>
    if c = '\n' then skipVoid false rest
    else if inComment then if isControl c then none else skipVoid true rest
    else if isSpace c then skipVoid false rest
    else if c = '#' then skipVoid true rest
    else some (c :: rest)

/-! ## Texts -/

/-- The character that an escape of one letter means. -/
def escaped? : Char → Option Char
  | 'b' => some '\x08'
  | 't' => some '\t'
  | 'n' => some '\n'
  | 'f' => some '\x0c'
  | 'r' => some '\r'
  | '"' => some '"'
  | '\\' => some '\\'
  | _ => none

/-- The character whose code point is written in hexadecimal. -/
def codePoint? (ds : List Char) : Option Char :=
  if ds.all isHexDigit && (number 16 ds).isValidChar then some (Char.ofNat (number 16 ds)) else none

def consText (c : Option Char) (r : Option (List Char × List Char)) : Option (List Char × List Char) := do
  let r ← r
  return ((← c) :: r.1, r.2)

/-- Reads a text in double quotes, from behind the opening quote. -/
def readBasic : List Char → Option (List Char × List Char)
  | [] => none
  | '"' :: rest => some ([], rest)
  | '\\' :: 'u' :: a :: b :: c :: d :: rest => consText (codePoint? [a, b, c, d]) (readBasic rest)
  | '\\' :: 'U' :: a :: b :: c :: d :: e :: f :: g :: h :: rest =>
    consText (codePoint? [a, b, c, d, e, f, g, h]) (readBasic rest)
  | '\\' :: c :: rest => consText (escaped? c) (readBasic rest)
  | c :: rest => if isControl c then none else consText (some c) (readBasic rest)

/-- The end of a text over several lines: three quotes in a row. One or two more that follow them
directly are the last characters of the text, a third more is not. -/
def closing? (quote : Char) (l : List Char) : Option (List Char × List Char) :=
  let run := (l.take 5).takeWhile (· == quote)
  if 3 ≤ run.length then some (run.drop 3, l.drop run.length) else none

/-- Reads a text in three double quotes, from behind the opening quotes. While `joining`, blanks and line
ends are left out, as a backslash at the end of a line asks for. -/
def readLongBasic (joining : Bool) : List Char → Option (List Char × List Char)
  | [] => none
  | c :: rest =>
    if joining && (isSpace c || c = '\n') then readLongBasic true rest
    else if c = '"' then
      match closing? '"' (c :: rest) with
      | some r => some r
      | none => consText (some c) (readLongBasic false rest)
    else if c = '\\' then
      if (skipSpaces rest).head? = some '\n' then readLongBasic true rest
      else match rest with
        | 'u' :: a :: b :: c :: d :: rest => consText (codePoint? [a, b, c, d]) (readLongBasic false rest)
        | 'U' :: a :: b :: c :: d :: e :: f :: g :: h :: rest =>
          consText (codePoint? [a, b, c, d, e, f, g, h]) (readLongBasic false rest)
        | c :: rest => consText (escaped? c) (readLongBasic false rest)
        | [] => none
    else if isControl c && c != '\n' then none
    else consText (some c) (readLongBasic false rest)

/-- Reads a text in single quotes, from behind the opening quote. -/
def readLiteral (l : List Char) : Option (List Char × List Char) :=
  let body := l.takeWhile (· != '\x27')
  match l.dropWhile (· != '\x27') with
  | _ :: rest => if body.any isControl then none else some (body, rest)
  | [] => none

/-- Reads a text in three single quotes, from behind the opening quotes. -/
def readLongLiteral : List Char → Option (List Char × List Char)
  | [] => none
  | c :: rest =>
    if c = '\x27' then
      match closing? '\x27' (c :: rest) with
      | some r => some r
      | none => consText (some c) (readLongLiteral rest)
    else if isControl c && c != '\n' then none
    else consText (some c) (readLongLiteral rest)

/-- A line end directly behind the opening quotes does not count. -/
def dropLineEnd : List Char → List Char
  | '\n' :: rest => rest
  | l => l

/-! ## Keys -/

def isBare (c : Char) : Bool := c.isAlphanum || c == '_' || c == '-'

def readKeyPart : List Char → Option (List Char × List Char)
  | '"' :: rest => readBasic rest
  | '\x27' :: rest => readLiteral rest
  | l =>
    let name := l.takeWhile isBare
    if name.isEmpty then none else some (name, l.dropWhile isBare)

/-- Reads a key: parts with dots between them, with a bound on their number. -/
def readKey : Nat → List Char → Option (List String × List Char)
  | 0, _ => none
  | n + 1, l => do
    let (name, rest) ← readKeyPart (skipSpaces l)
    match skipSpaces rest with
    | '.' :: rest =>
      let (names, rest) ← readKey n rest
      return (String.ofList name :: names, rest)
    | rest => return ([String.ofList name], rest)

/-! ## Values -/

def inWord (c : Char) : Bool :=
  !(isSpace c || c == '\n' || c == ',' || c == ']' || c == '\x7d' || c == '#')

/-- Reads a word, or two that are a date and a time. -/
def readWord (l : List Char) : Option (Value × List Char) :=
  let word := l.takeWhile inWord
  let rest := l.dropWhile inWord
  let both := moment? (word ++ ' ' :: (rest.drop 1).takeWhile inWord)
  if rest.head? = some ' ' && both.isSome then
    both.map fun m => (.moment m, (rest.drop 1).dropWhile inWord)
  else (scalar? word).map fun v => (v, rest)

def textValue (r : Option (List Char × List Char)) : Option (Value × List Char) :=
  r.map fun r => (.text (String.ofList r.1), r.2)

mutual

def readValue : Nat → List Char → Option (Value × List Char)
  | 0, _ => none
  | n + 1, l =>
    match l with
    | '"' :: '"' :: '"' :: rest => textValue (readLongBasic false (dropLineEnd rest))
    | '"' :: rest => textValue (readBasic rest)
    | '\x27' :: '\x27' :: '\x27' :: rest => textValue (readLongLiteral (dropLineEnd rest))
    | '\x27' :: rest => textValue (readLiteral rest)
    | '[' :: rest => (readItems n rest).map fun r => (.list r.1, r.2)
    | '\x7b' :: rest =>
      match skipSpaces rest with
      | '\x7d' :: rest => some (.table [], rest)
      | rest => (readEntries n [] rest).map fun r => (.table (finish r.1), r.2)
    | l => readWord l

/-- Reads the items of a list, from behind its opening bracket or a comma. -/
def readItems : Nat → List Char → Option (List Value × List Char)
  | 0, _ => none
  | n + 1, l => do
    match ← skipVoid false l with
    | ']' :: rest => return ([], rest)
    | l =>
      let (v, rest) ← readValue n l
      match ← skipVoid false rest with
      | ',' :: rest =>
        let (vs, rest) ← readItems n rest
        return (v :: vs, rest)
      | ']' :: rest => return ([v], rest)
      | _ => none

/-- Reads the entries of a table that stands in one line, from behind its opening brace or a comma. -/
def readEntries : Nat → Entries → List Char → Option (Entries × List Char)
  | 0, _, _ => none
  | n + 1, es, l => do
    let (key, rest) ← readKey l.length l
    match rest with
    | '=' :: rest =>
      let (v, rest) ← readValue n (skipSpaces rest)
      let es ← es.assign v key
      match skipSpaces rest with
      | ',' :: rest => readEntries n es rest
      | '\x7d' :: rest => return (es, rest)
      | _ => none
    | _ => none

end

/-! ## Documents -/

def atLineEnd (l : List Char) : Bool :=
  match skipSpaces l with
  | [] => true
  | c :: _ => c == '\n' || c == '#'

/-- Changes the document at the end of the names of a header: at the last name, in the table that the
others lead to. -/
def atHeader (change : String → Entries → Option Entries) (key : List String) (root : Entries) :
    Option Entries := do
  root.within (change (← key.getLast?)) key.dropLast

/-- Reads statements one after the other, where `here` are the names of the table that is open. -/
def readStatements : Nat → List String → Entries → List Char → Option Entries
  | 0, _, _, _ => none
  | n + 1, here, root, l => do
    match ← skipVoid false l with
    | [] => return root
    | '[' :: '[' :: rest =>
      let (key, rest) ← readKey rest.length rest
      match rest with
      | ']' :: ']' :: rest =>
        let root ← atHeader Entries.appendTable key root
        if atLineEnd rest then readStatements n key root rest else none
      | _ => none
    | '[' :: rest =>
      let (key, rest) ← readKey rest.length rest
      match rest with
      | ']' :: rest =>
        let root ← atHeader Entries.openTable key root
        if atLineEnd rest then readStatements n key root rest else none
      | _ => none
    | l =>
      let (key, rest) ← readKey l.length l
      match rest with
      | '=' :: rest =>
        let (v, rest) ← readValue rest.length (skipSpaces rest)
        let root ← root.within (Entries.assign v key) here
        if atLineEnd rest then readStatements n here root rest else none
      | _ => none

/-- The entries of a document; none if it is not well formed. -/
def parse? (text : String) : Option (List (String × Value)) :=
  let l := text.toList
  (readStatements (l.length + 1) [] [] l).map finish

end SourceSurvey.Toml
