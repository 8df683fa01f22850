import SourceSurvey.Text.Lines

/-!
# Documents

Structured values with a fixed order of fields, and their written form: JSON with two spaces of
indentation for each level. Characters beyond ASCII are written as themselves or, on request, by
their UTF-16 code units.
-/

namespace SourceSurvey

inductive Document where
  | null
  | boolean (b : Bool)
  | number (n : Int)
  | text (s : String)
  | list (items : List Document)
  | object (fields : List (String × Document))

/-- Which characters a written text may contain. -/
inductive Charset where
  | unicode
  | ascii
deriving DecidableEq, Repr

namespace Document

def escapeUnit (n : Nat) : List Char :=
  let digits := Nat.toDigits 16 n
  ['\\', 'u'] ++ List.replicate (4 - digits.length) '0' ++ digits

/-- The escapes of a character: two code units beyond U+FFFF, otherwise one. -/
def escapeChar (c : Char) : List Char :=
  let n := c.toNat
  if n < 0x10000 then escapeUnit n
  else escapeUnit (0xD800 + (n - 0x10000) / 0x400) ++ escapeUnit (0xDC00 + (n - 0x10000) % 0x400)

/-- The written form of one character of a text. Quotes, backslashes and controls are always escaped. -/
def writeChar (charset : Charset) (c : Char) : List Char :=
  if c = '"' then ['\\', '"']
  else if c = '\\' then ['\\', '\\']
  else if c = '\n' then ['\\', 'n']
  else if c = '\r' then ['\\', 'r']
  else if c = '\t' then ['\\', 't']
  else if c = '\x08' then ['\\', 'b']
  else if c = '\x0c' then ['\\', 'f']
  else if c.toNat < 0x20 then escapeChar c
  else if charset = .ascii ∧ 0x7F ≤ c.toNat then escapeChar c
  else [c]

def writeText (charset : Charset) (s : String) : String :=
  "\"" ++ String.ofList (s.toList.flatMap (writeChar charset)) ++ "\""

/-- Items between brackets, each on a line of its own one level further in. -/
def bracket (opening closing : String) (level : Nat) : List String → String
  | [] => opening ++ closing
  | items =>
    opening ++ "\n" ++ Text.indent (level + 1)
      ++ Text.join (",\n" ++ Text.indent (level + 1)) items
      ++ "\n" ++ Text.indent level ++ closing

mutual

/-- The written form of a value that starts at the given level. -/
def write (charset : Charset) (level : Nat) : Document → String
  | null => "null"
  | boolean true => "true"
  | boolean false => "false"
  | number n => toString n
  | text s => writeText charset s
  | list items => bracket "[" "]" level (writeItems charset (level + 1) items)
  | object fields => bracket "\x7b" "\x7d" level (writeFields charset (level + 1) fields)

def writeItems (charset : Charset) (level : Nat) : List Document → List String
  | [] => []
  | d :: rest => write charset level d :: writeItems charset level rest

def writeFields (charset : Charset) (level : Nat) : List (String × Document) → List String
  | [] => []
  | (key, d) :: rest =>
    (writeText charset key ++ ": " ++ write charset level d) :: writeFields charset level rest

end

def render (charset : Charset) (d : Document) : String :=
  write charset 0 d

def ofText? : Option String → Document
  | some s => text s
  | none => null

end Document

end SourceSurvey
