import SourceSurvey.Text.Printable

/-!
# Texts in quotes

A text as it is shown among other values: in quotes, with everything escaped that could not be seen or
would end it.
-/

namespace SourceSurvey.Text

/-- A number in hexadecimal, filled up with zeros to a number of digits. -/
def hex (width n : Nat) : List Char :=
  let digits := Nat.toDigits 16 n
  List.replicate (width - digits.length) '0' ++ digits

def quoteChar (quote : Char) (c : Char) : List Char :=
  if c = quote || c = '\\' then ['\\', c]
  else if c = '\n' then ['\\', 'n']
  else if c = '\r' then ['\\', 'r']
  else if c = '\t' then ['\\', 't']
  else if isPrintable c then [c]
  else if c.toNat < 0x100 then '\\' :: 'x' :: hex 2 c.toNat
  else if c.toNat < 0x10000 then '\\' :: 'u' :: hex 4 c.toNat
  else '\\' :: 'U' :: hex 8 c.toNat

/-- A text in quotes: single ones, unless only these occur in it. -/
def quote (s : String) : String :=
  let q := if s.toList.contains '\x27' && !s.toList.contains '"' then '"' else '\x27'
  String.ofList (q :: s.toList.flatMap (quoteChar q) ++ [q])

end SourceSurvey.Text
