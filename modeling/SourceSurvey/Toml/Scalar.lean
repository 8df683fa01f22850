import SourceSurvey.Settings.Value

/-!
# Plain values in TOML

Truth values, numbers and points in time, which are written without quotes. A word is taken apart as a
whole: it is a value of one of these kinds or it is nothing.
-/

namespace SourceSurvey.Toml

/-- Digits of a kind, single underlines between them allowed; none if there is no digit or an underline
has no digit on one of its sides. -/
def digits? (isDigit : Char → Bool) : List Char → Option (List Char)
  | [] => none
  | [c] => if isDigit c then some [c] else none
  | c :: '_' :: rest => if isDigit c then (digits? isDigit rest).map (c :: ·) else none
  | c :: rest => if isDigit c then (digits? isDigit rest).map (c :: ·) else none

/-- The value of a digit, of either case. -/
def digitValue (c : Char) : Nat :=
  let n := c.toNat
  if 0x61 ≤ n then n - 0x61 + 10 else if 0x41 ≤ n then n - 0x41 + 10 else n - 0x30

def number (base : Nat) (ds : List Char) : Nat :=
  ds.foldl (fun n d => n * base + digitValue d) 0

def isHexDigit (c : Char) : Bool :=
  c.isDigit || ('a' ≤ c && c ≤ 'f') || ('A' ≤ c && c ≤ 'F')

def splitSign : List Char → Bool × List Char
  | '-' :: rest => (true, rest)
  | '+' :: rest => (false, rest)
  | l => (false, l)

/-- A decimal number without a superfluous zero in front. -/
def decimalDigits? (l : List Char) : Option (List Char) :=
  match digits? Char.isDigit l with
  | some ds => if ds.length = 1 || ds.head? != some '0' then some ds else none
  | none => none

def integer? (word : List Char) : Option Int :=
  match word with
  | '0' :: 'x' :: ds => (digits? isHexDigit ds).map fun ds => number 16 ds
  | '0' :: 'o' :: ds => (digits? (fun c => '0' ≤ c && c ≤ '7') ds).map fun ds => number 8 ds
  | '0' :: 'b' :: ds => (digits? (fun c => c == '0' || c == '1') ds).map fun ds => number 2 ds
  | _ =>
    let (negative, l) := splitSign word
    (decimalDigits? l).map fun ds => if negative then -(number 10 ds : Int) else number 10 ds

/-- The power of ten that a word means: an `e`, a sign and digits. The empty word means none. -/
def exponent? : List Char → Option Int
  | [] => some 0
  | 'e' :: l | 'E' :: l =>
    let (negative, l) := splitSign l
    (digits? Char.isDigit l).map fun ds => if negative then -(number 10 ds : Int) else number 10 ds
  | _ => none

def inDigits (c : Char) : Bool := c.isDigit || c == '_'

/-- A number with a fraction, an exponent or both. -/
def fraction? (l : List Char) : Option Decimal := do
  let whole ← decimalDigits? (l.takeWhile inDigits)
  match l.dropWhile inDigits with
  | '.' :: l =>
    let part ← digits? Char.isDigit (l.takeWhile inDigits)
    let exponent ← exponent? (l.dropWhile inDigits)
    return ⟨number 10 (whole ++ part), exponent - part.length⟩
  | l => return ⟨number 10 whole, ← exponent? l⟩

/-- A decimal number, or one that is not finite. -/
def double? (word : List Char) : Option Double :=
  let (negative, l) := splitSign word
  if l = "inf".toList then some (.infinite negative)
  else if l = "nan".toList then some .undefined
  else (fraction? l).map (Double.ofDecimal negative)

/-- Reads a number of exactly `n` digits. -/
def field? (n : Nat) (l : List Char) : Option (Nat × List Char) :=
  let ds := l.take n
  if ds.length = n && ds.all Char.isDigit then some (number 10 ds, l.drop n) else none

def mark? (c : Char) (l : List Char) : Option (List Char) :=
  if l.head? = some c then some (l.drop 1) else none

def day? (l : List Char) : Option (Day × List Char) := do
  let (year, l) ← field? 4 l
  let (month, l) ← field? 2 (← mark? '-' l)
  let (day, l) ← field? 2 (← mark? '-' l)
  let d : Day := ⟨year, month, day⟩
  if d.exists? then some (d, l) else none

/-- Reads the part of a second behind a point, if there is one, down to the microsecond. -/
def microsecond? : List Char → Option (Nat × List Char)
  | '.' :: l =>
    let ds := l.takeWhile Char.isDigit
    if ds.isEmpty then none else some (number 10 ((ds ++ "000000".toList).take 6), l.dropWhile Char.isDigit)
  | l => some (0, l)

def time? (l : List Char) : Option (ClockTime × List Char) := do
  let (hour, l) ← field? 2 l
  let (minute, l) ← field? 2 (← mark? ':' l)
  let (second, l) ← field? 2 (← mark? ':' l)
  let (microsecond, l) ← microsecond? l
  let t : ClockTime := { hour, minute, second, microsecond }
  if t.exists? then some (t, l) else none

def minutes? (l : List Char) : Option (Nat × List Char) := do
  let (hour, l) ← field? 2 l
  let (minute, l) ← field? 2 (← mark? ':' l)
  if hour ≤ 23 && minute ≤ 59 then some (60 * hour + minute, l) else none

/-- Reads the distance of a time from universal time, if there is one. -/
def offset? (l : List Char) : Option (Option Int × List Char) :=
  match l with
  | 'Z' :: l | 'z' :: l => some (some 0, l)
  | '+' :: l => (minutes? l).map fun r => (some (r.1 : Int), r.2)
  | '-' :: l => (minutes? l).map fun r => (some (-(r.1 : Int)), r.2)
  | _ => some (none, l)

/-- The day and the time that a word means, with a `T` or a space between them. -/
def both? (d : Day) (l : List Char) : Option Moment :=
  match l with
  | c :: l => do
    let (t, l) ← time? l
    let (offset, l) ← offset? l
    if (c == 'T' || c == 't' || c == ' ') && l.isEmpty then some (.both d t offset) else none
  | [] => some (.day d)

def moment? (word : List Char) : Option Moment :=
  match time? word with
  | some (t, []) => some (.time t)
  | _ => do
    let (d, l) ← day? word
    both? d l

def scalar? (word : List Char) : Option Value :=
  if word = "true".toList then some (.boolean true)
  else if word = "false".toList then some (.boolean false)
  else match integer? word with
    | some n => some (.integer n)
    | none =>
      match double? word with
      | some x => some (.decimal x)
      | none => (moment? word).map .moment

end SourceSurvey.Toml
