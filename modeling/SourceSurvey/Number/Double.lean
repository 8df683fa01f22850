import SourceSurvey.Text.Blank

/-!
# Numbers of double precision

Decimal numbers are held with 53 binary digits. Reading takes the nearest number that can be held, the even
one of two that are equally near; what is too large becomes infinite. Writing takes the fewest decimal digits
that read back, of these the nearest. All of it is exact arithmetic on natural numbers.
-/

namespace SourceSurvey

/-- The decimal `digits * 10 ^ exponent`. -/
structure Decimal where
  digits : Nat
  exponent : Int
deriving DecidableEq, Repr

/-- The binary number `m * 2 ^ q`. -/
structure Binary where
  m : Nat
  q : Int
deriving DecidableEq, Repr

/-- The quotient of two natural numbers as a whole number, a half to the even neighbour. -/
def roundQuotient (num den : Nat) : Nat :=
  let down := num / den
  let twice := 2 * (num % den)
  if twice < den then down else if den < twice then down + 1 else down + down % 2

namespace Binary

def num (x : Binary) : Nat := x.m * Nat.pow 2 x.q.toNat

def den (x : Binary) : Nat := Nat.pow 2 (-x.q).toNat

/-- The exponent of the leading binary digit of a positive fraction. -/
def scale (num den : Nat) : Int :=
  let e : Int := num.log2 - den.log2
  if num * Nat.pow 2 (-e).toNat < den * Nat.pow 2 e.toNat then e - 1 else e

/-- The nearest number of 53 binary digits, none of which lies below the 1074th binary place. -/
def nearest (num den : Nat) : Binary :=
  let q := max (scale num den - 52) (-1074)
  let m := roundQuotient (num * Nat.pow 2 (-q).toNat) (den * Nat.pow 2 q.toNat)
  if m = Nat.pow 2 53 then ⟨Nat.pow 2 52, q + 1⟩ else ⟨m, q⟩

def overflows (x : Binary) : Bool := 971 < x.q

end Binary

namespace Decimal

def num (d : Decimal) : Nat := d.digits * Nat.pow 10 d.exponent.toNat

def den (d : Decimal) : Nat := Nat.pow 10 (-d.exponent).toNat

def readsAs (d : Decimal) (x : Binary) : Bool :=
  Binary.nearest d.num d.den == x

end Decimal

namespace Binary

def isBelow (x : Binary) (k : Int) : Bool :=
  x.num * Nat.pow 10 (-k).toNat < x.den * Nat.pow 10 k.toNat

/-- The number of decimal places before the point of a positive number; zero or less if it starts behind. -/
def places (x : Binary) : Int :=
  let k := scale x.num x.den * 30103 / 100000
  if x.isBelow k then k else if x.isBelow (k + 1) then k + 1 else k + 2

/-- The decimal with its last digit at a place that reads back, the nearer one if there are two. -/
def decimalAt? (x : Binary) (place : Int) : Option Decimal :=
  let num := x.num * Nat.pow 10 (-place).toNat
  let den := x.den * Nat.pow 10 place.toNat
  let below : Decimal := ⟨num / den, place⟩
  let above : Decimal := ⟨num / den + 1, place⟩
  if below.readsAs x then
    if above.readsAs x && below.digits != roundQuotient num den then some above else some below
  else if above.readsAs x then some above else none

/-- The decimal of the fewest digits that reads back; seventeen are enough. -/
def shortest (x : Binary) : Decimal :=
  let places := x.places
  ((List.range 17).findSome? fun (n : Nat) => x.decimalAt? (places - (n + 1 : Nat))).getD
    ⟨x.num * Nat.pow 5 (-x.q).toNat, min x.q 0⟩

end Binary

inductive Double where
  | finite (negative : Bool) (value : Binary)
  | infinite (negative : Bool)
  | undefined
deriving DecidableEq, Repr

namespace Double

/-- Reads a decimal. What is far beyond the largest or the smallest number is settled by its size alone. -/
def ofDecimal (negative : Bool) (d : Decimal) : Double :=
  let places := d.exponent + (Nat.toDigits 10 d.digits).length
  if d.digits = 0 || places < -330 then finite negative ⟨0, 0⟩
  else if 310 < places then infinite negative
  else
    let x := Binary.nearest d.num d.den
    if x.m = 0 then finite negative ⟨0, 0⟩ else if x.overflows then infinite negative else finite negative x

/-- An exponent: its sign, and two digits at least. -/
def renderExponent (e : Int) : String :=
  (if e < 0 then "e-" else "e+") ++ (if e.natAbs < 10 then "0" else "") ++ toString e.natAbs

/-- The written form of significant digits, of which `point` stand before the point. Up to sixteen digits
before it and up to four zeros behind it are written out, all else has an exponent. -/
def layOut (ds : List Char) (point : Int) : String :=
  if -4 < point ∧ point ≤ 16 then
    if point ≤ 0 then "0." ++ String.ofList (List.replicate (-point).toNat '0' ++ ds)
    else
      let whole := ds.take point.toNat
      let part := ds.drop point.toNat
      String.ofList (whole ++ List.replicate (point.toNat - whole.length) '0') ++ "."
        ++ (if part.isEmpty then "0" else String.ofList part)
  else
    String.ofList (ds.take 1) ++ (if 1 < ds.length then "." ++ String.ofList (ds.drop 1) else "")
      ++ renderExponent (point - 1)

def render : Double → String
  | undefined => "nan"
  | infinite negative => sign negative ++ "inf"
  | finite negative x =>
    sign negative ++
      if x.m = 0 then "0.0"
      else
        let d := x.shortest
        let ds := Nat.toDigits 10 d.digits
        layOut (Text.dropEndWhile (· == '0') ds) (ds.length + d.exponent)
where
  /-- The sign of a number. -/
  sign (negative : Bool) : String := if negative then "-" else ""

end Double

end SourceSurvey
