import SourceSurvey.Text.Lines

/-!
# Days and times

Days of the calendar from the year 1 on, times of day to the microsecond, and moments made of them. A day
exists only within its month, and a minute has sixty seconds.
-/

namespace SourceSurvey

structure Day where
  year : Nat
  month : Nat
  day : Nat
deriving DecidableEq, Repr

structure ClockTime where
  hour : Nat
  minute : Nat
  second : Nat
  microsecond : Nat := 0
deriving DecidableEq, Repr

def isLeapYear (year : Nat) : Bool :=
  year % 4 == 0 && (year % 100 != 0 || year % 400 == 0)

def daysOfMonth (year month : Nat) : Nat :=
  if month = 2 then if isLeapYear year then 29 else 28
  else if month = 4 || month = 6 || month = 9 || month = 11 then 30
  else 31

def zeroFilled (width n : Nat) : String :=
  Text.fill (width - (toString n).length) '0' ++ toString n

namespace Day

def exists? (d : Day) : Bool :=
  1 ≤ d.year && d.year ≤ 9999 && 1 ≤ d.month && d.month ≤ 12 && 1 ≤ d.day
    && d.day ≤ daysOfMonth d.year d.month

def render (d : Day) : String :=
  zeroFilled 4 d.year ++ "-" ++ zeroFilled 2 d.month ++ "-" ++ zeroFilled 2 d.day

end Day

namespace ClockTime

def exists? (t : ClockTime) : Bool :=
  t.hour ≤ 23 && t.minute ≤ 59 && t.second ≤ 59

/-- The written form of a time, with six places behind the point or none. -/
def render (t : ClockTime) : String :=
  zeroFilled 2 t.hour ++ ":" ++ zeroFilled 2 t.minute ++ ":" ++ zeroFilled 2 t.second
    ++ (if t.microsecond = 0 then "" else "." ++ zeroFilled 6 t.microsecond)

end ClockTime

/-- A day, a time, or both, with or without the distance from universal time in minutes. -/
inductive Moment where
  | day (d : Day)
  | time (t : ClockTime)
  | both (d : Day) (t : ClockTime) (offset : Option Int := none)
deriving DecidableEq, Repr

namespace Moment

def renderOffset (minutes : Int) : String :=
  (if minutes < 0 then "-" else "+") ++ zeroFilled 2 (minutes.natAbs / 60) ++ ":"
    ++ zeroFilled 2 (minutes.natAbs % 60)

def render : Moment → String
  | day d => d.render
  | time t => t.render
  | both d t offset => d.render ++ " " ++ t.render ++ (offset.map renderOffset).getD ""

end Moment

end SourceSurvey
