import SourceSurvey.Text.UpperCase

/-!
# Log records

What the program reports besides its result. A record has a level, the part of the program it comes
from, a message and, where something outside failed, the cause in the words of whoever failed. A
threshold decides which records are shown.
-/

namespace SourceSurvey

inductive Level where
  | debug
  | warning
  | error
deriving DecidableEq, Repr

namespace Level

def name : Level → String
  | debug => "DEBUG"
  | warning => "WARNING"
  | error => "ERROR"

/-- The rank of a level; a threshold lets a record pass whose level is not below it. -/
def rank : Level → Nat
  | debug => 10
  | warning => 30
  | error => 40

end Level

inductive Origin where
  | marking
  | parser
  | resolver
  | scanner
  | settings
  | survey
deriving DecidableEq, Repr

def Origin.name : Origin → String
  | marking => "tsgraph_cli.attention"
  | parser => "tsgraph_cli.parser"
  | resolver => "tsgraph_cli.resolver"
  | scanner => "tsgraph_cli.scanner"
  | settings => "tsgraph_cli.config"
  | survey => "tsgraph_cli.orchestrator"

/-- One report. `cause` is present where the message ends in the words of someone else. -/
structure Record where
  level : Level
  origin : Origin
  message : String
  cause : Option String := none
deriving DecidableEq, Repr

namespace Record

/-- A report for those who follow every step. -/
def debug (origin : Origin) (message : String) : Record :=
  { level := .debug, origin, message }

def unreadable (origin : Origin) (path cause : String) : Record :=
  { level := .error, origin, message := "Could not read " ++ path, cause := some cause }

def render (showCause : String → String) (r : Record) : String :=
  r.level.name ++ " " ++ r.origin.name ++ ": " ++ r.message ++
    match r.cause with
    | none => ""
    | some c => ": " ++ showCause c

def passes (threshold : Nat) (r : Record) : Bool :=
  threshold ≤ r.level.rank

end Record

def defaultThreshold : Nat := 30

/-- The threshold that a level name asks for, in capitals or not; an unknown name asks for the
default one. -/
def thresholdOf (name : String) : Nat :=
  match Text.upper name with
  | "DEBUG" => 10
  | "INFO" => 20
  | "WARN" | "WARNING" => 30
  | "ERROR" => 40
  | "CRITICAL" | "FATAL" => 50
  | "NOTSET" => 0
  | _ => defaultThreshold

/-- A value together with what was reported on the way to it. -/
@[ext] structure Logged (α : Type) where
  value : α
  log : List Record := []

namespace Logged

instance : Monad Logged where
  pure a := { value := a }
  bind x f := let y := f x.value; { value := y.value, log := x.log ++ y.log }

@[simp] theorem value_pure {α : Type} (a : α) : (pure a : Logged α).value = a := rfl

@[simp] theorem log_pure {α : Type} (a : α) : (pure a : Logged α).log = [] := rfl

@[simp] theorem value_bind {α β : Type} (x : Logged α) (f : α → Logged β) :
    (x >>= f).value = (f x.value).value := rfl

@[simp] theorem log_bind {α β : Type} (x : Logged α) (f : α → Logged β) :
    (x >>= f).log = x.log ++ (f x.value).log := rfl

instance : LawfulMonad Logged :=
  LawfulMonad.mk' Logged
    (fun x => Logged.ext rfl (List.append_nil x.log))
    (fun _ _ => Logged.ext rfl rfl)
    (fun _ _ _ => Logged.ext rfl (by simp))

def report (r : Record) : Logged Unit :=
  { value := (), log := [r] }

end Logged

end SourceSurvey
