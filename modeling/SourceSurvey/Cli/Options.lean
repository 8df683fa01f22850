import SourceSurvey.Text.Lines

/-!
# Command-line options

Arguments are taken apart into options and operands. An option has a long name, as in `--mode`, and may
have a letter, as in `-m`; it takes a value or it is a switch. A value follows as the next argument,
behind an equals sign after a long name, or directly behind a letter. Letters of switches can be run
together. Two dashes alone end the options.
-/

namespace SourceSurvey.Cli

structure OptionSpec where
  name : String
  letter : Option Char := none
  takesValue : Bool := true
deriving DecidableEq, Repr

/-- Options in the order given, each with its value, and operands. A switch has an empty value. -/
structure Arguments where
  options : List (String × String) := []
  operands : List String := []
deriving DecidableEq, Repr

namespace Arguments

def consOption (name value : String) (a : Arguments) : Arguments :=
  { a with options := (name, value) :: a.options }

def consOperand (operand : String) (a : Arguments) : Arguments :=
  { a with operands := operand :: a.operands }

/-- The value of an option: of several the last. -/
def value? (a : Arguments) (name : String) : Option String :=
  a.options.reverse.lookup name

def has (a : Arguments) (name : String) : Bool :=
  (a.value? name).isSome

end Arguments

/-- What one argument with a dash leads to: options, and possibly one that takes the next argument as
its value. -/
structure Parsed where
  options : List (String × String) := []
  pending : Option String := none

/-- Takes a long option apart at its equals sign. -/
def splitValue (arg : List Char) : String × Option String :=
  match arg.dropWhile (· != '=') with
  | _ :: value => (String.ofList (arg.takeWhile (· != '=')), some (String.ofList value))
  | [] => (String.ofList arg, none)

/-- Reads letters that are run together; none if one is not known. A letter whose option takes a value
takes what is left, or else the next argument. -/
def readLetters (specs : List OptionSpec) : List Char → Option Parsed
  | [] => some {}
  | c :: rest =>
    match specs.find? fun s => s.letter == some c with
    | none => none
    | some s =>
      if s.takesValue then
        if rest.isEmpty then some { pending := some s.name }
        else some { options := [(s.name, String.ofList rest)] }
      else (readLetters specs rest).map fun p => { p with options := (s.name, "") :: p.options }

/-- Reads an argument that starts with a dash; none if it is no known option or has a value too many. -/
def readOption (specs : List OptionSpec) (arg : String) : Option Parsed :=
  let (name, value) := splitValue arg.toList
  match specs.find? fun s => ("--" ++ s.name) == name with
  | some s =>
    match s.takesValue, value with
    | true, some v => some { options := [(s.name, v)] }
    | true, none => some { pending := some s.name }
    | false, none => some { options := [(s.name, "")] }
    | false, some _ => none
  | none => if Text.startsWith "--" arg then none else readLetters specs (arg.toList.drop 1)

def looksLikeOption (arg : String) : Bool :=
  Text.startsWith "-" arg && 1 < arg.length

/-- Takes arguments apart. If `mixed`, options may follow operands; otherwise the first operand ends the
options. None if an option is not known or lacks its value. -/
def parseArguments (specs : List OptionSpec) (mixed : Bool) : List String → Option Arguments
  | [] => some {}
  | arg :: rest =>
    if arg = "--" then some { operands := rest }
    else if looksLikeOption arg then
      match readOption specs arg with
      | none => none
      | some p =>
        let add (a : Arguments) : Arguments := { a with options := p.options ++ a.options }
        match p.pending, rest with
        | none, rest => (parseArguments specs mixed rest).map add
        | some _, [] => none
        | some name, value :: rest =>
          (parseArguments specs mixed rest).map fun a => add (a.consOption name value)
    else if mixed then (parseArguments specs mixed rest).map (·.consOperand arg)
    else some { operands := arg :: rest }
termination_by args => args.length
decreasing_by
  all_goals simp_all only [List.length_cons]; omega

end SourceSurvey.Cli
