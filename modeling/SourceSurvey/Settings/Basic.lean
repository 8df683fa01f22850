import SourceSurvey.Disk
import SourceSurvey.Log
import SourceSurvey.Settings.Value

/-!
# Settings

The program takes a base directory, a title and a log level from the section `tsgraph` of a settings
file. What the section does not set keeps its default. A file that is not well formed is reported and
ignored; a file that is no text, or whose `tsgraph` cannot be taken as a section, is an error. Which texts
are well formed and what they say is not decided here: the reader of documents is handed in.
-/

namespace SourceSurvey

/-- The settings, of whatever type the file gives them. -/
structure Settings where
  base : Value := .text ""
  title : Value := .text "Typescript project"
  logLevel : Value := .text "WARNING"
deriving Repr, Inhabited

inductive SettingsError where
  /-- The file is not valid UTF-8. -/
  | notText
  /-- The section is not a table and cannot be asked for a key. -/
  | notSection
deriving DecidableEq, Repr

namespace Settings

def sectionName : String := "tsgraph"

def keys : List String := ["base", "title", "log_level"]

/-- The settings of a section. A text or a list that holds none of the keys sets nothing. -/
def ofSection : Value → Except SettingsError Settings
  | .table entries =>
    .ok { base := (entries.lookup "base").getD (.text "")
          title := (entries.lookup "title").getD (.text "Typescript project")
          logLevel := (entries.lookup "log_level").getD (.text "WARNING") }
  | .text s => if keys.any fun k => Text.contains k s then .error .notSection else .ok {}
  | .list items =>
    if items.any fun v => match v with
        | .text s => keys.contains s
        | _ => false
    then .error .notSection else .ok {}
  | _ => .error .notSection

def load (read : DocumentReader) (path : String) (file : Option Bytes) : ExceptT SettingsError Logged Settings :=
  match file with
  | none => return {}
  | some bytes =>
    match textOf bytes with
    | .error _ => throw .notText
    | .ok text =>
      match read text with
      | none => do
        ExceptT.lift (Logged.report
          { level := .warning, origin := .settings, message := "Ignoring config file " ++ path
            cause := some "not well formed" })
        return {}
      | some entries =>
        match entries.lookup sectionName with
        | none => return {}
        | some v => liftExcept (ofSection v)
where
  /-- A result that needs no report. -/
  liftExcept (r : Except SettingsError Settings) : ExceptT SettingsError Logged Settings :=
    match r with
    | .ok s => pure s
    | .error e => throw e

/-- The log level that the environment asks for, if it is set and not empty. -/
def environmentLevel? (fromEnv : Option String) : Option String :=
  match fromEnv with
  | some s => if s = "" then none else some (Text.upper s)
  | none => none

def levelName (v : Value) : String :=
  Text.upper v.display

/-- The log level: as the environment says, or else as the settings do. -/
def level (fromEnv : Option String) (s : Settings) : String :=
  (environmentLevel? fromEnv).getD (levelName s.logLevel)

/-- The log level when no settings are at hand: the file is read for it, unless the environment says. -/
def askLevel (fromEnv : Option String) (read : DocumentReader) (path : String) (file : Option Bytes) :
    ExceptT SettingsError Logged String :=
  match environmentLevel? fromEnv with
  | some level => return level
  | none => do return levelName (← load read path file).logLevel

end Settings

end SourceSurvey
