import SourceSurvey.Cli.Run
import SourceSurvey.Toml.Reader

/-!
# The program

The command line over the real file system. A snapshot of the files that a command can come to see is
taken first, by following the imports of its source file; then the command runs on the snapshot. The
settings file is read as TOML. No grammar is built in, so the commands that need one say so.
-/

namespace SourceSurvey.Program

/-- Takes the directories on the way to a place, and a file at the place itself, into the snapshot. -/
def capture (disk : Disk) (names : List String) : IO Disk := do
  let mut disk := disk
  for n in List.range (names.length + 1) do
    let here := names.take n
    if ← (System.mkFilePath [Location.text { names := here }]).isDir then disk := disk.addDirectory here
  try
    let bytes ← IO.FS.readBinFile (Location.text { names })
    return disk.write names bytes.toList
  catch _ => return disk

def placesOf (cwd : Location) (path : String) : List (List String) :=
  let start := if Path.isAbsolute path then [] else cwd.names
  ((Path.segments path).foldl (fun ps s => Location.follow (ps.headD start) s :: ps) [start]).reverse

/-- Takes every place that a specifier may mean into the snapshot. -/
def captureSpecifier (w : Workspace) (fromDir base specifier : String) : IO Workspace := do
  let r : Resolver := { workspace := w }
  let candidates := r.complete (Resolver.here fromDir) "index"
    ++ (Resolver.roots fromDir base).flatMap (r.candidates specifier)
  let mut disk := w.disk
  for names in placesOf w.cwd specifier ++ candidates.map Location.names do
    disk ← capture disk names
  return { w with disk }

/-- Follows imports from the pending files on, as far as they have not been followed. -/
partial def follow (w : Workspace) (base : String) (done : List Location) :
    List Location → IO Workspace
  | [] => return w
  | l :: pending => do
    if done.contains l then follow w base done pending
    else
      let w := { w with disk := ← capture w.disk l.names }
      match w.disk.read l.names with
      | .error _ => follow w base (l :: done) pending
      | .ok bytes =>
        let fromDir := l.parent.text
        let found := specifiers (textDropping bytes)
        let w ← found.foldlM (fun w s => captureSpecifier w fromDir base s) w
        let r : Resolver := { workspace := w }
        follow w base (l :: done) (found.filterMap (r.resolve? fromDir base) ++ pending)

def snapshot (w : Workspace) (settings : Settings) (command : Cli.Command) : IO Workspace := do
  let base := match command.job with
    | .deps base .. | .imports base | .scan base _ => base.getD settings.base.display
    | .tree _ => ""
  let mut disk := w.disk
  for names in placesOf w.cwd command.source ++ placesOf w.cwd base do
    disk ← capture disk names
  follow { w with disk } base [] [w.locate command.source]

def settingsHome : IO String := do
  match ← IO.getEnv "TSGRAPH_HOME" with
  | some dir => return dir
  | none => return Path.join ((← IO.getEnv "HOME").getD "") ".tsgraph"

def readFile? (path : String) : IO (Option Bytes) := do
  try
    let bytes ← IO.FS.readBinFile path
    return some bytes.toList
  catch _ => return none

/-- The environment of the program, with a snapshot for the command it is to run. -/
def environment (args : List String) : IO Cli.Environment := do
  let cwd : Location := { names := Path.names (← IO.currentDir).toString }
  let settingsPath := Path.join (← settingsHome) "config.toml"
  let settingsFile ← readFile? settingsPath
  let settings : Logged (Except SettingsError Settings) := (Settings.load Toml.parse? settingsPath settingsFile).run
  let empty : Workspace := ⟨Disk.addDirectory {} cwd.names, cwd⟩
  let workspace ← match Cli.readRequest args, settings.value with
    | some (.run command), .ok settings => snapshot empty settings command
    | _, _ => pure empty
  return { workspace, settingsPath, settingsFile, readDocument := Toml.parse?
           logLevel := ← IO.getEnv "TSGRAPH_LOG_LEVEL"
           grammars := { loaded := [], read := fun _ _ => default } }

def run (args : List String) : IO UInt32 := do
  match Cli.run (← environment args) args with
  | .ok outcome =>
    for record in outcome.log do
      IO.eprintln (record.render id)
    IO.print outcome.output
    return outcome.exitCode.toUInt32
  | .error (.settings .notText) =>
    IO.eprintln "the settings file is not valid UTF-8"
    return 1
  | .error (.settings .notSection) =>
    IO.eprintln "the settings file has no section of settings"
    return 1
  | .error (.walk _) =>
    IO.eprintln "a nested pattern has nothing around it"
    return 1

end SourceSurvey.Program

def main (args : List String) : IO UInt32 :=
  SourceSurvey.Program.run args
