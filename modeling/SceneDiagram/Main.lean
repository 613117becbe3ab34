import SceneDiagram.Arguments
import SceneDiagram.Report
import SceneDiagram.Run

/-!
# Command line

The program at the command line: it takes the files that a run can read into a tree, makes the run
on that tree, and writes down what the run tells and what it draws. What it does is decided by
`Arguments.parse` and `Run.plan`.
-/

namespace SceneDiagram.CommandLine

open Text

/-! ## Words -/

/-- How to call the program. -/
def usage : String :=
  "Usage: canopy [OPTIONS] <PROJECT_DIR>\n\n" ++
  "Arguments:\n  <PROJECT_DIR>  Path to the project directory\n\n" ++
  "Options:\n" ++
  "  -d, --declarations <DECLARATIONS>  TOML manifest of [[declaration]] tables\n" ++
  "  -c, --config <CONFIG>              Path to configuration file (TOML)\n" ++
  "      --dry-run                      Generate diagrams without writing them\n" ++
  "      --log-level <LOG_LEVEL>        Log level (off, error, warn, info, debug, trace)\n" ++
  "  -h, --help                         Print help\n" ++
  "  -V, --version                      Print version"

/-- The name of the program and its version. -/
def version : String := "canopy 0.1.0"

/-- What is said about a command line that leads to no run. -/
def explain : UsageError → String
  | .helpRequested => usage
  | .versionRequested => version
  | .unknownArgument word => "error: unexpected argument '" ++ word ++ "'\n\n" ++ usage
  | .missingValue option => "error: a value is required for '" ++ option ++ "'\n\n" ++ usage
  | .repeated option =>
    "error: the argument '" ++ option ++ "' cannot be used multiple times\n\n" ++ usage
  | .unexpectedValue option value =>
    "error: unexpected value '" ++ value ++ "' for '" ++ option ++ "'\n\n" ++ usage
  | .missingProject => "error: <PROJECT_DIR> is required\n\n" ++ usage

/-- The log levels; each one lets the messages of its kind and of those before it through. -/
def logLevels : List String := ["off", "error", "warn", "info", "debug", "trace"]

/-- How many kinds of message a log level lets through. -/
def logDepth? (level : String) : Option Nat :=
  logLevels.idxOf? (String.ofList (level.toList.map Char.toLower))

/-- Tells a message of one of the log levels, if it is let through. -/
def tell (depth : Nat) (level message : String) : IO Unit := do
  match logLevels.idxOf? level with
  | some n => if n ≤ depth then IO.eprintln ("[" ++ level ++ "] " ++ message)
  | none => return

/-! ## The tree of files -/

/-- A tree with something put at a place, under new directories where there are none. -/
def graft (new : FileTree) : FileTree.Place → FileTree → FileTree
  | [], _ => new
  | name :: place, t =>
    let entries :=
      match t with
      | .dir entries => entries
      | .file _ => []
    .dir (Keyed.put name (graft new place ((t.child? name).getD (.dir []))) entries)

/-- The place that a path from the root names. -/
def placeOf (path : String) : FileTree.Place :=
  (FileName.ofPath path).filter (! ·.isIdle)

/-- The path from the root that has the given names in it, as the system is asked for it. -/
def pathOf (names : List FileName) : String := lossy (FileTree.pathOf names)

/-- The file at a path as a tree. -/
def readFile (path : String) : IO FileTree := do
  return .file (.ofBytes (← IO.FS.readBinFile path).toList)

/-- The directory at a path as a tree. Entries that start with a dot, links, and files that are no
scenes are left out. -/
partial def readDir (path : String) : IO FileTree := do
  let mut entries : List (FileName × FileTree) := []
  for entry in ← (← IO.FS.realPath path).readDir do
    let name : FileName := entry.fileName
    if ! name.isHidden then
      match (← entry.path.symlinkMetadata).type with
      | .dir => entries := (name, ← readDir entry.path.toString) :: entries
      | .file =>
        if Run.isSceneName name then
          entries := (name, ← readFile entry.path.toString) :: entries
      | _ => continue
  return .dir entries

/-- Takes what is at a path into a tree, with the directories that the path leads through. -/
def takeIn (w : Workspace) (path : String) : IO Workspace := do
  let (start, names) := w.start path
  let mut files := w.files
  let mut place := start
  let mut walked := pathOf start
  for name in names do
    walked := walked ++ "/" ++ name.shown
    if name = .up then place := place.dropLast
    else if ! name.isIdle then place := place ++ [name]
    try
      match (← (← IO.FS.realPath walked).metadata).type with
      | .dir => if ! files.isDirAt place then files := graft (.dir []) place files
      | _ => files := graft (← readFile walked) place files
    catch _ => break
  return { w with files }

/-- Takes the project directory into a tree. Its path is followed through links, so that it is the
same however the directory is called. -/
def takeInProject (w : Workspace) (args : Arguments) : IO (Workspace × Arguments) := do
  let real ← try pure (some (← IO.FS.realPath args.projectDir)) catch _ => pure none
  match real with
  | none => return (← takeIn w args.projectDir, args)
  | some real =>
    let path := real.toString
    let w ← takeIn w path
    match (← real.metadata).type with
    | .dir =>
      let files := graft (← readDir path) (placeOf path) w.files
      return ({ w with files }, { args with projectDir := path })
    | _ => return (w, { args with projectDir := path })

/-- The configuration file of the platform. -/
def systemConfig : IO (Option String) := do
  let home := (← IO.getEnv "HOME").map (· ++ "/.config")
  let dir := ((← IO.getEnv "XDG_CONFIG_HOME").filter (·.startsWith "/")).or home
  return dir.map (· ++ "/canopy/config.toml")

/-! ## The run -/

/-- Writes a diagram to its file. -/
def writeOutput (root : FileTree.Place) (o : DiagramOutput) : IO Unit := do
  let names := Run.target root o
  IO.FS.createDirAll (pathOf names.dropLast)
  IO.FS.writeFile (pathOf names) o.contents

/-- Makes the run that the arguments ask for. -/
def perform (args : Arguments) : IO UInt32 := do
  if (logDepth? args.logLevel).isNone then
    IO.eprintln ("Invalid log level: " ++ args.logLevel ++ ". Using 'warn' instead.")
  let tell := tell ((logDepth? args.logLevel).getD 2)
  let fail (p : Problem) : IO UInt32 := do
    for report in p.reports do tell "error" report.render
    return 1
  try
    let here := (← IO.FS.realPath (← IO.currentDir)).toString
    let system ← systemConfig
    let paths := here :: Run.localConfig :: [system, args.config, args.declarations].filterMap id
    let w ← paths.foldlM takeIn ⟨.dir [], placeOf here⟩
    let (w, args) ← takeInProject w args
    match Run.plan ⟨w, system⟩ args with
    | .error e => fail e.problem
    | .ok plan =>
      for warning in plan.warnings do tell "warn" warning.render
      for o in plan.generation.outputs do
        if args.dryRun then tell "info" ("Skipping write (dry run) path=" ++ o.path)
        else
          writeOutput plan.root o
          tell "info" ("Diagram written path=" ++ o.path)
      for failure in plan.generation.failures do
        for report in (Problem.scene failure).reports do tell "warn" report.render
      tell "info" ("Completed diagrams=" ++ toString plan.generation.outputs.length)
      return 0
  catch e => fail (.io (toString e))

end SceneDiagram.CommandLine

open SceneDiagram SceneDiagram.CommandLine in
/-- Draws the diagrams of the project that the command line names. -/
def main (words : List String) : IO UInt32 := do
  match Arguments.parse words with
  | .ok args => perform args
  | .error e =>
    match e with
    | .helpRequested | .versionRequested =>
      IO.println (explain e)
      return 0
    | _ =>
      IO.eprintln (explain e)
      return 2
