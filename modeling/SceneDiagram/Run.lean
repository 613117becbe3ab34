import SceneDiagram.Arguments
import SceneDiagram.Files
import SceneDiagram.Report
import SceneDiagram.Toml.Reading

/-!
# Runs

A run reads its configuration, the manifest of declarations and the scenes of a project directory,
and writes the diagrams beside the files that they show. Everything is read before anything is
written, so a run that cannot read what it needs, and a dry run, leave the files alone.
-/

namespace SceneDiagram

open Text

/-- Why a run fails. -/
inductive RunError where
  | file (e : FileError)
  | missingConfig (path : String)
  | malformedConfig (path : String)
  | malformedManifest (path : String)
deriving Repr, DecidableEq

/-- The problem that a failed run is. -/
def RunError.problem : RunError → Problem
  | file e => .io e.render
  | missingConfig path => .config ("Missing configuration file: " ++ path)
  | malformedConfig path =>
    .config ("Failed to parse TOML configuration " ++ path ++ ": invalid document")
  | malformedManifest path => .config (path ++ ": invalid document")

/-- Where a run finds what it is not told. -/
structure Surroundings where
  workspace : Workspace
  /-- The configuration file of the platform. -/
  systemConfig : Option String
deriving Repr

namespace Run

/-- The text of the file at a path. -/
def readText (w : Workspace) (path : String) : Except RunError String :=
  (w.readText path).mapError .file

/-! ## Configuration and manifest -/

/-- The configuration file of the current directory. -/
def localConfig : String := "canopy/config.toml"

/-- The configuration of a file. -/
def readConfig (w : Workspace) (path : String) : Except RunError Config := do
  if w.has path then
    let text ← readText w path
    match (Toml.read? text).bind (Config.ofDocument? .lenient) with
    | some config => .ok config
    | none => .error (.malformedConfig path)
  else .error (.missingConfig path)

/-- The configuration of a run: the one that it is told, that of the current directory, that of the
platform, or else the standard one. -/
def loadConfig (s : Surroundings) : Option String → Except RunError Config
  | some path => readConfig s.workspace path
  | none =>
    if s.workspace.has localConfig then readConfig s.workspace localConfig
    else
      match s.systemConfig.filter s.workspace.has with
      | some path => readConfig s.workspace path
      | none => .ok .standard

/-- The declarations of a document. -/
def manifest? (d : Document) : Option (List Declaration) := do
  let fs ← d.fields? .lenient ["declaration"]
  Document.fieldD? fs "declaration" (Document.listOf? (Declaration.ofDocument? .lenient)) []

/-- The declarations of a manifest file. -/
def loadManifest (w : Workspace) : Option String → Except RunError (List Declaration)
  | none => .ok []
  | some path => do
    let text ← readText w path
    match (Toml.read? text).bind manifest? with
    | some declarations => .ok declarations
    | none => .error (.malformedManifest path)

/-! ## Scenes -/

/-- Whether a file of a given name is a scene. -/
def isSceneName (name : FileName) : Bool := name.extension?.bind (·.text?) == some "tscn"

/-- Whether a place is not behind another: the first names that differ decide. -/
def placeLe : FileTree.Place → FileTree.Place → Bool
  | [], _ => true
  | _ :: _, [] => false
  | a :: as, b :: bs => if a = b then placeLe as bs else a.le b

/-- The scene files below a directory in the order of their places. The name of the directory itself
is given for the case that it is a file. -/
def sceneFiles (name : FileName) (t : FileTree) : List (FileTree.Place × FileTree) :=
  ((t.visibleFiles []).filter fun (place, _) => isSceneName (place.getLast?.getD name)).mergeSort
    fun a b => placeLe a.1 b.1

/-- The path of a place from the directory that it is in, as a text. -/
def relativePath (place : FileTree.Place) : String := "/".intercalate (place.map (·.shown))

/-- The scenes below a directory. -/
def discover (name : FileName) (t : FileTree) : Except RunError (List SceneFile) :=
  (sceneFiles name t).mapM fun (place, file) =>
    (file.text.mapError .file).map fun text => ⟨relativePath place, text⟩

/-! ## The run -/

/-- The path of a place from the root, as a text. Backslashes are written as slashes. -/
def absolutePath (place : FileTree.Place) : String :=
  String.ofList ((lossy (FileTree.pathOf place)).toList.map fun c => if c = '\\' then '/' else c)

/-- What a run has read and drawn. -/
structure Plan where
  /-- The project directory. -/
  root : FileTree.Place
  generation : Generation
  warnings : List Warning
deriving Repr

/-- Reads all that a run needs and draws its diagrams. -/
def plan (s : Surroundings) (args : Arguments) : Except RunError Plan := do
  let config ← loadConfig s args.config
  let declarations ← loadManifest s.workspace args.declarations
  let root ← (s.workspace.locate args.projectDir).mapError .file
  match s.workspace.files.get? root with
  | none => .error (.file .notFound)
  | some t =>
    let scenes ← discover (root.getLast?.getD "") t
    let (generation, warnings) :=
      Project.generate config ⟨absolutePath root, scenes, declarations⟩
    .ok ⟨root, generation, warnings⟩

/-- The names in the path that a diagram is written to, from the root. -/
def target (root : FileTree.Place) (o : DiagramOutput) : List FileName :=
  match o.path.toList with
  | '/' :: _ => (FileName.ofPath o.path).drop 1
  | _ => root ++ FileName.ofPath o.path

/-- Writes a diagram, with the directories that it needs. -/
def writeOutput (root : FileTree.Place) (t : FileTree) (o : DiagramOutput) :
    Except FileError Unit × FileTree :=
  let names := target root o
  match FileTree.ensureDirs names.dropLast.reverse t with
  | (.error e, t) => (.error e, t)
  | (.ok _, t) =>
    match t.write names (.text o.contents) with
    | .ok t => (.ok (), t)
    | .error e => (.error e, t)

/-- Writes diagrams in their order, up to the first that cannot be written. -/
def writeOutputs (root : FileTree.Place) : FileTree → List DiagramOutput →
    Except FileError Unit × FileTree
  | t, [] => (.ok (), t)
  | t, o :: os =>
    match writeOutput root t o with
    | (.ok _, t) => writeOutputs root t os
    | (.error e, t) => (.error e, t)

/-- What a run leads to: its result, and the files that it leaves. -/
structure Outcome where
  result : Except RunError Plan
  files : FileTree

end Run

/-- Runs the program. -/
def run (s : Surroundings) (args : Arguments) : Run.Outcome :=
  match Run.plan s args with
  | .error e => ⟨.error e, s.workspace.files⟩
  | .ok plan =>
    if args.dryRun then ⟨.ok plan, s.workspace.files⟩
    else
      match Run.writeOutputs plan.root s.workspace.files plan.generation.outputs with
      | (.ok _, files) => ⟨.ok plan, files⟩
      | (.error e, files) => ⟨.error (.file e), files⟩

end SceneDiagram
