import SceneDiagram.Diagram.Drawing
import SceneDiagram.Scene.Reading
import SceneDiagram.Warning

/-!
# Diagrams of a project

A project is a set of scene files and type declarations. Its diagrams are those of the entities that
ask for one or that the configuration names. A scene that cannot be read is set aside and does not
keep the others from being drawn.
-/

namespace SceneDiagram

open Text

/-- A scene file of a project. -/
structure SceneFile where
  path : String
  text : String
deriving Repr, DecidableEq

/-- The files of a project. -/
structure Project where
  /-- The directory that absolute links start from. -/
  dir : String
  scenes : List SceneFile
  declarations : List Declaration
deriving Repr

/-- A diagram that a run has made. -/
structure DiagramOutput where
  entity : String
  /-- Where the diagram goes, seen from the project directory. -/
  path : String
  /-- How many directories the diagram lies below the project directory. -/
  depth : Nat
  contents : String
deriving Repr, DecidableEq

/-- A scene that could not be read. -/
structure SceneFailure where
  file : SceneFile
  error : ParseError
deriving Repr, DecidableEq

/-- The result of a run. -/
structure Generation where
  outputs : List DiagramOutput
  failures : List SceneFailure
deriving Repr, DecidableEq

/-- The path of an entity's diagram, beside the file of the entity. -/
def Entity.outputPath (e : Entity) : String :=
  let file := e.file.toList
  let last := file.reverse.takeWhile (· != '/')
  String.ofList (file.take (file.length - last.length)) ++ e.name ++ ".g.puml"

/-- The text of a diagram file. -/
def Block.document (b : Block) : String :=
  "@startuml\n" ++ b.render ++ "\n@enduml\n"

namespace Project

/-- A scene file as it was read. -/
def readScene (file : SceneFile) : Except ParseError Scene.Reading :=
  Scene.parse file.text file.path

/-- The scenes that can be read. -/
def trees (p : Project) : List Scene.Tree :=
  p.scenes.filterMap fun file => (readScene file).toOption.map (·.tree)

/-- The failure of a scene file that cannot be read. -/
def failure? (file : SceneFile) : Option SceneFailure :=
  match readScene file with
  | .ok _ => none
  | .error e => some ⟨file, e⟩

/-- The warnings about a scene file. -/
def sceneWarnings (file : SceneFile) : List Warning :=
  match readScene file with
  | .ok reading => reading.warnings.map .sceneFinding
  | .error e => [.malformedScene file.path e]

/-- The entities of a project and the relations between them. -/
structure Model where
  index : EntityIndex
  graph : RelationGraph String
  warnings : List Warning

/-- The model of scenes and declarations. -/
def Model.build (markers : Markers) (scenes : List Scene.Tree) (declarations : List Declaration) :
    Model :=
  let (index, duplicates) := EntityIndex.build markers scenes declarations
  let (graph, repeated) := RelationGraph.ofIndex index markers
  { index, graph
    warnings := duplicates.map .duplicateScene ++ repeated.map (Warning.ofRepeated index) }

/-- Whether an entity gets a diagram. -/
def isRequested (config : Config) (e : Entity) : Bool :=
  e.request.isSome || config.diagram.includes e.name

/-- The diagram of an entity. -/
def output (config : Config) (dir : String) (model : Model) (e : Entity) : DiagramOutput :=
  let path := e.outputPath
  let depth := path.toList.count '/'
  let options := config.diagram.options e.request
  let linker :=
    if options.absoluteLinks then Linker.ofScheme config.diagram.linkScheme dir
    else .relative depth
  let ctx : DiagramContext := ⟨model.index, model.graph, config.markers, options, linker⟩
  { entity := e.name, path, depth
    contents := (e.diagram ctx (Facet.registry Facet.all)).document }

/-- Draws the diagrams of a project. -/
def generate (config : Config) (p : Project) : Generation × List Warning :=
  let model := Model.build config.markers p.trees p.declarations
  ({ outputs :=
      (model.index.entities.filter (isRequested config)).map (output config p.dir model)
     failures := p.scenes.filterMap failure? },
    p.scenes.flatMap sceneWarnings ++ model.warnings)

end Project

end SceneDiagram
