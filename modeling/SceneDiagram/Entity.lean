import SceneDiagram.Config
import SceneDiagram.Scene
import SceneDiagram.Text.Path

/-!
# Entities

An entity is what a diagram shows as one class: a scene, or a source file with the type that it
declares, or both where their file names agree. An entity is named by the stem of its file.
-/

namespace SceneDiagram

open Text

/-- What an entity was first found as. -/
inductive Origin where
  | scene (tree : Scene.Tree)
  | file (path : String)
deriving Repr, DecidableEq

/-- The kind of file that a link leads to. -/
inductive FileKind where
  | script
  | scene
deriving Repr, DecidableEq

/-- The word for a kind of file. -/
def FileKind.render : FileKind → String
  | script => "Script"
  | scene => "Scene"

/-- An entity with what has been declared about it. -/
structure Entity where
  origin : Origin
  /-- The class, record or struct of the same name. -/
  declaration : Option Declaration
  /-- The interface that belongs to the entity. -/
  interface : Option Declaration
  /-- The attribute that asks for a diagram. -/
  request : Option Attribute
deriving Repr, DecidableEq

namespace Entity

/-- The entity of a scene. -/
def ofScene (tree : Scene.Tree) : Entity := ⟨.scene tree, none, none, none⟩

/-- The entity of a source file. -/
def ofFile (path : String) : Entity := ⟨.file path, none, none, none⟩

/-- The scene of an entity that has one. -/
def scene? (e : Entity) : Option Scene.Tree :=
  match e.origin with
  | .scene tree => some tree
  | .file _ => none

/-- Whether an entity has a scene. -/
def isScene (e : Entity) : Bool := e.scene?.isSome

/-- The file of an entity: its scene, or else its source file. -/
def file (e : Entity) : String :=
  match e.origin with
  | .scene tree => tree.path
  | .file path => path

/-- The name of an entity. -/
def name (e : Entity) : String := Path.stem e.file

/-- The script of an entity: the one that its scene runs, the source file that declares it, or the
file that it was found as. -/
def script? (e : Entity) : Option String :=
  match e.origin with
  | .scene tree => tree.script.or (e.declaration.map (·.file))
  | .file path => some path

/-- The file that links to an entity lead to. -/
def linkTarget (e : Entity) : String × FileKind :=
  match e.script? with
  | some script => (script, .script)
  | none => (e.file, .scene)

/-! ## Declarations of an entity -/

/-- The fragments of a file that make up its type. The first fragment that is no interface names
the type. -/
def ownFragments (fragments : List Declaration) : List Declaration :=
  let types := fragments.filter (! ·.isInterface)
  match types.head? with
  | none => []
  | some first => types.filter (·.name == first.name)

/-- The fragments of a file that make up the interface that belongs to an entity. -/
def pairedFragments (markers : Markers) (name : String) (fragments : List Declaration) :
    List Declaration :=
  fragments.filter fun d => d.isInterface && d.name == markers.interfaceName name

/-- Adds the fragments of a file to an entity. The first attribute that asks for a diagram stays. -/
def absorb (markers : Markers) (fragments : List Declaration) (e : Entity) : Entity :=
  let own := ownFragments fragments
  { origin := e.origin
    declaration := Declaration.mergeAll e.declaration own
    interface := Declaration.mergeAll e.interface (pairedFragments markers e.name fragments)
    request := e.request.or (own.findSome? (·.attribute? markers.diagramAttribute)) }

/-- An entity keeps its name when it is told more about its declaration. -/
@[simp] theorem name_absorb (markers : Markers) (fragments : List Declaration) (e : Entity) :
    (e.absorb markers fragments).name = e.name := rfl

/-- The names of the properties of the interface that belongs to an entity. -/
def interfaceProperties (e : Entity) : List String :=
  (e.interface.map fun i => i.properties.map (·.name)).getD []

/-- The names of the methods of the interface that belongs to an entity. -/
def interfaceMethods (e : Entity) : List String :=
  (e.interface.map fun i => i.methods.map (·.name)).getD []

end Entity

end SceneDiagram
