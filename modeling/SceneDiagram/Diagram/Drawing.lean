import SceneDiagram.Diagram.Block
import SceneDiagram.Facet

/-!
# Drawing an entity

The block of an entity nests the blocks of the entities that it is composed of, which are those that
its facets refer to and ask to be drawn. Each entity is drawn once, where it is first reached. An
entity that encloses another is not a child of it again, so a cycle of references ends.

Drawing keeps the names of the entities that are still to be drawn. Each entity that is drawn leaves
the list, which is why drawing ends.
-/

namespace SceneDiagram

namespace Drawing

variable (ctx : DiagramContext) (facets : List Facet)

/-- Whether any facet has something to show for an entity. -/
def hasContent (e : Entity) : Bool :=
  facets.any fun f => !(f.items ctx e).isEmpty

/-- Whether a facet draws an entity that it refers to. -/
def draws (f : Facet) (child : Entity) : Bool :=
  match f.nesting with
  | .never => false
  | .withContent => hasContent ctx facets child
  | .always => true

/-- All references of an entity that ask for the other entity to be drawn, in the order of facets
and items. -/
def references (e : Entity) : List Entity :=
  facets.flatMap fun f =>
    ((f.items ctx e).filterMap (·.target)).filter (draws ctx facets f)

/-- Entities without those whose name came before. -/
def firstOfEachName (seen : List String) : List Entity → List Entity
  | [] => []
  | e :: es =>
    if seen.contains e.name then firstOfEachName seen es
    else e :: firstOfEachName (e.name :: seen) es

/-- The entities to draw inside an entity, in the order in which they are first referred to: neither
the entity itself nor one that encloses it. -/
def children (e : Entity) (enclosing : List String) : List Entity :=
  firstOfEachName (e.name :: enclosing) (references ctx facets e)

/-- The class of an entity. -/
def classBlock (e : Entity) : ClassBlock where
  name := e.name
  sceneOnly := e.linkTarget.2 == .scene
  fileLine := "[[" ++ ctx.ownLink e ++ " " ++ e.linkTarget.2.render ++ "File]]"
  sections := facets.filterMap fun f =>
    let items := f.items ctx e
    if items.isEmpty then none else some ⟨f.title, f.lines ctx e items⟩

/-- The arrow from an entity to a child, which leaves from the member that contains the child. -/
def arrow (e : Entity) (enclosing : List String) (child : Entity) : Arrow where
  parent := e.name
  member := (ctx.graph.member? e.name child.name .child).getD child.name
  long := !(children ctx facets child (e.name :: enclosing)).isEmpty
  child := child.name

mutual

/-- Draws an entity inside the entities that enclose it, and gives the names that are left. -/
def draw (e : Entity) (enclosing undrawn : List String) :
    Block × { left : List String // left.length ≤ undrawn.length } :=
  match children ctx facets e enclosing with
  | [] => (.single (classBlock ctx facets e), ⟨undrawn, Nat.le_refl _⟩)
  | cs =>
    let inside := e.name :: enclosing
    let (nested, left) := drawAll cs inside undrawn
    (.package (if e.isScene then "Scene" else "Type") (ctx.linker.link e.file)
      (classBlock ctx facets e) nested (cs.map (arrow ctx facets e enclosing)), left)
termination_by (undrawn.length, 1, 0)

/-- Draws those of the given entities that are still to be drawn. -/
def drawAll (es : List Entity) (enclosing undrawn : List String) :
    List Block × { left : List String // left.length ≤ undrawn.length } :=
  match es with
  | [] => ([], ⟨undrawn, Nat.le_refl _⟩)
  | e :: es =>
    if h : e.name ∈ undrawn then
      have hlt : (undrawn.erase e.name).length < undrawn.length := by
        have := List.length_pos_of_mem h
        rw [List.length_erase_of_mem h]
        omega
      let (block, left) := draw e enclosing (undrawn.erase e.name)
      let (blocks, last) := drawAll es enclosing left.1
      (block :: blocks, ⟨last.1, by omega⟩)
    else
      drawAll es enclosing undrawn
termination_by (undrawn.length, 0, es.length)

end

end Drawing

/-- The diagram of an entity. -/
def Entity.diagram (ctx : DiagramContext) (facets : List Facet) (e : Entity) : Block :=
  (Drawing.draw ctx facets e [] (ctx.index.names.erase e.name)).1

end SceneDiagram
