import SceneDiagram.Entity.Index
import SceneDiagram.Relation

/-!
# Relations between the entities of a project

An entity mentions others by name: a node of its scene has the type of another entity, and so do
properties, constructor parameters and the types that its methods provide. Every mention is an edge
of the graph, but an entity does not contain itself. The first mention of a relation counts; a later
one is a duplicate worth a warning, except for properties and parameters that are merely contained.
-/

namespace SceneDiagram

/-- A mention of an entity in the scene or the declaration of another. -/
structure Mention where
  target : String
  relation : Relation
  member : String
  /-- Whether a mention of a known relation goes without a warning. -/
  tacit : Bool
deriving Repr, DecidableEq

namespace Mention

/-- The edge that a mention adds. -/
def edge (source : String) (m : Mention) : Edge String :=
  ⟨source, m.target, m.relation, some m.member⟩

variable (ix : EntityIndex) (markers : Markers) (e : Entity)

/-- The entity that a name means, unless it is the one that mentions it. -/
def other? (e : Entity) (target : Option Entity) : Option Entity :=
  target.filter (·.name != e.name)

/-- The mentions in the nodes of a scene, whose types are entity names as they stand. -/
def ofNodes : List Mention :=
  match e.scene? with
  | none => []
  | some tree => tree.nodes.filterMap fun node =>
      (other? e (node.typeName.bind ix.lookup?)).map fun target =>
        ⟨target.name, .child, node.name, false⟩

/-- The mention in a property. -/
def ofProperty? (p : DataMember) : Option Mention :=
  match ix.resolve? p.typeName with
  | none => none
  | some target =>
    if p.hasAttribute markers.dependencyAttribute then
      some ⟨target.name, .dependency, p.name, false⟩
    else (other? e (some target)).map fun target => ⟨target.name, .child, p.name, true⟩

/-- The mention in the type that a method provides. -/
def ofMethod? (m : Method) : Option Mention :=
  ((markers.providedType? m).bind ix.resolve?).map fun target =>
    ⟨target.name, .provision, m.name, false⟩

/-- The mention in a constructor parameter. -/
def ofParameter? (p : Parameter) : Option Mention :=
  (other? e (ix.resolve? p.typeName)).map fun target => ⟨target.name, .child, p.name, true⟩

/-- The mentions in a declaration. -/
def ofDeclaration (d : Declaration) : List Mention :=
  d.properties.filterMap (ofProperty? ix markers e) ++
    d.methods.filterMap (ofMethod? ix markers) ++
    d.allConstructors.flatMap fun c => c.parameters.filterMap (ofParameter? ix e)

/-- All mentions of other entities in an entity. -/
def ofEntity : List Mention :=
  ofNodes ix e ++ (e.declaration.map (ofDeclaration ix markers e)).getD []

end Mention

/-- A mention of a relation that is already known. -/
structure RepeatedMention where
  refused : DuplicateEdge String
  member : String
deriving Repr, DecidableEq

namespace RelationGraph

/-- Adds the edge of a mention. -/
def addMention (source : String) (found : RelationGraph String × List RepeatedMention)
    (m : Mention) : RelationGraph String × List RepeatedMention :=
  match found.1.add (m.edge source) with
  | .ok g => (g, found.2)
  | .error refused => (found.1, if m.tacit then found.2 else found.2 ++ [⟨refused, m.member⟩])

/-- The relations between the entities of an index, and the mentions that repeat one. -/
def ofIndex (ix : EntityIndex) (markers : Markers) :
    RelationGraph String × List RepeatedMention :=
  ix.entities.foldl
    (fun found e => (Mention.ofEntity ix markers e).foldl (addMention e.name) found) (empty, [])

end RelationGraph

end SceneDiagram
