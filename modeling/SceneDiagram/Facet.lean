import SceneDiagram.Link
import SceneDiagram.Relation.Mention

/-!
# Facets

A facet is one section of the class that a diagram shows for an entity: its dependencies, its
properties, its scene nodes and so on. A facet lists items, which may refer to other entities, and
writes them as lines. A registry puts facets in the order of their tiers.
-/

namespace SceneDiagram

/-- The sections of a class. -/
inductive Facet where
  | dependencies
  | provisions
  | interfaceProperties
  | properties
  | constructors
  | nodes
  | interfaceMethods
  | methods
deriving Repr, DecidableEq

/-- Whether the entities that a facet refers to are drawn inside the entity itself. -/
inductive Nesting where
  | never
  /-- Drawn if they have anything to show. -/
  | withContent
  | always
deriving Repr, DecidableEq

/-- One line of a facet before it is written. -/
structure FacetItem where
  target : Option Entity
  typeName : String
  name : Option String
  line : Nat
deriving Repr, DecidableEq

/-- What a diagram is drawn from. -/
structure DiagramContext where
  index : EntityIndex
  graph : RelationGraph String
  markers : Markers
  options : Options
  linker : Linker

namespace DiagramContext

variable (ctx : DiagramContext)

/-- The link to the file that an entity leads to. -/
def ownLink (e : Entity) : String := ctx.linker.link e.linkTarget.1

/-- A reference to the file of an entity that names the kind of the file. -/
def fileReference (e : Entity) : String :=
  "[[" ++ ctx.ownLink e ++ " " ++ e.linkTarget.2.render ++ "]]"

/-- The line of an item: where it is declared, and the entity that it refers to. -/
def itemLine (link : String) (item : FacetItem) : String :=
  "[[" ++ link ++ ":" ++ toString item.line ++ " " ++ item.name.getD "" ++ "]]" ++
    item.target.elim "" fun target => " - " ++ ctx.fileReference target

/-- The line of a method. -/
def methodLine (link : String) (item : FacetItem) : String :=
  "[[" ++ link ++ ":" ++ toString item.line ++ " " ++ item.name.getD "" ++ "()]]"

/-- A parameter in the line of its constructor. -/
def parameterText (item : FacetItem) : Option String :=
  item.name.map fun name =>
    match item.target with
    | some target => "[[" ++ ctx.ownLink target ++ " " ++ item.typeName ++ "]] " ++ name
    | none => item.typeName ++ " " ++ name

/-- The line of a constructor, which shares its number with all its items. -/
def constructorLine (link typeName : String) : List FacetItem → String
  | [] => ""
  | first :: rest =>
    "[[" ++ link ++ ":" ++ toString first.line ++ " " ++ typeName ++ "]](" ++
      String.intercalate ", " ((first :: rest).filterMap ctx.parameterText) ++ ")"

end DiagramContext

namespace Facet

/-- The heading of a facet. -/
def title : Facet → String
  | dependencies => "[Dependencies]"
  | provisions => "[Provisions]"
  | interfaceProperties => "[Interface Properties]"
  | properties => "[Properties]"
  | constructors => "[Constructors]"
  | nodes => "[Nodes]"
  | interfaceMethods => "[Interface Methods]"
  | methods => "[Methods]"

/-- The tier of a facet; lower tiers come first. -/
def tier : Facet → Nat
  | dependencies | provisions => 0
  | interfaceProperties | properties | constructors | nodes => 100
  | interfaceMethods | methods => 200

/-- How a facet draws the entities that it refers to. -/
def nesting : Facet → Nesting
  | interfaceProperties | properties => .withContent
  | nodes => .always
  | _ => .never

/-- All facets in the order of a class. -/
def all : List Facet :=
  [dependencies, provisions, interfaceProperties, properties, constructors, nodes,
    interfaceMethods, methods]

/-- Facets in the order of their tiers, those of one tier in the order given. -/
def registry (facets : List Facet) : List Facet :=
  facets.mergeSort fun a b => a.tier ≤ b.tier

/-- Items in the order of their names, those of one name in the order given. -/
def sortByName (items : List FacetItem) : List FacetItem :=
  items.mergeSort fun a b => a.name.getD "" ≤ b.name.getD ""

variable (ctx : DiagramContext) (e : Entity)

/-- The item of a property. -/
def propertyItem (target : Option Entity) (p : DataMember) : FacetItem :=
  ⟨target, p.typeName, some p.name, p.line⟩

/-- An entity that the graph relates to the one that is drawn. -/
def related? (relation : Relation) (target : Option Entity) : Option Entity :=
  target.filter fun t => ctx.graph.contains e.name t.name relation

/-- The injected properties, in the order of declaration. -/
def dependencyItems (d : Declaration) : List FacetItem :=
  (d.properties.filter (·.hasAttribute ctx.markers.dependencyAttribute)).map fun p =>
    propertyItem (related? ctx e .dependency (ctx.index.resolve? p.typeName)) p

/-- The provided types, in the order of declaration. -/
def provisionItems (d : Declaration) : List FacetItem :=
  d.methods.filterMap fun m =>
    (ctx.markers.providedType? m).map fun provided =>
      ⟨related? ctx e .provision (ctx.index.resolve? provided), provided, some provided, m.line⟩

/-- The properties that the interface of the entity names. -/
def interfacePropertyItems (d : Declaration) : List FacetItem :=
  sortByName <|
    (d.properties.filter fun p => e.interfaceProperties.contains p.name).map fun p =>
      propertyItem (ctx.index.resolve? p.typeName) p

/-- Whether a property is plain: no override, not injected, and not named by the interface. -/
def isPlainProperty (p : DataMember) : Bool :=
  !p.isOverride && !p.hasAttribute ctx.markers.dependencyAttribute &&
    !e.interfaceProperties.contains p.name

/-- The plain properties: all of them, or those of which the type is an entity. -/
def propertyItems (d : Declaration) : List FacetItem :=
  sortByName <|
    ((d.properties.filter (isPlainProperty ctx e)).map fun p =>
      propertyItem (ctx.index.resolve? p.typeName) p).filter fun item =>
        ctx.options.showAllMembers || item.target.isSome

/-- The items of a constructor: its parameters, or one without a name if it has none. -/
def parameterItems (c : ParameterList) : List FacetItem :=
  if c.parameters.isEmpty then [⟨none, "", none, c.line⟩]
  else c.parameters.map fun p =>
    ⟨ctx.index.resolve? p.typeName, p.typeName, some p.name, c.line⟩

/-- The items of all constructors, the primary one first. -/
def constructorItems (d : Declaration) : List FacetItem :=
  d.allConstructors.flatMap (parameterItems ctx)

/-- The nodes of a scene whose type is another entity. -/
def nodeItems (tree : Scene.Tree) : List FacetItem :=
  tree.nodes.filterMap fun node =>
    node.typeName.bind fun typeName =>
      (Mention.other? e (ctx.index.lookup? typeName)).map fun target =>
        ⟨some target, typeName, some node.name, node.line⟩

/-- Whether a method is one that the interface of the entity names. -/
def isInterfaceMethod (m : Method) : Bool :=
  m.explicitInterface.isNone && e.interfaceMethods.contains m.name

/-- The methods that the interface of the entity names. -/
def interfaceMethodItems (d : Declaration) : List FacetItem :=
  sortByName <| (d.methods.filter (isInterfaceMethod e)).map fun m =>
    ⟨none, "", some m.name, m.line⟩

/-- The name that a method is listed by. -/
def methodName (m : Method) : String :=
  match m.explicitInterface with
  | some i => i.render ++ "." ++ m.name
  | none => m.name

/-- Whether a method is plain: no override, no provision, and not named by the interface. -/
def isPlainMethod (m : Method) : Bool :=
  !m.isOverride && (ctx.markers.providedType? m).isNone && !isInterfaceMethod e m

/-- The plain methods, if they are asked for. -/
def methodItems (d : Declaration) : List FacetItem :=
  if ctx.options.showAllMethods then
    sortByName <| (d.methods.filter (isPlainMethod ctx e)).map fun m =>
      ⟨none, "", some (methodName m), m.line⟩
  else []

/-- The items of a facet that come from the declaration of the entity. -/
def ofDeclaration (items : Declaration → List FacetItem) : List FacetItem :=
  (e.declaration.map items).getD []

/-- The items that a facet lists for an entity. -/
def items : Facet → List FacetItem
  | dependencies => ofDeclaration e (dependencyItems ctx e)
  | provisions => ofDeclaration e (provisionItems ctx e)
  | interfaceProperties => ofDeclaration e (interfacePropertyItems ctx e)
  | properties => ofDeclaration e (propertyItems ctx e)
  | constructors => ofDeclaration e (constructorItems ctx)
  | nodes => (e.scene?.map (nodeItems ctx e)).getD []
  | interfaceMethods => ofDeclaration e (interfaceMethodItems e)
  | methods => ofDeclaration e (methodItems ctx e)

/-- The lines that a facet writes for items of an entity. Items of constructors share a line of the
diagram as long as they share a line of the source. -/
def lines (items : List FacetItem) : Facet → List String
  | constructors =>
    (items.splitBy fun a b => a.line == b.line).map
      (ctx.constructorLine (ctx.ownLink e) ((e.declaration.map (·.name)).getD ""))
  | nodes => items.map (ctx.itemLine (ctx.linker.link e.file))
  | interfaceMethods | methods => items.map (DiagramContext.methodLine (ctx.ownLink e))
  | dependencies | provisions | interfaceProperties | properties =>
    items.map (ctx.itemLine (ctx.ownLink e))

end Facet

end SceneDiagram
