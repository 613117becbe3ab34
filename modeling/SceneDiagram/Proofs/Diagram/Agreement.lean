import SceneDiagram.Proofs.Diagram.Traversal

/-!
# What a diagram depends on

A diagram is drawn from what look-ups and the graph answer, not from where the entities stand in the
index. So contexts that answer alike draw every entity alike (`Agree.diagram`), though one of them
may hold its entities in another order and try more or fewer names before it ends.
-/

namespace SceneDiagram

/-- Contexts that answer alike. -/
structure Agree (ctx ctx' : DiagramContext) : Prop where
  lookup? : ctx.index.lookup? = ctx'.index.lookup?
  interfacePrefix : ctx.index.interfacePrefix = ctx'.index.interfacePrefix
  find? : ctx.graph.find? = ctx'.graph.find?
  markers : ctx.markers = ctx'.markers
  options : ctx.options = ctx'.options
  linker : ctx.linker = ctx'.linker

namespace Agree

variable {ctx ctx' : DiagramContext} (h : Agree ctx ctx') (facets : List Facet)

include h

theorem resolve? : ctx.index.resolve? = ctx'.index.resolve? :=
  EntityIndex.resolve?_congr h.lookup? h.interfacePrefix

theorem related? : Facet.related? ctx = Facet.related? ctx' := by
  funext e relation target
  simp only [Facet.related?, RelationGraph.contains, h.find?]

theorem ownLink : ctx.ownLink = ctx'.ownLink := by
  funext e
  simp only [DiagramContext.ownLink, h.linker]

/-- The facets list the same items. -/
theorem items : Facet.items ctx = Facet.items ctx' := by
  funext e f
  cases f with
  | dependencies =>
    apply congrArg (Facet.ofDeclaration e)
    funext d
    simp only [Facet.dependencyItems, h.markers, h.related?, h.resolve?]
  | provisions =>
    apply congrArg (Facet.ofDeclaration e)
    funext d
    simp only [Facet.provisionItems, h.markers, h.related?, h.resolve?]
  | interfaceProperties =>
    apply congrArg (Facet.ofDeclaration e)
    funext d
    simp only [Facet.interfacePropertyItems, h.resolve?]
  | properties =>
    have hplain : Facet.isPlainProperty ctx e = Facet.isPlainProperty ctx' e := by
      funext p
      simp only [Facet.isPlainProperty, h.markers]
    apply congrArg (Facet.ofDeclaration e)
    funext d
    simp only [Facet.propertyItems, hplain, h.options, h.resolve?]
  | constructors =>
    have hparameters : Facet.parameterItems ctx = Facet.parameterItems ctx' := by
      funext c
      simp only [Facet.parameterItems, h.resolve?]
    apply congrArg (Facet.ofDeclaration e)
    funext d
    simp only [Facet.constructorItems, hparameters]
  | nodes =>
    have hnodes : Facet.nodeItems ctx e = Facet.nodeItems ctx' e := by
      funext tree
      simp only [Facet.nodeItems, h.lookup?]
    simp only [Facet.items, hnodes]
  | interfaceMethods => rfl
  | methods =>
    have hplain : Facet.isPlainMethod ctx e = Facet.isPlainMethod ctx' e := by
      funext m
      simp only [Facet.isPlainMethod, h.markers]
    apply congrArg (Facet.ofDeclaration e)
    funext d
    simp only [Facet.methodItems, hplain, h.options]

/-- The facets write the same lines. -/
theorem lines : Facet.lines ctx = Facet.lines ctx' := by
  have hline : ctx.itemLine = ctx'.itemLine := by
    funext link item
    simp only [DiagramContext.itemLine, DiagramContext.fileReference, h.ownLink]
  have htext : ctx.parameterText = ctx'.parameterText := by
    funext item
    simp only [DiagramContext.parameterText, h.ownLink]
  have hconstructor : ctx.constructorLine = ctx'.constructorLine := by
    funext link typeName items
    cases items with
    | nil => rfl
    | cons item items => simp only [DiagramContext.constructorLine, htext]
  funext e items f
  cases f <;> simp only [Facet.lines, hline, hconstructor, h.ownLink, h.linker]

theorem children : Drawing.children ctx facets = Drawing.children ctx' facets := by
  have hdraws : Drawing.draws ctx facets = Drawing.draws ctx' facets := by
    funext f c
    simp only [Drawing.draws, Drawing.hasContent, h.items]
  funext e enclosing
  simp only [Drawing.children, Drawing.references, hdraws, h.items]

theorem classBlock : Drawing.classBlock ctx facets = Drawing.classBlock ctx' facets := by
  funext e
  simp only [Drawing.classBlock, h.items, h.lines, h.ownLink]

theorem arrow : Drawing.arrow ctx facets = Drawing.arrow ctx' facets := by
  funext e enclosing child
  simp only [Drawing.arrow, RelationGraph.member?, h.find?, h.children]

theorem enclose : Drawing.enclose ctx facets = Drawing.enclose ctx' facets := by
  funext e enclosing nested
  simp only [Drawing.enclose, h.children, h.classBlock, h.arrow, h.linker]

/-- What the rules of drawing make of entities is the same. -/
theorem traversal {es : List Entity} {enclosing drawn last : List String} {blocks : List Block}
    (htrav : Drawing.Traversal ctx facets es enclosing drawn blocks last) :
    Drawing.Traversal ctx' facets es enclosing drawn blocks last := by
  induction htrav with
  | done => exact .done
  | skip hdrawn _ ih => exact .skip hdrawn ih
  | draw hnot _ _ ihnested ihrest =>
    rw [h.enclose]
    rw [h.children] at ihnested
    exact .draw hnot ihnested ihrest

/-- Contexts that answer alike draw every entity alike. -/
theorem diagram (e : Entity) : e.diagram ctx facets = e.diagram ctx' facets := by
  obtain ⟨last, htrav⟩ := Drawing.traversal_iff.mpr (rfl : e.diagram ctx facets = _)
  exact Drawing.traversal_iff.mp ⟨last, h.traversal facets htrav⟩

end Agree

end SceneDiagram
