import SceneDiagram.Project
import SceneDiagram.Proofs.Diagram.Reference
import SceneDiagram.Proofs.Relation.Resolution

/-!
# What is injected and what is provided

Two facets refer to an entity only where the graph has the edge: the dependencies and the provisions
of an entity. The graph reads the same members by rules of its own and refuses every edge that it
has already, so a reference might get lost between the two. None does: each place that names an
entity has its edge, even if an earlier place added it (`related?_eq_self`), and the facets refer to
just what those places name (`relations_listed`).
-/

namespace SceneDiagram

/-- A place that names an entity gives that entity back. -/
theorem Occurrence.map_target (member : String) (target : Option Entity) :
    (target.map (Occurrence.mk member)).map (·.target) = target := by
  cases target <;> rfl

namespace Facet

variable {ctx : DiagramContext} {e : Entity} {d : Declaration} {relation : Relation}

/-- The graph keeps the reference to an entity that some place of the one that is drawn names. -/
theorem related?_eq_self (hgraph : ctx.graph = (RelationGraph.ofIndex ctx.index ctx.markers).1)
    (he : e ∈ ctx.index.entities) {target : Option Entity}
    (htarget : ∀ t, target = some t →
      ∃ o ∈ e.occurrences ctx.index ctx.markers relation, o.target = t) :
    related? ctx e relation target = target := by
  cases target with
  | none => rfl
  | some t =>
    obtain ⟨o, ho, rfl⟩ := htarget t rfl
    have hcontains : ctx.graph.contains e.name o.target.name relation = true := by
      rw [hgraph]
      exact (RelationGraph.contains_ofIndex_iff he (Entity.mem_of_mem_occurrences ho) _).mpr
        ⟨o, ho, rfl⟩
    rw [related?, Option.filter_some, if_pos hcontains]

section Listing

variable (hgraph : ctx.graph = (RelationGraph.ofIndex ctx.index ctx.markers).1)
  (he : e ∈ ctx.index.entities)

include hgraph he

/-- The dependencies refer to whatever the types of the injected properties mean. -/
theorem dependencyItems_eq (hd : e.declaration = some d) :
    dependencyItems ctx e d =
      (d.properties.filter (·.hasAttribute ctx.markers.dependencyAttribute)).map fun p =>
        propertyItem (ctx.index.resolve? p.typeName) p := by
  refine List.map_congr_left fun p hp => ?_
  obtain ⟨hp, hinjected⟩ := List.mem_filter.mp hp
  rw [related?_eq_self hgraph he fun t ht => ?_]
  exact Entity.exists_dependency_occurrence_iff.mpr
    ⟨d, hd, p, hp, hinjected, EntityIndex.resolve?_eq_some_iff.mp ht⟩

/-- The provisions refer to whatever the provided types mean. -/
theorem provisionItems_eq (hd : e.declaration = some d) :
    provisionItems ctx e d =
      d.methods.filterMap fun m =>
        (ctx.markers.providedType? m).map fun provided =>
          ⟨ctx.index.resolve? provided, provided, some provided, m.line⟩ := by
  refine List.filterMap_congr fun m hm => ?_
  refine Option.map_congr fun provided hprovided => ?_
  rw [related?_eq_self hgraph he fun t ht => ?_]
  have hnames : (ctx.markers.providedType? m).bind ctx.index.resolve? = some t := by
    rw [hprovided]
    exact ht
  refine ⟨⟨m.name, t⟩, ?_, rfl⟩
  rw [Entity.occurrences, hd]
  exact List.mem_filterMap.mpr ⟨m, hm, by rw [hnames]; rfl⟩

/-- The dependencies refer to the entities that the injected properties name, in their order. -/
theorem targets_dependencies :
    (dependencies.items ctx e).filterMap (·.target) =
      (e.occurrences ctx.index ctx.markers .dependency).map (·.target) := by
  rw [items, ofDeclaration, Entity.occurrences]
  cases hd : e.declaration with
  | none => rfl
  | some d =>
    rw [Option.map_some, Option.getD_some, dependencyItems_eq hgraph he hd, List.filterMap_map,
      Option.map_some, Option.getD_some, Entity.propertyOccurrences, List.map_filterMap]
    simp only [Occurrence.map_target, beq_true]
    rfl

/-- The provisions refer to the entities that the provided types name, in their order. -/
theorem targets_provisions :
    (provisions.items ctx e).filterMap (·.target) =
      (e.occurrences ctx.index ctx.markers .provision).map (·.target) := by
  rw [items, ofDeclaration, Entity.occurrences]
  cases hd : e.declaration with
  | none => rfl
  | some d =>
    rw [Option.map_some, Option.getD_some, provisionItems_eq hgraph he hd, List.filterMap_filterMap,
      Option.map_some, Option.getD_some, Entity.methodOccurrences, List.map_filterMap]
    refine List.filterMap_congr fun m _ => ?_
    rw [Occurrence.map_target]
    cases ctx.markers.providedType? m <;> rfl

end Listing

end Facet

namespace Drawing

/-- The dependencies of an entity refer to whatever the types of its injected properties mean, and
its provisions to whatever the provided types mean: no reference is lost for want of an edge. In the
order of the first references, the entities that each of the two facets refers to are those that the
graph relates to the entity. -/
theorem relations_listed (markers : Markers) (scenes : List Scene.Tree)
    (declarations : List Declaration) (options : Options) (linker : Linker) {e : Entity}
    (he : e ∈ (Project.Model.build markers scenes declarations).index.entities) :
    let model := Project.Model.build markers scenes declarations
    let ctx : DiagramContext := ⟨model.index, model.graph, markers, options, linker⟩
    (∀ item ∈ Facet.dependencies.items ctx e,
      item.target = model.index.resolve? item.typeName) ∧
    (∀ item ∈ Facet.provisions.items ctx e,
      item.target = model.index.resolve? item.typeName) ∧
    model.graph.targets e.name .dependency =
      (((Facet.dependencies.items ctx e).filterMap (·.target)).map Entity.name).eraseDups ∧
    model.graph.targets e.name .provision =
      (((Facet.provisions.items ctx e).filterMap (·.target)).map Entity.name).eraseDups := by
  intro model ctx
  have hgraph : ctx.graph = (RelationGraph.ofIndex ctx.index ctx.markers).1 := rfl
  have htargets : ∀ relation, model.graph.targets e.name relation =
      (((e.occurrences model.index markers relation).map (·.target)).map
        Entity.name).eraseDups := by
    intro relation
    rw [List.map_map]
    exact RelationGraph.targets_ofIndex model.index markers he relation
  refine ⟨fun item hitem => ?_, fun item hitem => ?_, ?_, ?_⟩
  · obtain ⟨d, hd, hitem⟩ := mem_ofDeclaration.mp hitem
    rw [Facet.dependencyItems_eq hgraph he hd] at hitem
    obtain ⟨p, -, rfl⟩ := List.mem_map.mp hitem
    rfl
  · obtain ⟨d, hd, hitem⟩ := mem_ofDeclaration.mp hitem
    rw [Facet.provisionItems_eq hgraph he hd] at hitem
    obtain ⟨m, -, hm⟩ := List.mem_filterMap.mp hitem
    obtain ⟨provided, -, rfl⟩ := Option.map_eq_some_iff.mp hm
    rfl
  · rw [Facet.targets_dependencies hgraph he, htargets]
  · rw [Facet.targets_provisions hgraph he, htargets]

/-! ## A host that is injected into itself -/

namespace Host

/-- Two properties of the host have the type of the store, one by its interface, and one has the
type of the host. The host provides its store. -/
def declaration : Declaration := ⟨"Host", .classType, "src/Host.cs", 1, [],
  [.property ⟨"Main", "Store", 2, [⟨"Dependency", []⟩], false⟩,
   .property ⟨"Spare", "IStore", 3, [⟨"Dependency", []⟩], false⟩,
   .property ⟨"Parent", "Host", 4, [⟨"Dependency", []⟩], false⟩,
   .method ⟨"Value", 5, some ⟨"IProvide", ["Store"]⟩, [], false⟩], none, []⟩

def declarations : List Declaration :=
  [declaration, ⟨"Store", .classType, "src/Store.cs", 1, [], [], none, []⟩]

def host : Entity := ⟨.file "src/Host.cs", some declaration, none, none⟩

def model : Project.Model := Project.Model.build .standard [] declarations

def context : DiagramContext :=
  ⟨model.index, model.graph, .standard, ⟨false, false, false⟩, .relative 1⟩

theorem host_mem : host ∈ model.index.entities := by decide

end Host

/-- All three injected properties of the host refer to an entity, and the graph relates the host to
the store and to itself. -/
theorem relations_listed_host :
    Host.host ∈ Host.model.index.entities ∧
      (Facet.dependencies.items Host.context Host.host).map (·.target.isSome) =
        [true, true, true] ∧
      (∀ item ∈ Facet.dependencies.items Host.context Host.host,
        item.target = Host.model.index.resolve? item.typeName) ∧
      Host.model.graph.targets "Host" .dependency = ["Store", "Host"] ∧
      Host.model.graph.targets "Host" .provision = ["Store"] := by
  obtain ⟨hdependencies, -, htargets, hprovided⟩ :=
    relations_listed .standard [] Host.declarations ⟨false, false, false⟩ (.relative 1)
      Host.host_mem
  have hnames : ((Facet.dependencies.items Host.context Host.host).filterMap (·.target)).map
      Entity.name = ["Store", "Store", "Host"] := by decide
  have hprovisions : ((Facet.provisions.items Host.context Host.host).filterMap (·.target)).map
      Entity.name = ["Store"] := by decide
  refine ⟨Host.host_mem, by decide, hdependencies, ?_, ?_⟩
  · exact htargets.trans (hnames ▸ by decide)
  · exact hprovided.trans (hprovisions ▸ by decide)

end Drawing

end SceneDiagram
